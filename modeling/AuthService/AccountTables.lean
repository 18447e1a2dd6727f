import AuthService.DomainModel
import AuthService.KeyedRows
import AuthService.Transactions

set_option autoImplicit false

/-! The tables of the account database, the statements the repositories send to it
and what the repositories read from it. -/
namespace AuthService.AccountTables
open Uuids PythonText DomainModel KeyedRows Transactions

structure UserModel where
  id : UUID
  email : String
  hashedPassword : String
  isActive : Bool
  createdAt : ℕ
  deriving DecidableEq

structure PasswordResetTokenModel where
  id : UUID
  userId : UUID
  token : String
  expiresAt : ℤ
  used : Bool
  deriving DecidableEq

inductive AuthEventType where
  | loginSuccess
  | loginFailed
  | logout
  | sessionRevoked
  | tokenRefreshed
  | passwordResetRequested
  | passwordResetCompleted
  deriving DecidableEq

def AuthEventType.value : AuthEventType → String
  | .loginSuccess => "login_success"
  | .loginFailed => "login_failed"
  | .logout => "logout"
  | .sessionRevoked => "session_revoked"
  | .tokenRefreshed => "token_refreshed"
  | .passwordResetRequested => "password_reset_requested"
  | .passwordResetCompleted => "password_reset_completed"

structure AuditEventDTO where
  id : UUID
  eventType : AuthEventType
  occurredAt : ℕ
  userId : Option UUID
  sessionId : Option UUID
  ipAddress : Option String
  metadata : List (String × String)

structure AuthEventModel where
  id : UUID
  userId : Option UUID
  eventType : String
  sessionId : Option UUID
  ipAddress : Option String
  occurredAt : ℕ
  metadata : List (String × String)
  deriving DecidableEq

def AuditEventDTO.toModel (dto : AuditEventDTO) : AuthEventModel :=
  ⟨dto.id, dto.userId, dto.eventType.value, dto.sessionId, dto.ipAddress, dto.occurredAt, dto.metadata⟩

structure Tables where
  users : List UserModel
  passwordResetTokens : List PasswordResetTokenModel
  authEvents : List AuthEventModel

/-- A flushed change: INSERT of a row, UPDATE of the columns in which two versions of
a row differ, or DELETE of the rows that the statement found. -/
inductive Statement where
  | insertUser (row : UserModel)
  | updateUser (old new : UserModel)
  | insertResetToken (row : PasswordResetTokenModel)
  | updateResetToken (old new : PasswordResetTokenModel)
  | deleteResetTokens (ids : List UUID)
  | insertEvent (row : AuthEventModel)

/-- The unit of work writes only the columns whose value changed. -/
def changed {β : Type} [DecidableEq β] (old new current : β) : β := if new = old then current else new

def UserModel.patch (old new row : UserModel) : UserModel :=
  { row with
    email := changed old.email new.email row.email
    hashedPassword := changed old.hashedPassword new.hashedPassword row.hashedPassword
    isActive := changed old.isActive new.isActive row.isActive
    createdAt := changed old.createdAt new.createdAt row.createdAt }

/-- `user_id` is not among the columns that `save` assigns. -/
def PasswordResetTokenModel.patch (old new row : PasswordResetTokenModel) : PasswordResetTokenModel :=
  { row with
    token := changed old.token new.token row.token
    expiresAt := changed old.expiresAt new.expiresAt row.expiresAt
    used := changed old.used new.used row.used }

def Statement.apply : Statement → Tables → Tables
  | .insertUser row, t => { t with users := t.users ++ [row] }
  | .updateUser old new, t =>
    { t with users := amend UserModel.id old.id (UserModel.patch old new) t.users }
  | .insertResetToken row, t => { t with passwordResetTokens := t.passwordResetTokens ++ [row] }
  | .updateResetToken old new, t =>
    { t with
      passwordResetTokens := amend PasswordResetTokenModel.id old.id
        (PasswordResetTokenModel.patch old new) t.passwordResetTokens }
  | .deleteResetTokens ids, t =>
    { t with passwordResetTokens := t.passwordResetTokens.filter (fun r => !ids.contains r.id) }
  | .insertEvent row, t => { t with authEvents := t.authEvents ++ [row] }

section Repositories
variable {u : Unicode}

def UserModel.toDomain (u : Unicode) (m : UserModel) : Except Exn (User u) :=
  match Email.new u m.email with
  | .ok email => .ok ⟨m.id, email, m.hashedPassword, m.isActive, m.createdAt⟩
  | .error e => .error e

def toUserModel (user : User u) : UserModel :=
  ⟨user.id, user.email.value, user.hashedPassword, user.isActive, user.createdAt⟩

def PasswordResetTokenModel.toDomain (m : PasswordResetTokenModel) : PasswordResetToken :=
  ⟨m.id, m.userId, m.token, m.expiresAt, m.used⟩

def toResetTokenModel (t : PasswordResetToken) : PasswordResetTokenModel :=
  ⟨t.id, t.userId, t.token, t.expiresAt, t.used⟩

/-- VARCHAR(255). -/
def columnWidth : ℕ := 255

/-- What the database checks of a user row: column widths and the unique e-mail. -/
def Tables.checkUser (t : Tables) (row : UserModel) : Except Exn Unit :=
  if columnWidth < row.email.length ∨ columnWidth < row.hashedPassword.length then .error .dataError
  else if t.users.any (fun r => r.id ≠ row.id ∧ r.email = row.email) then .error .integrityError
  else .ok ()

/-- What the database checks of a reset row: column width, unique token, foreign key. -/
def Tables.checkResetToken (t : Tables) (row : PasswordResetTokenModel) : Except Exn Unit :=
  if columnWidth < row.token.length then .error .dataError
  else if t.passwordResetTokens.any (fun r => r.id ≠ row.id ∧ r.token = row.token) then
    .error .integrityError
  else if lookup UserModel.id row.userId t.users = none then .error .integrityError
  else .ok ()

def Tables.findByEmail (u : Unicode) (email : String) (t : Tables) : Except Exn (Option (User u)) :=
  match lookup UserModel.email email t.users with
  | none => .ok none
  | some m => (m.toDomain u).map some

def Tables.findById (u : Unicode) (id : UUID) (t : Tables) : Except Exn (Option (User u)) :=
  match lookup UserModel.id id t.users with
  | none => .ok none
  | some m => (m.toDomain u).map some

def Tables.findByToken (token : String) (t : Tables) : Option PasswordResetToken :=
  (lookup PasswordResetTokenModel.token token t.passwordResetTokens).map
    PasswordResetTokenModel.toDomain

/-- `SqlUserRepository.save`. -/
def Tables.saveUser (user : User u) (t : Tables) : Except Exn Statement :=
  let row := toUserModel user
  (t.checkUser row).map fun _ =>
    match lookup UserModel.id row.id t.users with
    | none => .insertUser row
    | some existing => .updateUser existing row

/-- `SqlResetTokenRepository.save`. -/
def Tables.saveResetToken (token : PasswordResetToken) (t : Tables) : Except Exn Statement :=
  let row := toResetTokenModel token
  (t.checkResetToken row).map fun _ =>
    match lookup PasswordResetTokenModel.id row.id t.passwordResetTokens with
    | none => .insertResetToken row
    | some existing => .updateResetToken existing row

def Tables.deleteAllByUserId (userId : UUID) (t : Tables) : Statement :=
  .deleteResetTokens ((t.passwordResetTokens.filter (fun r => r.userId = userId)).map
    PasswordResetTokenModel.id)

end Repositories

/-- The constraints of the schema, and addresses that went through `Email`. -/
structure Tables.WellFormed (u : Unicode) (t : Tables) : Prop where
  userIds : Keyed UserModel.id t.users
  emails : Keyed UserModel.email t.users
  addresses : ∀ m ∈ t.users, emailRegex m.email = true ∧ normalize u m.email = m.email
  widths : ∀ m ∈ t.users, m.email.length ≤ columnWidth
  tokenIds : Keyed PasswordResetTokenModel.id t.passwordResetTokens
  tokens : Keyed PasswordResetTokenModel.token t.passwordResetTokens
  tokenWidths : ∀ r ∈ t.passwordResetTokens, r.token.length ≤ columnWidth
  owners : ∀ r ∈ t.passwordResetTokens, ∃ m ∈ t.users, m.id = r.userId

def Tables.SameAccounts (t t' : Tables) : Prop :=
  t.users = t'.users ∧ t.passwordResetTokens = t'.passwordResetTokens

theorem Tables.SameAccounts.refl (t : Tables) : t.SameAccounts t := ⟨rfl, rfl⟩

theorem Tables.SameAccounts.trans {t t' t'' : Tables} (h : t.SameAccounts t')
    (h' : t'.SameAccounts t'') : t.SameAccounts t'' :=
  ⟨h.1.trans h'.1, h.2.trans h'.2⟩

theorem Tables.SameAccounts.symm {t t' : Tables} (h : t.SameAccounts t') : t'.SameAccounts t :=
  ⟨h.1.symm, h.2.symm⟩

theorem Tables.SameAccounts.iff {t t' s : Tables} (h : t'.SameAccounts t) :
    t'.SameAccounts s ↔ s.SameAccounts t :=
  ⟨fun h' => h'.symm.trans h, fun h' => h.trans h'.symm⟩

@[simp] theorem changed_self {β : Type} [DecidableEq β] (old new : β) : changed old new old = new := by
  unfold changed
  split_ifs with h
  · exact h.symm
  · rfl

@[simp] theorem patch_id (old new row : UserModel) : (old.patch new row).id = row.id := rfl

@[simp] theorem patch_token_id (old new row : PasswordResetTokenModel) :
    (old.patch new row).id = row.id := rfl

@[simp] theorem patch_token_userId (old new row : PasswordResetTokenModel) :
    (old.patch new row).userId = row.userId := rfl

theorem patch_self {old new : UserModel} (h : new.id = old.id) : old.patch new old = new := by
  cases old; cases new
  simp only at h
  subst h
  simp [UserModel.patch]

theorem patch_token_self (old new : PasswordResetTokenModel) :
    old.patch new old = ⟨old.id, old.userId, new.token, new.expiresAt, new.used⟩ := by
  simp [PasswordResetTokenModel.patch]

theorem Tables.WellFormed.toDomain {u : Unicode} {t : Tables} (h : t.WellFormed u) {m : UserModel}
    (hm : m ∈ t.users) :
    ∃ e : Email u, e.value = m.email ∧
      m.toDomain u = .ok ⟨m.id, e, m.hashedPassword, m.isActive, m.createdAt⟩ := by
  obtain ⟨ha, hn⟩ := h.addresses m hm
  refine ⟨⟨m.email, ha, hn⟩, rfl, ?_⟩
  have he : Email.new u m.email = .ok ⟨m.email, ha, hn⟩ :=
    Email.new_value (⟨m.email, ha, hn⟩ : Email u)
  unfold UserModel.toDomain
  simp only [he]

theorem toDomain_ok {u : Unicode} {m : UserModel} {user : User u} (h : m.toDomain u = .ok user) :
    user.id = m.id ∧ user.hashedPassword = m.hashedPassword ∧ user.isActive = m.isActive ∧
      user.createdAt = m.createdAt ∧ user.email.value = normalize u m.email := by
  unfold UserModel.toDomain at h
  split at h
  · rename_i email he
    have hu := Except.ok.inj h
    subst hu
    exact ⟨rfl, rfl, rfl, rfl, Email.new_ok he⟩
  · simp at h

theorem toDomain_error {u : Unicode} {m : UserModel} {e : Exn} (h : m.toDomain u = .error e) :
    ∃ message, e = .invalidEmailError message := by
  unfold UserModel.toDomain at h
  split at h
  · cases h
  · rename_i e' he
    obtain ⟨message, rfl⟩ := Email.new_error he
    exact ⟨message, (Except.error.inj h).symm⟩

@[simp] theorem toUserModel_id {u : Unicode} (user : User u) : (toUserModel user).id = user.id := rfl

theorem checkUser_ok {t : Tables} {row : UserModel} (h : t.checkUser row = .ok ()) :
    row.email.length ≤ columnWidth ∧ ∀ r ∈ t.users, r.id ≠ row.id → r.email ≠ row.email := by
  unfold Tables.checkUser at h
  split_ifs at h with h1 h2
  refine ⟨by omega, ?_⟩
  simpa using h2

theorem checkResetToken_ok {t : Tables} {row : PasswordResetTokenModel}
    (h : t.checkResetToken row = .ok ()) :
    row.token.length ≤ columnWidth ∧
      (∀ r ∈ t.passwordResetTokens, r.id ≠ row.id → r.token ≠ row.token) ∧
      ∃ m ∈ t.users, m.id = row.userId := by
  unfold Tables.checkResetToken at h
  split_ifs at h with h1 h2 h3
  refine ⟨by omega, by simpa using h2, ?_⟩
  obtain ⟨m, hm⟩ := Option.ne_none_iff_exists'.1 h3
  exact ⟨m, lookup_some hm⟩

theorem saveUser_ok {u : Unicode} {t : Tables} {user : User u} {s : Statement}
    (h : t.saveUser user = .ok s) :
    t.checkUser (toUserModel user) = .ok () ∧
      ((lookup UserModel.id user.id t.users = none ∧ s = .insertUser (toUserModel user)) ∨
        ∃ old, lookup UserModel.id user.id t.users = some old ∧
          s = .updateUser old (toUserModel user)) := by
  unfold Tables.saveUser at h
  cases hc : t.checkUser (toUserModel user) with
  | error e => simp [hc, Except.map] at h
  | ok x =>
    simp only [hc, Except.map, Except.ok.injEq, toUserModel_id] at h
    refine ⟨rfl, ?_⟩
    cases hl : lookup UserModel.id user.id t.users with
    | none => exact .inl ⟨rfl, by rw [← h, hl]⟩
    | some old => exact .inr ⟨old, rfl, by rw [← h, hl]⟩

theorem saveResetToken_ok {t : Tables} {token : PasswordResetToken} {s : Statement}
    (h : t.saveResetToken token = .ok s) :
    t.checkResetToken (toResetTokenModel token) = .ok () ∧
      ((lookup PasswordResetTokenModel.id token.id t.passwordResetTokens = none ∧
          s = .insertResetToken (toResetTokenModel token)) ∨
        ∃ old, lookup PasswordResetTokenModel.id token.id t.passwordResetTokens = some old ∧
          s = .updateResetToken old (toResetTokenModel token)) := by
  unfold Tables.saveResetToken at h
  cases hc : t.checkResetToken (toResetTokenModel token) with
  | error e => simp [hc, Except.map] at h
  | ok x =>
    simp only [hc, Except.map, Except.ok.injEq] at h
    refine ⟨rfl, ?_⟩
    change (match lookup PasswordResetTokenModel.id token.id t.passwordResetTokens with
      | none => _ | some old => _) = s at h
    cases hl : lookup PasswordResetTokenModel.id token.id t.passwordResetTokens with
    | none => exact .inl ⟨rfl, by rw [← h, hl]⟩
    | some old => exact .inr ⟨old, rfl, by rw [← h, hl]⟩

/-! Every statement the repositories compute keeps the tables well formed. -/

section Keep
variable {u : Unicode} {t : Tables}

theorem owners_amend {old new : UserModel} {id : UUID} (h : ∃ m ∈ t.users, m.id = id) :
    ∃ m ∈ amend UserModel.id old.id (old.patch new) t.users, m.id = id := by
  obtain ⟨m, hm, hid⟩ := h
  refine ⟨if m.id = old.id then old.patch new m else m, mem_amend.2 ⟨m, hm, rfl⟩, ?_⟩
  split_ifs
  · rw [patch_id, hid]
  · exact hid

theorem Tables.WellFormed.saveUser (h : t.WellFormed u) {user : User u} {s : Statement}
    (hs : t.saveUser user = .ok s) : (s.apply t).WellFormed u := by
  obtain ⟨hc, hrow⟩ := saveUser_ok hs
  obtain ⟨hw, hfresh⟩ := checkUser_ok hc
  have hgood : emailRegex user.email.value = true ∧
      normalize u user.email.value = user.email.value :=
    ⟨user.email.accepted, user.email.normalized⟩
  rcases hrow with ⟨hl, rfl⟩ | ⟨old, hl, rfl⟩
  · have hnew := lookup_none.1 hl
    have hmem : ∀ m ∈ t.users ++ [toUserModel user], m ∈ t.users ∨ m = toUserModel user := by
      simp
    refine ⟨h.userIds.append hnew, h.emails.append (fun r hr => hfresh r hr (hnew r hr)), ?_, ?_,
      h.tokenIds, h.tokens, h.tokenWidths, ?_⟩
    · intro m hm
      rcases hmem m hm with hm | rfl
      · exact h.addresses m hm
      · exact hgood
    · intro m hm
      rcases hmem m hm with hm | rfl
      · exact h.widths m hm
      · exact hw
    · intro r hr
      obtain ⟨m, hm, hid⟩ := h.owners r hr
      exact ⟨m, List.mem_append_left _ hm, hid⟩
  · obtain ⟨hold, hid⟩ := lookup_some hl
    -- the one row with this id is the row that was read
    have hrow : ∀ m ∈ t.users, m.id = old.id → old.patch (toUserModel user) m = toUserModel user := by
      intro m hm hk
      rw [h.userIds.unique hm hold hk]
      exact patch_self hid.symm
    have hmem : ∀ m ∈ amend UserModel.id old.id (old.patch (toUserModel user)) t.users,
        m ∈ t.users ∨ m = toUserModel user := by
      intro m hm
      obtain ⟨r, hr, rfl⟩ := mem_amend.1 hm
      split_ifs with hk
      · exact .inr (hrow r hr hk)
      · exact .inl hr
    refine ⟨h.userIds.amend (fun _ _ _ => rfl), h.userIds.amend_fresh h.emails ?_, ?_, ?_,
      h.tokenIds, h.tokens, h.tokenWidths, ?_⟩
    · intro r hr hne m hm hk
      rw [hrow m hm hk]
      exact (hfresh r hr (by rw [toUserModel_id, ← hid]; exact hne)).symm
    · intro m hm
      rcases hmem m hm with hm | rfl
      · exact h.addresses m hm
      · exact hgood
    · intro m hm
      rcases hmem m hm with hm | rfl
      · exact h.widths m hm
      · exact hw
    · intro r hr
      exact owners_amend (h.owners r hr)

theorem Tables.WellFormed.saveResetToken (h : t.WellFormed u) {token : PasswordResetToken}
    {s : Statement} (hs : t.saveResetToken token = .ok s) : (s.apply t).WellFormed u := by
  obtain ⟨hc, hrow⟩ := saveResetToken_ok hs
  obtain ⟨hw, hfresh, howner⟩ := checkResetToken_ok hc
  rcases hrow with ⟨hl, rfl⟩ | ⟨old, hl, rfl⟩
  · have hnew := lookup_none.1 hl
    have hmem : ∀ r ∈ t.passwordResetTokens ++ [toResetTokenModel token],
        r ∈ t.passwordResetTokens ∨ r = toResetTokenModel token := by
      simp
    refine ⟨h.userIds, h.emails, h.addresses, h.widths, h.tokenIds.append hnew,
      h.tokens.append (fun r hr => hfresh r hr (hnew r hr)), ?_, ?_⟩
    · intro r hr
      rcases hmem r hr with hr | rfl
      · exact h.tokenWidths r hr
      · exact hw
    · intro r hr
      rcases hmem r hr with hr | rfl
      · exact h.owners r hr
      · exact howner
  · obtain ⟨hold, hid⟩ := lookup_some hl
    have hrow : ∀ r ∈ t.passwordResetTokens, r.id = old.id →
        old.patch (toResetTokenModel token) r =
          ⟨old.id, old.userId, token.token, token.expiresAt, token.used⟩ := by
      intro r hr hk
      rw [h.tokenIds.unique hr hold hk]
      exact patch_token_self old _
    refine ⟨h.userIds, h.emails, h.addresses, h.widths, h.tokenIds.amend (fun _ _ _ => rfl),
      h.tokenIds.amend_fresh h.tokens ?_, ?_, ?_⟩
    · intro r hr hne m hm hk
      rw [hrow m hm hk]
      exact (hfresh r hr (by change r.id ≠ token.id; rw [← hid]; exact hne)).symm
    · intro r hr
      obtain ⟨m, hm, rfl⟩ := mem_amend.1 hr
      split_ifs with hk
      · rw [hrow m hm hk]
        exact hw
      · exact h.tokenWidths m hm
    · intro r hr
      obtain ⟨m, hm, rfl⟩ := mem_amend.1 hr
      split_ifs with hk
      · rw [patch_token_userId]
        exact h.owners m hm
      · exact h.owners m hm

theorem Tables.WellFormed.deleteAll (h : t.WellFormed u) (uid : UUID) :
    ((t.deleteAllByUserId uid).apply t).WellFormed u :=
  ⟨h.userIds, h.emails, h.addresses, h.widths, h.tokenIds.filter _, h.tokens.filter _,
    fun r hr => h.tokenWidths r (List.mem_of_mem_filter hr),
    fun r hr => h.owners r (List.mem_of_mem_filter hr)⟩

theorem deleteAll_tokens (h : t.WellFormed u) (uid : UUID) :
    ((t.deleteAllByUserId uid).apply t).passwordResetTokens =
      t.passwordResetTokens.filter (fun r => r.userId ≠ uid) := by
  refine List.filter_congr ?_
  intro r hr
  by_cases hu : r.userId = uid
  · have hm : r.id ∈ (t.passwordResetTokens.filter (fun r => r.userId = uid)).map
        PasswordResetTokenModel.id :=
      List.mem_map_of_mem (List.mem_filter.2 ⟨hr, by simpa using hu⟩)
    simp [hu, hm]
  · have hm : r.id ∉ (t.passwordResetTokens.filter (fun r => r.userId = uid)).map
        PasswordResetTokenModel.id := by
      intro hm
      obtain ⟨m, hm, hid⟩ := List.mem_map.1 hm
      obtain ⟨hm, hmu⟩ := List.mem_filter.1 hm
      rw [h.tokenIds.unique hm hr hid] at hmu
      simp [hu] at hmu
    simpa [hu] using hm

theorem Tables.WellFormed.insertEvent (h : t.WellFormed u) (row : AuthEventModel) :
    ((Statement.insertEvent row).apply t).WellFormed u :=
  ⟨h.userIds, h.emails, h.addresses, h.widths, h.tokenIds, h.tokens, h.tokenWidths, h.owners⟩

end Keep

end AuthService.AccountTables
