import AuthService.HandlerRuns
import AuthService.SessionDiscipline

set_option autoImplicit false

/-! What the resets leave in the account tables: the rows they write, without the
detour through statements. -/
namespace AuthService.AccountEffects
open Uuids PythonText DomainModel KeyedRows AccountTables Transactions FallibleState Fallible
open RedisSessions RequestPorts CommandHandlers GraphqlResolvers HandlerRuns SessionDiscipline

def withPassword (newHash : String) (m : UserModel) : UserModel := { m with hashedPassword := newHash }

def consumed (r : PasswordResetTokenModel) : PasswordResetTokenModel := { r with used := true }

section Rows
variable {u : Unicode} {t : Tables}

theorem WellFormed.findById (h : t.WellFormed u) {m : UserModel} (hm : m ∈ t.users) :
    ∃ user, t.findById u m.id = .ok (some user) ∧ m.toDomain u = .ok user := by
  obtain ⟨e, -, hd⟩ := h.toDomain hm
  refine ⟨_, ?_, hd⟩
  rw [Tables.findById, h.userIds.lookup hm]
  simp only [hd, Except.map]

theorem WellFormed.findByEmail (h : t.WellFormed u) {m : UserModel} (hm : m ∈ t.users) :
    ∃ user, t.findByEmail u m.email = .ok (some user) ∧ m.toDomain u = .ok user := by
  obtain ⟨e, -, hd⟩ := h.toDomain hm
  refine ⟨_, ?_, hd⟩
  rw [Tables.findByEmail, h.emails.lookup hm]
  simp only [hd, Except.map]

theorem saveUser_insert {user : User u} (hwidth : user.email.value.length ≤ columnWidth)
    (hhash : user.hashedPassword.length ≤ columnWidth) (hid : ∀ m ∈ t.users, m.id ≠ user.id)
    (hemail : ∀ m ∈ t.users, m.email ≠ user.email.value) :
    t.saveUser user = .ok (.insertUser (toUserModel user)) := by
  have hwide : ¬ (columnWidth < (toUserModel user).email.length ∨
      columnWidth < (toUserModel user).hashedPassword.length) := by
    simp only [toUserModel]
    omega
  have hany : ¬ t.users.any (fun r => r.id ≠ (toUserModel user).id ∧
      r.email = (toUserModel user).email) = true := by
    simp only [List.any_eq_true, decide_eq_true_eq, not_exists, not_and]
    exact fun m hm _ => hemail m hm
  have hcheck : t.checkUser (toUserModel user) = .ok () := by
    rw [Tables.checkUser, if_neg hwide, if_neg hany]
  unfold Tables.saveUser
  simp only [hcheck, toUserModel_id, lookup_none.2 hid, Except.map]

theorem WellFormed.toUserModel (h : t.WellFormed u) {m : UserModel} (hm : m ∈ t.users) {user : User u}
    (hd : m.toDomain u = .ok user) : AccountTables.toUserModel user = m := by
  obtain ⟨e, he, hd'⟩ := h.toDomain hm
  rw [hd] at hd'
  rw [Except.ok.inj hd', AccountTables.toUserModel, he]

theorem WellFormed.checkUser (h : t.WellFormed u) {m m' : UserModel} (hm : m ∈ t.users)
    (hid : m'.id = m.id) (hemail : m'.email = m.email)
    (hhash : m'.hashedPassword.length ≤ columnWidth) : t.checkUser m' = .ok () := by
  have hw := h.widths m hm
  have hany : ¬ t.users.any (fun r => r.id ≠ m'.id ∧ r.email = m'.email) = true := by
    simp only [List.any_eq_true, decide_eq_true_eq, not_exists, not_and]
    intro r hr hne he
    exact hne (by rw [hid, h.emails.unique hr hm (he.trans hemail)])
  have hwide : ¬ (columnWidth < m'.email.length ∨ columnWidth < m'.hashedPassword.length) := by
    rw [hemail]
    omega
  unfold Tables.checkUser
  rw [if_neg hwide, if_neg hany]

theorem saveUser_update {user : User u} {row old : UserModel}
    (hrow : AccountTables.toUserModel user = row) (hc : t.checkUser row = .ok ())
    (hl : lookup UserModel.id row.id t.users = some old) :
    t.saveUser user = .ok (.updateUser old row) := by
  subst hrow
  unfold Tables.saveUser
  simp only [hc, hl, Except.map]

theorem saveResetToken_update {token : PasswordResetToken} {row old : PasswordResetTokenModel}
    (hrow : toResetTokenModel token = row) (hc : t.checkResetToken row = .ok ())
    (hl : lookup PasswordResetTokenModel.id row.id t.passwordResetTokens = some old) :
    t.saveResetToken token = .ok (.updateResetToken old row) := by
  subst hrow
  unfold Tables.saveResetToken
  simp only [hc, hl, Except.map]

theorem saveResetToken_insert {token : PasswordResetToken} {row : PasswordResetTokenModel}
    (hrow : toResetTokenModel token = row) (hc : t.checkResetToken row = .ok ())
    (hl : lookup PasswordResetTokenModel.id row.id t.passwordResetTokens = none) :
    t.saveResetToken token = .ok (.insertResetToken row) := by
  subst hrow
  unfold Tables.saveResetToken
  simp only [hc, hl, Except.map]

theorem WellFormed.checkResetToken {row : PasswordResetTokenModel}
    (hwidth : row.token.length ≤ columnWidth)
    (hunique : ∀ r ∈ t.passwordResetTokens, r.id ≠ row.id → r.token ≠ row.token)
    (howner : ∃ m ∈ t.users, m.id = row.userId) : t.checkResetToken row = .ok () := by
  have hany : ¬ t.passwordResetTokens.any (fun r => r.id ≠ row.id ∧ r.token = row.token) = true := by
    simp only [List.any_eq_true, decide_eq_true_eq, not_exists, not_and]
    exact hunique
  have hl : lookup UserModel.id row.userId t.users ≠ none := by
    obtain ⟨m, hm, hid⟩ := howner
    exact fun h => lookup_none.1 h m hm hid
  unfold Tables.checkResetToken
  rw [if_neg (by omega), if_neg hany, if_neg hl]

theorem WellFormed.saveUser_changePassword (h : t.WellFormed u) {m : UserModel} (hm : m ∈ t.users)
    {user : User u} (hd : m.toDomain u = .ok user) {newHash : String}
    (hhash : newHash.length ≤ columnWidth) :
    t.saveUser (user.changePassword newHash) = .ok (.updateUser m (withPassword newHash m)) := by
  have hrow : AccountTables.toUserModel (user.changePassword newHash) = withPassword newHash m := by
    rw [← WellFormed.toUserModel h hm hd]
    rfl
  have hcheck : t.checkUser (withPassword newHash m) = .ok () :=
    WellFormed.checkUser h hm rfl rfl hhash
  exact saveUser_update hrow hcheck (h.userIds.lookup hm)

theorem WellFormed.saveResetToken_consumed (h : t.WellFormed u) {r : PasswordResetTokenModel}
    (hr : r ∈ t.passwordResetTokens) :
    t.saveResetToken (consumed r).toDomain = .ok (.updateResetToken r (consumed r)) := by
  have hcheck : t.checkResetToken (consumed r) = .ok () := by
    refine WellFormed.checkResetToken (h.tokenWidths r hr) ?_ (h.owners r hr)
    intro s hs hne he
    exact hne (by rw [h.tokens.unique hs hr he]; rfl)
  exact saveResetToken_update rfl hcheck (h.tokenIds.lookup hr)

theorem update_users (h : t.WellFormed u) {m : UserModel} (hm : m ∈ t.users) (newHash : String) :
    ((Statement.updateUser m (withPassword newHash m)).apply t).users =
      amend UserModel.id m.id (withPassword newHash) t.users := by
  refine List.map_congr_left ?_
  intro r hr
  by_cases hid : r.id = m.id
  · rw [if_pos hid, if_pos hid, h.userIds.unique hr hm hid,
      patch_self (show (withPassword newHash m).id = m.id from rfl)]
  · rw [if_neg hid, if_neg hid]

theorem consumed_ne (h : t.WellFormed u) {r : PasswordResetTokenModel}
    (hr : r ∈ t.passwordResetTokens) (hfree : r.used = false) :
    amend PasswordResetTokenModel.id r.id consumed t.passwordResetTokens ≠ t.passwordResetTokens := by
  intro hsame
  have hmem : consumed r ∈ t.passwordResetTokens := by
    rw [← hsame]
    exact mem_amend.2 ⟨r, hr, if_pos rfl⟩
  rw [← h.tokenIds.unique hmem hr rfl] at hfree
  simp [consumed] at hfree

theorem update_resetTokens (h : t.WellFormed u) {r : PasswordResetTokenModel}
    (hr : r ∈ t.passwordResetTokens) :
    ((Statement.updateResetToken r (consumed r)).apply t).passwordResetTokens =
      amend PasswordResetTokenModel.id r.id consumed t.passwordResetTokens := by
  refine List.map_congr_left ?_
  intro s hs
  by_cases hid : s.id = r.id
  · rw [if_pos hid, if_pos hid, h.tokenIds.unique hs hr hid, patch_token_self]
    rfl
  · rw [if_neg hid, if_neg hid]

theorem saveResetToken_new {token : PasswordResetToken} (howner : ∃ m ∈ t.users, m.id = token.userId)
    (hwidth : token.token.length ≤ columnWidth)
    (hid : ∀ r ∈ t.passwordResetTokens, r.id ≠ token.id)
    (htok : ∀ r ∈ t.passwordResetTokens, r.token ≠ token.token) :
    t.saveResetToken token = .ok (.insertResetToken (toResetTokenModel token)) := by
  refine saveResetToken_insert rfl ?_ (lookup_none.2 hid)
  exact WellFormed.checkResetToken hwidth (fun r hr _ => htok r hr) howner

theorem saveResetToken_fresh {token : PasswordResetToken} {stmt : Statement}
    (hid : ∀ r ∈ t.passwordResetTokens, r.id ≠ token.id) (h : t.saveResetToken token = .ok stmt) :
    stmt = .insertResetToken (toResetTokenModel token) := by
  obtain ⟨-, ⟨-, rfl⟩ | ⟨old, hold, -⟩⟩ := saveResetToken_ok h
  · rfl
  · obtain ⟨hmem, hold⟩ := lookup_some hold
    exact absurd hold (hid old hmem)

end Rows

section Reset
variable {g : GlobalContainer} {w : World}

inductive ResetEffect (g : GlobalContainer) (cmd : ResetPasswordCommand) (d : ResetDraws) (w : World) :
    Except Exn Unit × World → Prop where
  | weak {e : Exn} (password : PlainPassword.new g.unicode cmd.newPassword = .error e) :
      ResetEffect g cmd d w (.error e, w)
  | missing (absent : lookup PasswordResetTokenModel.token (g.sha256 cmd.token)
        w.db.committed.passwordResetTokens = none) :
      ResetEffect g cmd d w (.error (.tokenNotFoundError "Reset token not found"), w)
  | refused {row : PasswordResetTokenModel} {e : Exn}
      (found : lookup PasswordResetTokenModel.token (g.sha256 cmd.token)
        w.db.committed.passwordResetTokens = some row)
      (unusable : row.toDomain.consume w.redis.now = .error e) :
      ResetEffect g cmd d w (.error e, w)
  | done {row : PasswordResetTokenModel} {w' : World} {p : PlainPassword g.unicode}
      (password : PlainPassword.new g.unicode cmd.newPassword = .ok p)
      (found : lookup PasswordResetTokenModel.token (g.sha256 cmd.token)
        w.db.committed.passwordResetTokens = some row)
      (usable : row.toDomain.consume w.redis.now = .ok (consumed row).toDomain)
      (alive : w'.db.aborted = false)
      (users : w'.tables.users = amend UserModel.id row.userId
        (withPassword (g.hashpw cmd.newPassword d.salt)) w.db.committed.users)
      (tokens : w'.tables.passwordResetTokens = amend PasswordResetTokenModel.id row.id consumed
        w.db.committed.passwordResetTokens) :
      ResetEffect g cmd d w (.ok (), w')

theorem findByToken_some {t : Tables} {sha : String} {stored : PasswordResetToken}
    (h : t.findByToken sha = some stored) :
    ∃ row, lookup PasswordResetTokenModel.token sha t.passwordResetTokens = some row ∧
      row.toDomain = stored :=
  Option.map_eq_some_iff.1 h

theorem consume_consumed {row : PasswordResetTokenModel} {now : ℕ} {token : PasswordResetToken}
    (h : row.toDomain.consume now = .ok token) : token = (consumed row).toDomain := by
  obtain ⟨-, -, rfl⟩ := PasswordResetToken.consume_ok.1 h
  rfl

/-- The token that a reset consumes and the user it finds, with the rows they are stored in. -/
theorem WellFormed.reset_rows {t : Tables} {u : Unicode} (ht : t.WellFormed u) {sha : String} {now : ℕ}
    {stored token : PasswordResetToken} {user : User u} (found : t.findByToken sha = some stored)
    (hc : stored.consume now = .ok token) (owner : t.findById u token.userId = .ok (some user)) :
    ∃ row m, lookup PasswordResetTokenModel.token sha t.passwordResetTokens = some row ∧
      stored = row.toDomain ∧ token = (consumed row).toDomain ∧ m ∈ t.users ∧ m.id = row.userId ∧
        m.toDomain u = .ok user := by
  obtain ⟨row, hrow, rfl⟩ := findByToken_some found
  obtain ⟨m, hm, hid⟩ := ht.owners row (lookup_some hrow).1
  obtain ⟨user', hf, hd⟩ := WellFormed.findById ht hm
  obtain rfl := consume_consumed hc
  have huser : user' = user := by
    rw [hid] at hf
    exact Option.some.inj (Except.ok.inj (hf.symm.trans owner))
  rw [huser] at hd
  exact ⟨row, m, hrow, rfl, rfl, hm, hid, hd⟩

theorem resetPassword_effect (hdb : w.db.Fresh) (ht : w.db.committed.WellFormed g.unicode)
    (cmd : ResetPasswordCommand) (d : ResetDraws) :
    ResetEffect g cmd d w (resetPassword g noFaults cmd d w) := by
  have hout := resetPassword_outcome (g := g) (w := w) quiet_noFaults hdb.2 cmd d
  have hview : w.tables = w.db.committed := Session.view_fresh _ hdb
  have hhash : (g.hashpw cmd.newPassword d.salt).length ≤ columnWidth := by
    rw [g.hashpw_length]
    decide
  generalize resetPassword g noFaults cmd d w = out at hout ⊢
  cases hout with
  | weak password => exact .weak password
  | missing _ absent =>
    rw [hview, Tables.findByToken, Option.map_eq_none_iff] at absent
    exact .missing absent
  | unusable _ found consumed =>
    rw [hview] at found
    obtain ⟨row, hrow, rfl⟩ := findByToken_some found
    exact .refused hrow consumed
  | orphan _ found hc unknown =>
    rw [hview] at found unknown
    obtain ⟨row, hrow, rfl⟩ := findByToken_some found
    obtain ⟨m, hm, hid⟩ := ht.owners row (lookup_some hrow).1
    obtain ⟨user, hf, -⟩ := WellFormed.findById ht hm
    rw [hid] at hf
    rw [consume_consumed hc] at unknown
    exact absurd hf (unknown user)
  | rejected _ found hc owner clash _ _ =>
    rw [hview] at found owner clash
    obtain ⟨row, m, hrow, rfl, rfl, hm, hid, hd⟩ := WellFormed.reset_rows ht found hc owner
    have h1 := WellFormed.saveUser_changePassword ht hm hd hhash
    have h2 := WellFormed.saveResetToken_consumed (ht.saveUser h1) (r := row) (lookup_some hrow).1
    exact absurd h2 (clash _ _ h1)
  | @completed _ _ _ user _ _ password found hc owner savedUser savedToken =>
    rw [hview] at found owner savedUser savedToken
    obtain ⟨row, m, hrow, rfl, rfl, hm, hid, hd⟩ := WellFormed.reset_rows ht found hc owner
    have h1 := WellFormed.saveUser_changePassword ht hm hd hhash
    have h2 := WellFormed.saveResetToken_consumed (ht.saveUser h1) (r := row) (lookup_some hrow).1
    rw [h1, Except.ok.injEq] at savedUser
    subst savedUser
    rw [h2, Except.ok.injEq] at savedToken
    subst savedToken
    have husers := update_users ht hm (g.hashpw cmd.newPassword d.salt)
    have htokens := update_resetTokens (ht.saveUser h1) (r := row) (lookup_some hrow).1
    rw [hid] at husers
    have halive : (commanded (revokeAll user.id w.redis) (revokeAllCost user.id w.redis)
        { w with
          db := Session.flush [Statement.updateResetToken row (consumed row)]
            (w.db.flush [Statement.updateUser m
              (withPassword (g.hashpw cmd.newPassword d.salt) m)]) }).db.aborted = false := hdb.2
    rw [audited_of_success rfl halive]
    refine .done password hrow hc halive ?_ ?_
    · simp only [World.tables, commanded, Session.view_flush, Session.view_fresh _ hdb,
        Session.replay_cons, Session.replay_nil]
      exact husers
    · simp only [World.tables, commanded, Session.view_flush, Session.view_fresh _ hdb,
        Session.replay_cons, Session.replay_nil]
      exact htokens

end Reset

section RequestReset
variable {g : GlobalContainer} {w : World}

theorem saveResetToken_requested {t : Tables} {d : RequestResetDraws} {uid : UUID} {now : ℕ}
    (howner : ∃ m ∈ t.users, m.id = uid) (hid : ∀ r ∈ t.passwordResetTokens, r.id ≠ d.tokenId)
    (htok : ∀ r ∈ t.passwordResetTokens, r.token ≠ g.sha256 d.rawToken.text) :
    t.saveResetToken (requestedToken g d uid now) =
      .ok (.insertResetToken (toResetTokenModel (requestedToken g d uid now))) := by
  refine saveResetToken_new howner ?_ hid htok
  simp [requestedToken, g.sha256_length, columnWidth]

/-- The request names a user, and no other user's row has the hash of the new token. -/
def RequestWrites (g : GlobalContainer) (cmd : RequestPasswordResetCommand) (d : RequestResetDraws)
    (w : World) : Prop :=
  ∃ address user, Email.new g.unicode cmd.email = .ok address ∧
    w.db.committed.findByEmail g.unicode address.value = .ok (some user) ∧
    ∀ row ∈ w.db.committed.passwordResetTokens, row.userId ≠ user.id →
      row.token ≠ g.sha256 d.rawToken.text

inductive RequestEffect (g : GlobalContainer) (cmd : RequestPasswordResetCommand)
    (d : RequestResetDraws) (w : World) : Except Exn Unit × World → Prop where
  | refused {e : Exn} {w' : World} (useless : ¬ RequestWrites g cmd d w)
      (same : (w'.db.commit Statement.apply).committed = w.db.committed) :
      RequestEffect g cmd d w (.error e, w')
  | issued {email : Email g.unicode} {m : UserModel} {w' : World}
      (address : Email.new g.unicode cmd.email = .ok email) (stored : m ∈ w.db.committed.users)
      (useful : RequestWrites g cmd d w) (named : m.email = email.value) (alive : w'.db.aborted = false)
      (users : w'.tables.users = w.db.committed.users)
      (tokens : w'.tables.passwordResetTokens =
        w.db.committed.passwordResetTokens.filter (fun r => r.userId ≠ m.id) ++
          [toResetTokenModel (requestedToken g d m.id w.redis.now)]) :
      RequestEffect g cmd d w (.ok (), w')

theorem requestPasswordReset_effect (hdb : w.db.Fresh) (ht : w.db.committed.WellFormed g.unicode)
    (cmd : RequestPasswordResetCommand) (d : RequestResetDraws)
    (hid : ∀ r ∈ w.db.committed.passwordResetTokens, r.id ≠ d.tokenId) :
    RequestEffect g cmd d w (requestPasswordReset g noFaults cmd d w) := by
  have hout := requestPasswordReset_outcome (g := g) (w := w) quiet_noFaults hdb.2 cmd d
  have hview : w.tables = w.db.committed := Session.view_fresh _ hdb
  generalize requestPasswordReset g noFaults cmd d w = out at hout ⊢
  cases hout with
  | refused unknown =>
    refine .refused ?_ (by rw [Session.commit_of_fresh _ hdb])
    rintro ⟨address, user, haddr, hfound, -⟩
    rw [hview] at unknown
    exact unknown address user haddr hfound
  | @rejected e email user address found clash =>
    rw [hview] at found clash
    refine .refused ?_ rfl
    rintro ⟨address', user', haddr, hfound, hnew⟩
    rw [address, Except.ok.injEq] at haddr
    subst haddr
    rw [found, Except.ok.injEq, Option.some.injEq] at hfound
    subst hfound
    obtain ⟨m, hl, hd⟩ := findByEmail_stored found
    have htokens := deleteAll_tokens ht user.id
    have hok : Tables.saveResetToken (requestedToken g d user.id w.redis.now)
        ((w.db.committed.deleteAllByUserId user.id).apply w.db.committed) = _ :=
      saveResetToken_requested ⟨m, (lookup_some hl).1, (toDomain_ok hd).1.symm⟩ ?_ ?_
    · rw [hok] at clash
      simp at clash
    · intro row hrow
      rw [htokens] at hrow
      exact hid row (List.mem_of_mem_filter hrow)
    · intro row hrow
      rw [htokens] at hrow
      obtain ⟨hrow, hne⟩ := List.mem_filter.1 hrow
      exact hnew row hrow (of_decide_eq_true hne)
  | @issued email user stmt address found saved =>
    rw [hview] at found saved ⊢
    obtain ⟨m, hl, hd⟩ := findByEmail_stored found
    obtain ⟨hm, hname⟩ := lookup_some hl
    obtain ⟨hmid, -⟩ := toDomain_ok hd
    rw [hmid] at saved ⊢
    have htokens := deleteAll_tokens ht m.id
    have hclash := (checkResetToken_ok (saveResetToken_ok saved).1).2.1
    have hfresh : ∀ r ∈ ((w.db.committed.deleteAllByUserId m.id).apply
      w.db.committed).passwordResetTokens,
        r.id ≠ (requestedToken g d m.id w.redis.now).id := by
      rw [htokens]
      exact fun r hr => hid r (List.mem_of_mem_filter hr)
    obtain rfl := saveResetToken_fresh hfresh saved
    have huseful : RequestWrites g cmd d w := by
      refine ⟨email, user, address, found, fun row hrow hne => ?_⟩
      refine hclash row ?_ (hid row hrow)
      rw [htokens]
      exact List.mem_filter.2 ⟨hrow, decide_eq_true (by rw [← hmid]; exact hne)⟩
    have halive : (World.db { w with
        db := Session.flush [Statement.insertResetToken
          (toResetTokenModel (requestedToken g d m.id w.redis.now))]
            (w.db.flush [w.db.committed.deleteAllByUserId m.id])
        sentEmails := w.sentEmails ++ [(email.value, d.rawToken.text)] }).aborted = false := hdb.2
    rw [audited_of_success rfl halive]
    refine .issued address hm huseful hname halive ?_ ?_
    · simp only [World.tables, Session.view_flush, Session.view_fresh _ hdb,
        Session.replay_cons, Session.replay_nil]
      rfl
    · simp only [World.tables, Session.view_flush, Session.view_fresh _ hdb,
        Session.replay_cons, Session.replay_nil]
      rw [← htokens]
      rfl

end RequestReset

section Register
variable {g : GlobalContainer} {w : World}

def registeredRow (g : GlobalContainer) (cmd : RegisterUserCommand) (d : RegisterDraws)
    (address : Email g.unicode) (now : ℕ) : UserModel :=
  ⟨d.userId, address.value, g.hashpw cmd.password d.salt, true, now⟩

/-- What a registration does: nothing, or a row under the drawn id. -/
inductive RegisterEffect (g : GlobalContainer) (cmd : RegisterUserCommand) (d : RegisterDraws)
    (w : World) : Except Exn Unit × World → Prop where
  | refused {e : Exn} {w' : World}
      (same : (w'.db.commit Statement.apply).committed = w.db.committed) :
      RegisterEffect g cmd d w (.error e, w')
  | done {address : Email g.unicode} {p : PlainPassword g.unicode} {w' : World}
      (named : Email.new g.unicode cmd.email = .ok address)
      (password : PlainPassword.new g.unicode cmd.password = .ok p) (alive : w'.db.aborted = false)
      (users : (∀ m ∈ w.db.committed.users, m.id ≠ d.userId) ∧ w'.tables.users =
          w.db.committed.users ++ [registeredRow g cmd d address w.redis.now] ∨
        w'.tables.users = amend UserModel.id d.userId
          (fun _ => registeredRow g cmd d address w.redis.now) w.db.committed.users) :
      RegisterEffect g cmd d w (.ok (), w')

theorem saveUser_users {u : Unicode} {t : Tables} (ht : t.WellFormed u) {user : User u}
    {stmt : Statement} (h : t.saveUser user = .ok stmt) :
    (∀ m ∈ t.users, m.id ≠ user.id) ∧ (stmt.apply t).users = t.users ++ [toUserModel user] ∨
      (stmt.apply t).users = amend UserModel.id user.id (fun _ => toUserModel user) t.users := by
  obtain ⟨-, ⟨hnew, rfl⟩ | ⟨old, hold, rfl⟩⟩ := saveUser_ok h
  · exact .inl ⟨lookup_none.1 hnew, rfl⟩
  · obtain ⟨hmem, hid⟩ := lookup_some hold
    refine .inr (List.map_congr_left fun r hr => ?_)
    by_cases hr' : r.id = user.id
    · obtain rfl := ht.userIds.unique hr hmem (hr'.trans hid.symm)
      rw [if_pos rfl, if_pos hr', patch_self (show (toUserModel user).id = r.id from hr'.symm)]
    · rw [if_neg (by rwa [hid]), if_neg hr']

theorem registerUser_effect (hdb : w.db.Fresh) (ht : w.db.committed.WellFormed g.unicode)
    (cmd : RegisterUserCommand) (d : RegisterDraws) :
    RegisterEffect g cmd d w (registerUser g noFaults cmd d w) := by
  have hview : w.tables = w.db.committed := Session.view_fresh _ hdb
  have hsame : (w.db.commit Statement.apply).committed = w.db.committed := by
    rw [Session.commit_of_fresh _ hdb]
  unfold registerUser
  cases he : Email.new g.unicode cmd.email with
  | error e => exact .refused hsame
  | ok email =>
    rw [bind_ok (ofExcept_run _ _)]
    cases hp : PlainPassword.new g.unicode cmd.password with
    | error e => exact .refused hsame
    | ok p =>
      rw [bind_ok (ofExcept_run _ _)]
      have hf : findByEmail g noFaults email w = (w.tables.findByEmail g.unicode email.value, w) :=
        query_run rfl hdb.2
      cases hfound : w.tables.findByEmail g.unicode email.value with
      | error e =>
        rw [bind_error (hf.trans (by rw [hfound]))]
        exact .refused hsame
      | ok found =>
        rw [bind_ok (hf.trans (by rw [hfound]))]
        cases found with
        | some user => exact .refused hsame
        | none =>
          simp only
          rw [bind_ok now_run]
          cases hs : w.tables.saveUser (⟨d.userId, email, g.hashpw cmd.password d.salt, true,
              w.redis.now⟩ : User g.unicode) with
          | error e =>
            rw [saveUser, flush_error rfl hdb.2 hs]
            exact .refused rfl
          | ok stmt =>
            rw [saveUser, flush_ok rfl hdb.2 hs]
            refine .done he hp hdb.2 ?_
            rw [tables_flush, hview]
            exact saveUser_users ht (hview ▸ hs)

end Register

def SameTokens (t t' : Tables) : Prop := t.passwordResetTokens = t'.passwordResetTokens

theorem SameTokens.refl (t : Tables) : SameTokens t t := rfl

theorem SameTokens.trans {t t' t'' : Tables} (h : SameTokens t t') (h' : SameTokens t' t'') :
    SameTokens t t'' :=
  Eq.trans h h'

def KeepsTokens (stmt : Statement) : Prop := ∀ t, SameTokens (stmt.apply t) t

theorem allows_saveUser {u : Unicode} (user : User u) :
    Allows (Session.Extends KeepsTokens) (Tables.saveUser user) := by
  intro s stmt h
  refine Session.Extends.flush ?_ s
  obtain ⟨-, ⟨-, rfl⟩ | ⟨old, -, rfl⟩⟩ := saveUser_ok h
  · exact fun _ => rfl
  · exact fun _ => rfl

theorem register_sameTokens (g : GlobalContainer) (faults : Faults) (email password : String)
    (d : RegisterDraws) {w : World} (hw : w.db.Fresh) :
    SameTokens (after g faults (.register email password d) w).db.committed w.db.committed := by
  have hk : Keeps (overDb (Session.Extends KeepsTokens))
      (resolve g faults (.register email password d)) :=
    keeps_register (extends_discipline KeepsTokens) allows_saveUser email password d
  rw [after_eq]
  exact Session.Extends.after_commit Statement.apply SameTokens.refl (fun _ _ _ => SameTokens.trans)
    (fun stmt t h => h t) hw (hk { w with commands := 0 })

end AuthService.AccountEffects
