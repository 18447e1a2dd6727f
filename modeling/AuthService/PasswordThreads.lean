import AuthService.AccountEffects
import AuthService.ReadCommitted
import AuthService.SessionThreads

set_option autoImplicit false

/-! Logins and password resets next to each other, one statement or Redis command at a
time; what a request has flushed becomes visible with the COMMIT at its end. -/
namespace AuthService.PasswordThreads
open Uuids PythonText DomainModel KeyedRows AccountTables Transactions FallibleState Fallible
open ExpiringMaps RedisSessions RequestPorts RedisTokenStore CommandHandlers HandlerRuns
open LabelledRuns ThreadPools AccountEffects ReadCommitted SessionThreads

structure Stores (ι : Type) where
  db : Database ι
  redis : Redis

/-- A request of either kind. A reset keeps the rows it has read beside the changed entities. -/
inductive PasswordThread (g : GlobalContainer) where
  | login (command : AuthenticateUserCommand) (d : LoginDraws)
  | opening (command : AuthenticateUserCommand) (d : LoginDraws) (row : UserModel) (t : SessionThread)
  | loggedIn (d : LoginDraws) (row : UserModel)
  | refusing (event : AuthEventModel)
  | loginFailed
  | reset (command : ResetPasswordCommand) (d : ResetDraws)
  | consumed (command : ResetPasswordCommand) (d : ResetDraws) (stored : PasswordResetTokenModel)
      (token : PasswordResetToken)
  | owned (command : ResetPasswordCommand) (d : ResetDraws) (stored : PasswordResetTokenModel)
      (token : PasswordResetToken) (owner : UserModel) (user : User g.unicode)
  | userSaved (command : ResetPasswordCommand) (d : ResetDraws) (stored : PasswordResetTokenModel)
      (token : PasswordResetToken) (owner : UserModel) (s₁ : Statement)
  | revoking (command : ResetPasswordCommand) (d : ResetDraws) (owner : UserModel)
      (s₁ s₂ : Statement) (t : SessionThread)
  | resetDone (command : ResetPasswordCommand) (d : ResetDraws) (owner : UserModel)
  | resetFailed

namespace PasswordThread
variable {g : GlobalContainer}

def loginEvent (d : LoginDraws) (user : UUID) (command : AuthenticateUserCommand) (now : ℕ) :
    AuthEventModel :=
  AuditEventDTO.toModel ⟨d.eventId, .loginSuccess, now, some user, some d.sessionId, command.ipAddress,
    [("device_info", (trimDeviceInfo command.deviceInfo).getD "")]⟩

def refusal (d : LoginDraws) (user : Option UUID) (command : AuthenticateUserCommand) (reason : String)
    (now : ℕ) : AuthEventModel :=
  AuditEventDTO.toModel ⟨d.eventId, .loginFailed, now, user, none, command.ipAddress,
    [("reason", reason)]⟩

def selectUser (t : Tables) (now : ℕ) (command : AuthenticateUserCommand) (d : LoginDraws) :
    PasswordThread g :=
  match Email.new g.unicode command.email with
  | .error _ => .loginFailed
  | .ok email =>
    match lookup UserModel.email email.value t.users with
    | none => .refusing (refusal d none command "user_not_found" now)
    | some row =>
      match row.toDomain g.unicode with
      | .error _ => .loginFailed
      | .ok user =>
        if user.isActive = false then
          .refusing (refusal d (some user.id) command "inactive_account" now)
        else if verify g command.password user.hashedPassword = false then
          .refusing (refusal d (some user.id) command "invalid_password" now)
        else .opening command d row (.login user.id (trimDeviceInfo command.deviceInfo) d)

def resetEvent (d : ResetDraws) (user : UUID) (command : ResetPasswordCommand) (now : ℕ) :
    AuthEventModel :=
  AuditEventDTO.toModel ⟨d.eventId, .passwordResetCompleted, now, some user, none,
    command.ipAddress, []⟩

def selectToken (t : Tables) (now : ℕ) (command : ResetPasswordCommand) (d : ResetDraws) :
    PasswordThread g :=
  match PlainPassword.new g.unicode command.newPassword with
  | .error _ => .resetFailed
  | .ok _ =>
    match lookup PasswordResetTokenModel.token (g.sha256 command.token) t.passwordResetTokens with
    | none => .resetFailed
    | some stored =>
      match stored.toDomain.consume now with
      | .error _ => .resetFailed
      | .ok token => .consumed command d stored token

def selectOwner (t : Tables) (command : ResetPasswordCommand) (d : ResetDraws)
    (stored : PasswordResetTokenModel) (token : PasswordResetToken) : PasswordThread g :=
  match lookup UserModel.id token.userId t.users with
  | none => .resetFailed
  | some owner =>
    match owner.toDomain g.unicode with
    | .error _ => .resetFailed
    | .ok user => .owned command d stored token owner user

section Step
variable {ι : Type} [DecidableEq ι]

def updateUser (i : ι) (db : Database ι) (command : ResetPasswordCommand) (d : ResetDraws)
    (stored : PasswordResetTokenModel) (token : PasswordResetToken) (owner : UserModel)
    (user : User g.unicode) : Option (Database ι × PasswordThread g) :=
  let row := toUserModel (user.changePassword (g.hashpw command.newPassword d.salt))
  match db.update i (.user owner.id) (decide (row ≠ owner)) with
  | none => none
  | some db' =>
    match db.tables.checkUser row with
    | .error _ => some (db.rollback i, .resetFailed)
    | .ok _ => some (db', .userSaved command d stored token owner (.updateUser owner row))

def updateToken (i : ι) (db : Database ι) (command : ResetPasswordCommand) (d : ResetDraws)
    (stored : PasswordResetTokenModel) (token : PasswordResetToken) (owner : UserModel)
    (s₁ : Statement) :
    Option (Database ι × PasswordThread g) :=
  let row := toResetTokenModel token
  match db.update i (.resetToken stored.id) (decide (row ≠ stored)) with
  | none => none
  | some db' =>
    match (s₁.apply db.tables).checkResetToken row with
    | .error _ => some (db.rollback i, .resetFailed)
    | .ok _ =>
      some (db', .revoking command d owner s₁ (.updateResetToken stored row) (.revokeAll owner.id))

def step (i : ι) (σ : Stores ι) : PasswordThread g → Option (Stores ι × PasswordThread g)
  | .login command d => some (σ, selectUser σ.db.tables σ.redis.now command d)
  | .opening command d row t =>
    match t.step g σ.redis with
    | some (r, t') => some ({ σ with redis := r }, .opening command d row t')
    | none =>
      some ({ σ with db := σ.db.commit i [.insertEvent (loginEvent d row.id command σ.redis.now)] },
        .loggedIn d row)
  | .refusing event => some ({ σ with db := σ.db.commit i [.insertEvent event] }, .loginFailed)
  | .reset command d => some (σ, selectToken σ.db.tables σ.redis.now command d)
  | .consumed command d stored token => some (σ, selectOwner σ.db.tables command d stored token)
  | .owned command d stored token owner user =>
    (updateUser i σ.db command d stored token owner user).map fun x => ({ σ with db := x.1 }, x.2)
  | .userSaved command d stored token owner s₁ =>
    (updateToken i σ.db command d stored token owner s₁).map fun x => ({ σ with db := x.1 }, x.2)
  | .revoking command d owner s₁ s₂ t =>
    match t.step g σ.redis with
    | some (r, t') => some ({ σ with redis := r }, .revoking command d owner s₁ s₂ t')
    | none =>
      some ({ σ with
        db := σ.db.commit i [s₁, s₂, .insertEvent (resetEvent d owner.id command σ.redis.now)] },
        .resetDone command d owner)
  | .loggedIn _ _ => none
  | .loginFailed => none
  | .resetDone _ _ _ => none
  | .resetFailed => none

end Step

end PasswordThread

/-- Any number of requests, with time passing between their steps. -/
def passwordProgram (g : GlobalContainer) (ι : Type) [DecidableEq ι] :
    Program ι (Stores ι) (PasswordThread g) where
  step i σ t σ' t' := t.step i σ = some (σ', t')
  env σ σ' := σ'.db = σ.db ∧ passing σ.redis σ'.redis

/-! ## A request on its own is the handler -/

section Solo
variable {g : GlobalContainer} {ι : Type} [DecidableEq ι] {w : World}

abbrev Solo (g : GlobalContainer) (i : ι) :
    Stores ι → PasswordThread g → Stores ι → PasswordThread g → Prop :=
  Alone (fun σ t => PasswordThread.step i σ t)

/-- The stores are as the handler leaves them at the end of the request. -/
def LeftAs {α : Type} (out : Except Exn α × World) (σ : Stores ι) : Prop :=
  σ.redis = out.2.redis ∧ σ.db.tables = (out.2.db.commit Statement.apply).committed

theorem solo_revoking (i : ι) (db : Database ι) (command : ResetPasswordCommand) (d : ResetDraws)
    (owner : UserModel) (s₁ s₂ : Statement) {r r' : Redis} {t t' : SessionThread}
    (h : SessionThreads.Solo g r t r' t') :
    Solo g i ⟨db, r⟩ (.revoking command d owner s₁ s₂ t) ⟨db, r'⟩
      (.revoking command d owner s₁ s₂ t') := by
  induction h with
  | refl => exact .refl _ _
  | next hs _ ih => exact .next (by simp only [PasswordThread.step, hs]) ih

def ResetEnds (g : GlobalContainer) (i : ι) (σ₀ : Stores ι) (command : ResetPasswordCommand)
    (d : ResetDraws) (out : Except Exn Unit × World) : Prop :=
  ∃ σ t, Solo g i σ₀ (.reset command d) σ t ∧ LeftAs out σ ∧
    ((t = .resetFailed ∧ ∃ e, out.1 = .error e) ∨
      ∃ owner, t = .resetDone command d owner ∧ out.1 = .ok ())

theorem resetEnds_failed {i : ι} {σ₀ σ : Stores ι} {command : ResetPasswordCommand} {d : ResetDraws}
    {e : Exn} {w' : World} (h : Solo g i σ₀ (.reset command d) σ .resetFailed)
    (hleft : LeftAs ((.error e, w') : Except Exn Unit × World) σ) :
    ResetEnds g i σ₀ command d (.error e, w') :=
  ⟨σ, .resetFailed, h, hleft, .inl ⟨rfl, e, rfl⟩⟩

theorem selectToken_consumed {t : Tables} {now : ℕ} {command : ResetPasswordCommand} {d : ResetDraws}
    {p : PlainPassword g.unicode} {stored : PasswordResetTokenModel} {token : PasswordResetToken}
    (hp : PlainPassword.new g.unicode command.newPassword = .ok p)
    (hl : lookup PasswordResetTokenModel.token (g.sha256 command.token) t.passwordResetTokens =
      some stored)
    (hc : stored.toDomain.consume now = .ok token) :
    PasswordThread.selectToken t now command d =
      (.consumed command d stored token : PasswordThread g) := by
  simp only [PasswordThread.selectToken, hp, hl, hc]

structure Consumable (g : GlobalContainer) (t : Tables) (row : PasswordResetTokenModel)
    (m : UserModel) (user : User g.unicode) : Prop where
  stored : row ∈ t.passwordResetTokens
  owner : lookup UserModel.id row.userId t.users = some m
  entity : m.toDomain g.unicode = .ok user

theorem exists_consumable {t : Tables} (ht : t.WellFormed g.unicode) {row : PasswordResetTokenModel}
    (hrow : row ∈ t.passwordResetTokens) : ∃ m user, Consumable g t row m user := by
  obtain ⟨m, hm, hid⟩ := ht.owners row hrow
  obtain ⟨user, -, hd⟩ := WellFormed.findById ht hm
  exact ⟨m, user, hrow, by rw [← hid]; exact ht.userIds.lookup hm, hd⟩

section Consumable
variable {t : Tables} {row : PasswordResetTokenModel} {m : UserModel} {user : User g.unicode}

theorem Consumable.mem (h : Consumable g t row m user) : m ∈ t.users := (lookup_some h.owner).1

theorem Consumable.findById (h : Consumable g t row m user) :
    t.findById g.unicode row.userId = .ok (some user) := by
  simp only [Tables.findById, h.owner, h.entity, Except.map]

theorem Consumable.changed (ht : t.WellFormed g.unicode) (h : Consumable g t row m user)
    (newHash : String) : toUserModel (user.changePassword newHash) = withPassword newHash m := by
  rw [← WellFormed.toUserModel ht h.mem h.entity]
  rfl

theorem Consumable.saveUser (ht : t.WellFormed g.unicode) (h : Consumable g t row m user)
    (password salt : String) :
    t.saveUser (user.changePassword (g.hashpw password salt)) =
      .ok (.updateUser m (withPassword (g.hashpw password salt) m)) := by
  refine WellFormed.saveUser_changePassword ht h.mem h.entity ?_
  rw [g.hashpw_length]
  decide

theorem Consumable.saveToken (ht : t.WellFormed g.unicode) (h : Consumable g t row m user)
    {password salt : String} {s₁ : Statement}
    (hs : t.saveUser (user.changePassword (g.hashpw password salt)) = .ok s₁) :
    Tables.saveResetToken (consumed row).toDomain (s₁.apply t) =
      .ok (.updateResetToken row (consumed row)) := by
  obtain rfl : _ = s₁ := Except.ok.inj ((h.saveUser ht password salt).symm.trans hs)
  exact WellFormed.saveResetToken_consumed (ht.saveUser hs) h.stored

theorem updateUser_consumable {i : ι} (db : Database ι) (command : ResetPasswordCommand)
    (d : ResetDraws)
    (token : PasswordResetToken) (ht : db.tables.WellFormed g.unicode)
    (h : Consumable g db.tables row m user) (hfree : db.locks.Free i (.user m.id)) :
    ∃ db', PasswordThread.updateUser i db command d row token m user =
        some (db', .userSaved command d row token m
          (.updateUser m (withPassword (g.hashpw command.newPassword d.salt) m))) ∧
      db'.tables = db.tables ∧ ∀ k, db'.locks k = db.locks k ∨ db'.locks k = some i := by
  have hchanged := h.changed ht (g.hashpw command.newPassword d.salt)
  have hcheck := (saveUser_ok (h.saveUser ht command.newPassword d.salt)).1
  rw [hchanged] at hcheck
  obtain ⟨db', hdb, hlocks⟩ :=
    update_free (decide (withPassword (g.hashpw command.newPassword d.salt) m ≠ m)) hfree
  refine ⟨db', ?_, update_tables hdb, hlocks⟩
  simp only [PasswordThread.updateUser, hchanged, hdb, hcheck]

theorem updateToken_consumable {i : ι} {db : Database ι} {command : ResetPasswordCommand}
    {d : ResetDraws}
    {s₁ : Statement} (ht : db.tables.WellFormed g.unicode) (h : Consumable g db.tables row m user)
    (hs : db.tables.saveUser (user.changePassword (g.hashpw command.newPassword d.salt)) = .ok s₁)
    (hfree : db.locks.Free i (.resetToken row.id)) :
    ∃ db', (PasswordThread.updateToken i db command d row (consumed row).toDomain m s₁ :
        Option (Database ι × PasswordThread g)) =
        some (db', .revoking command d m s₁ (.updateResetToken row (consumed row)) (.revokeAll m.id)) ∧
      db'.tables = db.tables := by
  have hcheck := (saveResetToken_ok (h.saveToken ht hs)).1
  obtain ⟨db', hdb, -⟩ := update_free (decide (consumed row ≠ row)) hfree
  refine ⟨db', ?_, update_tables hdb⟩
  have hrow : toResetTokenModel (consumed row).toDomain = consumed row := rfl
  rw [hrow] at hcheck
  simp only [PasswordThread.updateToken, hrow, hdb, hcheck]

theorem solo_flushes {i : ι} {locks : Locks LockKey ι} {r : Redis} {command : ResetPasswordCommand}
    {d : ResetDraws} {p : PlainPassword g.unicode} (ht : t.WellFormed g.unicode)
    (hfree : ∀ k, locks.Free i k) (hp : PlainPassword.new g.unicode command.newPassword = .ok p)
    (hl : lookup PasswordResetTokenModel.token (g.sha256 command.token) t.passwordResetTokens =
      some row)
    (hc : row.toDomain.consume r.now = .ok (consumed row).toDomain) (h : Consumable g t row m user) :
    ∃ db, db.tables = t ∧ Solo g i ⟨⟨t, locks⟩, r⟩ (.reset command d) ⟨db, r⟩
      (.revoking command d m (.updateUser m (withPassword (g.hashpw command.newPassword d.salt) m))
        (.updateResetToken row (consumed row)) (.revokeAll m.id)) := by
  obtain ⟨db₁, hupdate, htables, hlocks⟩ :=
    updateUser_consumable ⟨t, locks⟩ command d (consumed row).toDomain ht h (hfree _)
  have hfree₁ : db₁.locks.Free i (.resetToken row.id) := by
    rcases hlocks (.resetToken row.id) with hk | hk
    · rw [Locks.Free, hk]
      exact hfree _
    · exact .inr hk
  simp only at htables
  have hsave := h.saveUser ht command.newPassword d.salt
  subst htables
  obtain ⟨db₂, hupdate', htables'⟩ := updateToken_consumable ht h hsave hfree₁
  have howner : PasswordThread.selectOwner db₁.tables command d row (consumed row).toDomain =
      .owned command d row (consumed row).toDomain m user := by
    have hl' : lookup UserModel.id (consumed row).toDomain.userId db₁.tables.users = some m := h.owner
    simp only [PasswordThread.selectOwner, hl', h.entity]
  have h₁ : PasswordThread.step i ⟨⟨db₁.tables, locks⟩, r⟩ (.reset command d) =
      some (⟨⟨db₁.tables, locks⟩, r⟩,
        (.consumed command d row (consumed row).toDomain : PasswordThread g)) := by
    rw [PasswordThread.step, selectToken_consumed hp hl hc]
  have h₂ : PasswordThread.step i ⟨⟨db₁.tables, locks⟩, r⟩
      (.consumed command d row (consumed row).toDomain) =
        some (⟨⟨db₁.tables, locks⟩, r⟩, .owned command d row (consumed row).toDomain m user) := by
    rw [PasswordThread.step, howner]
  have h₃ : PasswordThread.step i ⟨⟨db₁.tables, locks⟩, r⟩
      (.owned command d row (consumed row).toDomain m user) =
        some (⟨db₁, r⟩, .userSaved command d row (consumed row).toDomain m
          (.updateUser m (withPassword (g.hashpw command.newPassword d.salt) m))) := by
    simp only [PasswordThread.step, hupdate, Option.map_some]
  refine ⟨db₂, htables', .next h₁ (.next h₂ (.next h₃ ?_))⟩
  exact .next (by simp only [PasswordThread.step, hupdate', Option.map_some]) (.refl _ _)

end Consumable

/-- A reset on its own does what the handler does, up to the COMMIT. -/
theorem resetPassword_solo (i : ι) (hdb : w.db.Fresh) (ht : w.db.committed.WellFormed g.unicode)
    (locks : Locks LockKey ι) (hfree : ∀ k, locks.Free i k) (command : ResetPasswordCommand)
    (d : ResetDraws) :
    ResetEnds g i ⟨⟨w.db.committed, locks⟩, w.redis⟩ command d
      (resetPassword g noFaults command d w) := by
  have hout := resetPassword_outcome (g := g) (w := w) quiet_noFaults hdb.2 command d
  have hview : w.tables = w.db.committed := Session.view_fresh _ hdb
  have hsame : (w.db.commit Statement.apply).committed = w.db.committed := by
    rw [Session.commit_of_fresh _ hdb]
  have refused : ∀ {e : Exn}, Solo g i ⟨⟨w.db.committed, locks⟩, w.redis⟩ (.reset command d)
      ⟨⟨w.db.committed, locks⟩, w.redis⟩ .resetFailed →
        ResetEnds g i ⟨⟨w.db.committed, locks⟩, w.redis⟩ command d (.error e, w) :=
    fun h => resetEnds_failed h ⟨rfl, hsame.symm⟩
  generalize resetPassword g noFaults command d w = out at hout ⊢
  cases hout with
  | weak password =>
    refine refused (.next ?_ (.refl _ _))
    simp only [PasswordThread.step, PasswordThread.selectToken, password]
  | missing password absent =>
    rw [hview, Tables.findByToken, Option.map_eq_none_iff] at absent
    refine refused (.next ?_ (.refl _ _))
    simp only [PasswordThread.step, PasswordThread.selectToken, password, absent]
  | unusable password found consumed =>
    rw [hview] at found
    obtain ⟨row, hrow, rfl⟩ := findByToken_some found
    refine refused (.next ?_ (.refl _ _))
    simp only [PasswordThread.step, PasswordThread.selectToken, password, hrow, consumed]
  | orphan password found hc unknown =>
    rw [hview] at found unknown
    obtain ⟨row, hrow, rfl⟩ := findByToken_some found
    obtain ⟨m, user, h⟩ := exists_consumable ht (lookup_some hrow).1
    obtain rfl := consume_consumed hc
    exact absurd h.findById (unknown user)
  | rejected password found hc owner clash _ _ =>
    rw [hview] at found owner clash
    obtain ⟨row, hrow, rfl⟩ := findByToken_some found
    obtain ⟨m, user, h⟩ := exists_consumable ht (lookup_some hrow).1
    obtain rfl := consume_consumed hc
    obtain rfl : user = _ := Option.some.inj (Except.ok.inj (h.findById.symm.trans owner))
    exact absurd (h.saveToken ht (h.saveUser ht command.newPassword d.salt))
      (clash _ _ (h.saveUser ht _ _))
  | completed password found hc owner savedUser savedToken =>
    rw [hview] at found owner savedUser savedToken
    obtain ⟨row, hrow, rfl⟩ := findByToken_some found
    obtain ⟨m, user, h⟩ := exists_consumable ht (lookup_some hrow).1
    obtain rfl := consume_consumed hc
    obtain rfl : user = _ := Option.some.inj (Except.ok.inj (h.findById.symm.trans owner))
    have hs₁ := Except.ok.inj ((h.saveUser ht command.newPassword d.salt).symm.trans savedUser)
    have hs₂ := Except.ok.inj ((h.saveToken ht savedUser).symm.trans savedToken)
    subst hs₁ hs₂
    have hid : user.id = m.id := (toDomain_ok h.entity).1
    obtain ⟨db₂, htables, hflushes⟩ := solo_flushes (r := w.redis) (d := d) ht hfree password hrow hc h
    obtain ⟨gone, hsolo⟩ := SessionThreads.solo_revokeAllUserSessions (g := g)
      (w := w) quiet_noFaults m.id
    rw [revokeAllUserSessions_run quiet_noFaults] at hsolo
    refine ⟨_, .resetDone command d m, Alone.trans hflushes
      (Alone.trans (solo_revoking i db₂ command d m _ _ hsolo) (.next rfl (.refl _ _))), ?_,
      .inr ⟨m, rfl, rfl⟩⟩
    have halive : (commanded (revokeAll m.id w.redis) (revokeAllCost m.id w.redis)
        { w with
          db := Session.flush [Statement.updateResetToken row (consumed row)]
            (w.db.flush [Statement.updateUser m
              (withPassword (g.hashpw command.newPassword d.salt) m)]) }).db.aborted = false := hdb.2
    rw [hid, audited_of_success rfl halive]
    refine ⟨rfl, ?_⟩
    rw [Session.commit_committed _ _ (by exact hdb.2)]
    simp only [commanded, commit_tables, htables, Session.view_flush, Session.view_fresh _ hdb,
      revokeAll_now]
    rfl

def LoginEnds (g : GlobalContainer) (i : ι) (σ₀ : Stores ι) (command : AuthenticateUserCommand)
    (d : LoginDraws) (out : Except Exn TokenPairDTO × World) : Prop :=
  ∃ σ t, Solo g i σ₀ (.login command d) σ t ∧ LeftAs out σ ∧
    ((t = .loginFailed ∧ ∃ e, out.1 = .error e) ∨
      ∃ row pair, t = .loggedIn d row ∧ out.1 = .ok pair ∧ pair.sessionId = d.sessionId)

theorem loginEnds_failed {i : ι} {σ : Stores ι} {command : AuthenticateUserCommand} {d : LoginDraws}
    {e : Exn} {w' : World} (h : PasswordThread.selectUser σ.db.tables σ.redis.now command d =
      (.loginFailed : PasswordThread g))
    (hleft : LeftAs ((.error e, w') : Except Exn TokenPairDTO × World) σ) :
    LoginEnds g i σ command d (.error e, w') :=
  ⟨σ, .loginFailed, .next (by rw [PasswordThread.step, h]) (.refl _ _), hleft, .inl ⟨rfl, e, rfl⟩⟩

theorem loginEnds_refused {i : ι} {db : Database ι} {command : AuthenticateUserCommand} {d : LoginDraws}
    {event : AuthEventModel} {e : Exn} {w' : World} (hdb : w.db.Fresh)
    (hview : db.tables = w.db.committed)
    (h : PasswordThread.selectUser db.tables w.redis.now command d =
      (.refusing event : PasswordThread g))
    (hredis : w'.redis = w.redis) (hevent : w'.db = w.db.flush [.insertEvent event]) :
    LoginEnds g i ⟨db, w.redis⟩ command d (.error e, w') := by
  refine ⟨_, .loginFailed, .next (by rw [PasswordThread.step, h]) (.next rfl (.refl _ _)),
    ⟨hredis.symm, ?_⟩, .inl ⟨rfl, e, rfl⟩⟩
  rw [Session.commit_committed _ _ (by rw [hevent]; exact hdb.2), hevent, Session.view_flush,
    Session.view_fresh _ hdb, ← hview]
  rfl

theorem authenticateUser_solo (i : ι) (hdb : w.db.Fresh) (locks : Locks LockKey ι)
    (command : AuthenticateUserCommand) (d : LoginDraws) :
    LoginEnds g i ⟨⟨w.db.committed, locks⟩, w.redis⟩ command d
      (authenticateUser g noFaults command d w) := by
  have hview : w.tables = w.db.committed := Session.view_fresh _ hdb
  have hsame : w.db.committed = (w.db.commit Statement.apply).committed := by
    rw [Session.commit_of_fresh _ hdb]
  unfold authenticateUser
  cases he : Email.new g.unicode command.email with
  | error e =>
    rw [bind_error (ofExcept_run _ _)]
    exact loginEnds_failed (by unfold PasswordThread.selectUser; simp only [he]) ⟨rfl, hsame⟩
  | ok email =>
    rw [bind_ok (ofExcept_run _ _)]
    have hf : findByEmail g noFaults email w = (w.tables.findByEmail g.unicode email.value, w) :=
      query_run rfl hdb.2
    rw [hview, Tables.findByEmail] at hf
    cases hl : lookup UserModel.email email.value w.db.committed.users with
    | none =>
      simp only [hl] at hf
      obtain ⟨w₁, hw₁, hr, -, hdb₁, -⟩ := verifyDummy_run (g := g) (w := w) command.password d.dummySalt
      rw [bind_ok hf]
      simp only
      rw [bind_ok hw₁, bind_ok recordLoginFailed_run, raise_run,
        audited_of_success rfl (by rw [hdb₁]; exact hdb.2), hr]
      exact loginEnds_refused hdb rfl (by unfold PasswordThread.selectUser; simp only [he, hl]; rfl) rfl
        (by rw [hdb₁]; rfl)
    | some row =>
      simp only [hl] at hf
      cases hd : row.toDomain g.unicode with
      | error e =>
        simp only [hd, Except.map] at hf
        rw [bind_error hf]
        exact loginEnds_failed (by unfold PasswordThread.selectUser; simp only [he, hl, hd])
          ⟨rfl, hsame⟩
      | ok user =>
        simp only [hd, Except.map] at hf
        rw [bind_ok hf]
        simp only
        split_ifs with h1 h2
        · rw [bind_ok recordLoginFailed_run, raise_run, audited_of_success rfl hdb.2]
          exact loginEnds_refused hdb rfl
            (by unfold PasswordThread.selectUser; simp only [he, hl, hd, h1]; rfl)
            rfl rfl
        · rw [bind_ok recordLoginFailed_run, raise_run, audited_of_success rfl hdb.2]
          exact loginEnds_refused hdb rfl
            (by unfold PasswordThread.selectUser; simp only [he, hl, hd, h1, h2]; rfl) rfl rfl
        · have hopening : PasswordThread.selectUser w.db.committed w.redis.now command d =
              (.opening command d row (.login user.id (trimDeviceInfo command.deviceInfo) d) :
                PasswordThread g) := by
            unfold PasswordThread.selectUser
            simp only [he, hl, hd]
            rw [if_neg h1, if_neg h2]
          rw [bind_ok (generateAccessToken_run _ _ _), createSession,
            bind_ok (command_run quiet_noFaults),
            bind_ok now_run, bind_ok (tryRecord_run _), pure_run, audited_of_success rfl]
          swap
          · exact hdb.2
          refine ⟨_, .loggedIn d row, .next (by rw [PasswordThread.step, hopening])
            (.next rfl (.next rfl (.refl _ _))), ⟨rfl, ?_⟩, .inr ⟨row, _, rfl, rfl, rfl⟩⟩
          rw [Session.commit_committed _ _ (by exact hdb.2), Session.view_flush,
            Session.view_fresh _ hdb,
            ← (toDomain_ok hd).1]
          rfl

end Solo

end AuthService.PasswordThreads
