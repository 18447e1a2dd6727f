import AuthService.GraphqlResolvers

set_option autoImplicit false

/-! Every handler, run without a failing port call other than the audit: one equation a
handler, from which later modules read what they need. -/
namespace AuthService.HandlerRuns
open Uuids PythonText DomainModel KeyedRows AccountTables Transactions FallibleState Fallible
  RedisSessions
open RequestPorts RedisTokenStore CommandHandlers GraphqlResolvers

variable {g : GlobalContainer} {faults : Faults} {w : World}

def commanded (r : Redis) (n : ℕ) (w : World) : World :=
  { w with redis := r, commands := w.commands + n }

section Store
variable (hq : Quiet faults)
include hq

theorem getSession_run (sid : UUID) :
    getSession faults sid w = (.ok (w.redis.session.value sid), commanded w.redis 1 w) :=
  command_run hq

theorem revokeSession_run (sid : UUID) :
    revokeSession faults sid w =
      (.ok (), commanded (revokeOne sid w.redis) (revokeOneCost sid w.redis) w) := by
  unfold revokeSession
  rw [bind_ok (getSession_run hq sid)]
  cases hv : w.redis.session.value sid with
  | none => simp only [revokeOne, revokeOneCost, hv]; rfl
  | some data =>
    simp only [revokeOne, revokeOneCost, hv]
    exact command_run hq

theorem revokeEach_run (ids : List UUID) :
    revokeEach faults ids w =
      (.ok (), commanded (revokeList ids w.redis) (revokeListCost ids w.redis) w) := by
  induction ids generalizing w with
  | nil => rfl
  | cons sid rest ih =>
    rw [revokeEach, bind_ok (revokeSession_run hq sid), ih]
    simp [commanded, revokeList, revokeListCost, Nat.add_assoc]

theorem revokeAllUserSessions_run (uid : UUID) :
    revokeAllUserSessions faults uid w =
      (.ok (), commanded (revokeAll uid w.redis) (revokeAllCost uid w.redis) w) := by
  rw [revokeAllUserSessions, bind_ok (command_run hq), bind_ok (command_run hq), revokeEach_run hq]
  simp [commanded, revokeAll, revokeAllCost, Nat.add_assoc]

end Store

/-- How a login ends: without touching the store, or with a session opened for an
active user whose password was verified. -/
inductive LoginOutcome (g : GlobalContainer) (cmd : AuthenticateUserCommand) (d : LoginDraws)
    (w : World) : Except Exn TokenPairDTO × World → Prop where
  | refused {e : Exn} {w' : World} (redis : w'.redis = w.redis) (signed : w'.signed = w.signed) :
      LoginOutcome g cmd d w (.error e, w')
  | opened {m : UserModel} {w' : World} (stored : m ∈ w.tables.users) (active : m.isActive = true)
      (verified : verify g cmd.password m.hashedPassword = true)
      (redis : w'.redis = createPipeline (g.isoformat w.redis.now) d.sessionId m.id d.jti.str
        d.refreshToken.text (trimDeviceInfo cmd.deviceInfo) g.accessTokenTtlSeconds
        g.refreshTokenTtlSeconds w.redis)
      (signed : w'.signed = g.accessClaims w.redis.now m.id d.sessionId d.jti :: w.signed) :
      LoginOutcome g cmd d w
        (.ok ⟨g.encode (g.accessClaims w.redis.now m.id d.sessionId d.jti), d.refreshToken.text,
          d.sessionId, "Bearer"⟩, w')

theorem recordLoginFailed_run {userId : Option UUID} {ip : Option String} {reason : String}
    {eventId : UUID} :
    recordLoginFailed faults userId ip reason eventId w =
      (.ok (), w.audited faults ⟨eventId, .loginFailed, w.redis.now, userId, none, ip,
        [("reason", reason)]⟩) := by
  unfold recordLoginFailed
  rw [bind_ok now_run, tryRecord_run]

theorem verifyDummy_run (password salt : String) :
    ∃ w', verifyDummy g password salt w = (.ok (), w') ∧ w'.redis = w.redis ∧ w'.signed = w.signed ∧
      w'.db = w.db ∧ w'.sentEmails = w.sentEmails := by
  refine ⟨_, rfl, ?_⟩
  change (if w.dummyHash = "" then _ else w : World).redis = _ ∧
    (if w.dummyHash = "" then _ else w : World).signed = _ ∧
    (if w.dummyHash = "" then _ else w : World).db = _ ∧
    (if w.dummyHash = "" then _ else w : World).sentEmails = _
  split_ifs <;> exact ⟨rfl, rfl, rfl, rfl⟩

theorem generateAccessToken_run (u s j : UUID) :
    generateAccessToken g u s j w =
      (.ok (g.encode (g.accessClaims w.redis.now u s j), j.str),
        { w with signed := g.accessClaims w.redis.now u s j :: w.signed }) := rfl

theorem map_some_ok {α : Type} {x : Except Exn α} {a : α} (h : x.map some = .ok (some a)) :
    x = .ok a := by
  cases x with
  | error e => cases h
  | ok b =>
    simp only [Except.map, Except.ok.injEq, Option.some.injEq] at h
    rw [h]

theorem findByEmail_stored {u : Unicode} {t : Tables} {email : String} {user : User u}
    (h : t.findByEmail u email = .ok (some user)) :
    ∃ m, lookup UserModel.email email t.users = some m ∧ m.toDomain u = .ok user := by
  unfold Tables.findByEmail at h
  cases hl : lookup UserModel.email email t.users with
  | none => simp [hl] at h
  | some m =>
    rw [hl] at h
    exact ⟨m, rfl, map_some_ok h⟩

theorem findByEmail_error {u : Unicode} {t : Tables} {email : String} {e : Exn}
    (h : t.findByEmail u email = .error e) : ∃ message, e = .invalidEmailError message := by
  unfold Tables.findByEmail at h
  cases hl : lookup UserModel.email email t.users with
  | none => simp [hl] at h
  | some m =>
    cases hd : m.toDomain u with
    | error e' =>
      obtain ⟨message, rfl⟩ := toDomain_error hd
      simp only [hl, hd, Except.map, Except.error.injEq] at h
      exact ⟨message, h.symm⟩
    | ok v => simp [hl, hd, Except.map] at h

theorem findById_stored {u : Unicode} {t : Tables} {id : UUID} {user : User u}
    (h : t.findById u id = .ok (some user)) :
    ∃ m, lookup UserModel.id id t.users = some m ∧ m.toDomain u = .ok user := by
  unfold Tables.findById at h
  cases hl : lookup UserModel.id id t.users with
  | none => simp [hl] at h
  | some m =>
    rw [hl] at h
    exact ⟨m, rfl, map_some_ok h⟩

theorem authenticateUser_outcome (hq : Quiet faults) (hdb : w.db.aborted = false)
    (cmd : AuthenticateUserCommand) (d : LoginDraws) :
    LoginOutcome g cmd d w (authenticateUser g faults cmd d w) := by
  unfold authenticateUser
  cases he : Email.new g.unicode cmd.email with
  | error e => exact .refused rfl rfl
  | ok email =>
    rw [bind_ok (ofExcept_run _ _)]
    have hf : findByEmail g faults email w = (w.tables.findByEmail g.unicode email.value, w) :=
      query_run (hq _ (by simp)) hdb
    cases hfound : w.tables.findByEmail g.unicode email.value with
    | error e =>
      rw [bind_error (hf.trans (by rw [hfound]))]
      exact .refused rfl rfl
    | ok found =>
      rw [bind_ok (hf.trans (by rw [hfound]))]
      cases found with
      | none =>
        obtain ⟨w', hw', hr, hs, -⟩ := verifyDummy_run (g := g) (w := w) cmd.password d.dummySalt
        simp only
        rw [bind_ok hw', bind_ok recordLoginFailed_run, raise_run]
        exact .refused (by rw [audited_redis, hr]) (by rw [audited_signed, hs])
      | some user =>
        obtain ⟨m, hm, hd⟩ := findByEmail_stored hfound
        obtain ⟨hid, hhash, hactive, -, -⟩ := toDomain_ok hd
        simp only
        split_ifs with h1 h2
        · rw [bind_ok recordLoginFailed_run, raise_run]
          exact .refused (audited_redis _) (audited_signed _)
        · rw [bind_ok recordLoginFailed_run, raise_run]
          exact .refused (audited_redis _) (audited_signed _)
        · rw [bind_ok (generateAccessToken_run _ _ _), createSession, bind_ok (command_run hq),
            bind_ok now_run, bind_ok (tryRecord_run _), pure_run, hid]
          refine .opened (lookup_some hm).1 ?_ ?_ ?_ ?_
          · simpa [hactive] using h1
          · simpa [hhash] using h2
          · rw [audited_redis]
          · rw [audited_signed]

/-- How a refresh ends. It fails when the key, its payload or the session hash does not
lead to a user, and by then the presented key is gone. -/
inductive RefreshOutcome (g : GlobalContainer) (cmd : RefreshTokenCommand) (d : RefreshDraws)
    (w : World) : Except Exn TokenPairDTO × World → Prop where
  | refused {e : Exn} {w' : World}
      (unusable : ∀ u s h v, w.redis.refresh.value cmd.refreshToken = some (payload u s) →
        w.redis.session.value s = some h → h.userId ≠ some v)
      (redis : w'.redis = (getdel cmd.refreshToken w.redis).2)
      (signed : w'.signed = w.signed ∨
        ∃ u s, w'.signed = g.accessClaims w.redis.now u s d.jti :: w.signed) :
      RefreshOutcome g cmd d w (.error e, w')
  | rotated {raw a b : String} {u s v : UUID} {h : SessionHash} {w' : World}
      (claimed : w.redis.refresh.value cmd.refreshToken = some raw)
      (split : splitColon raw = some (a, b)) (user : UUID.parse a = some u)
      (session : UUID.parse b = some s) (stored : w.redis.session.value s = some h)
      (owner : h.userId = some v)
      (redis : w'.redis = rotatePipeline (g.isoformat w.redis.now) s v (h.currentJti.getD "")
        cmd.refreshToken d.jti.str d.refreshToken.text g.accessTokenTtlSeconds
        g.refreshTokenTtlSeconds (getdel cmd.refreshToken w.redis).2)
      (signed : w'.signed = g.accessClaims w.redis.now u s d.jti :: w.signed) :
      RefreshOutcome g cmd d w
        (.ok ⟨g.encode (g.accessClaims w.redis.now u s d.jti), d.refreshToken.text, s, "Bearer"⟩, w')

theorem refreshToken_outcome (hq : Quiet faults) (cmd : RefreshTokenCommand) (d : RefreshDraws) :
    RefreshOutcome g cmd d w (refreshToken g faults cmd d w) := by
  unfold refreshToken getSessionByRefreshToken
  rw [bind_run, bind_ok (command_run hq)]
  cases hraw : w.redis.refresh.value cmd.refreshToken with
  | none =>
    simp only [getdel, hraw, pure_run, raise_run]
    refine .refused ?_ rfl (.inl rfl)
    intro u s h v hp
    simp [hraw] at hp
  | some raw =>
    simp only [getdel, hraw]
    cases hsplit : splitColon raw with
    | none =>
      simp only [raise_run]
      refine .refused ?_ rfl (.inl rfl)
      intro u s h v hp
      rw [hraw, Option.some.injEq] at hp
      rw [hp, splitColon_payload] at hsplit
      simp at hsplit
    | some parts =>
      obtain ⟨a, b⟩ := parts
      simp only [pure_run]
      have hshape : ∀ u s, w.redis.refresh.value cmd.refreshToken = some (payload u s) →
          a = u.str ∧ b = s.str := by
        intro u s hp
        rw [hraw, Option.some.injEq] at hp
        rw [hp, splitColon_payload] at hsplit
        simp only [Option.some.injEq, Prod.mk.injEq] at hsplit
        exact ⟨hsplit.1.symm, hsplit.2.symm⟩
      cases hu : UUID.parse a with
      | none =>
        simp only [raise_run]
        refine .refused ?_ rfl (.inl rfl)
        intro u s h v hp
        simp [(hshape u s hp).1] at hu
      | some u =>
        cases hs : UUID.parse b with
        | none =>
          simp only [raise_run]
          refine .refused ?_ rfl (.inl rfl)
          intro u s h v hp
          simp [(hshape u s hp).2] at hs
        | some s =>
          simp only
          rw [bind_ok (generateAccessToken_run _ _ _), rotateSession, bind_run,
            bind_ok (getSession_run hq _)]
          cases hh : w.redis.session.value s with
          | none =>
            simp only [commanded, raise_run]
            refine .refused ?_ rfl (.inr ⟨u, s, rfl⟩)
            intro u' s' h v hp hv
            obtain ⟨-, rfl⟩ := hshape u' s' hp
            rw [parse_str, Option.some.injEq] at hs
            rw [hs, hh] at hv
            simp at hv
          | some h =>
            cases hv : h.userId with
            | none =>
              simp only [commanded, hv, raise_run]
              refine .refused ?_ rfl (.inr ⟨u, s, rfl⟩)
              intro u' s' h' v hp hh' hv'
              obtain ⟨-, rfl⟩ := hshape u' s' hp
              rw [parse_str, Option.some.injEq] at hs
              rw [hs, hh, Option.some.injEq] at hh'
              rw [← hh', hv] at hv'
              simp at hv'
            | some v =>
              simp only [commanded, hv]
              rw [command_run hq]
              simp only
              rw [bind_ok now_run, bind_ok (tryRecord_run _), pure_run]
              refine .rotated hraw hsplit hu hs hh hv ?_ ?_
              · rw [audited_redis]; rfl
              · rw [audited_signed]

theorem revokeSessionHandler_run (hq : Quiet faults) (cmd : RevokeSessionCommand) (d : RevokeDraws) :
    ∃ w', revokeSessionHandler faults cmd d w = (.ok (), w') ∧
      w'.redis = revokeOne cmd.sessionId w.redis ∧ w'.signed = w.signed := by
  unfold revokeSessionHandler
  rw [bind_ok (getSession_run hq _), bind_ok (revokeSession_run hq _), bind_ok now_run, tryRecord_run]
  exact ⟨_, rfl, audited_redis _, audited_signed _⟩

inductive ResetRequestOutcome (g : GlobalContainer) (faults : Faults)
    (cmd : RequestPasswordResetCommand) (d : RequestResetDraws) (w : World) :
    Except Exn Unit × World → Prop where
  | refused {e : Exn} (unknown : ∀ email user, Email.new g.unicode cmd.email = .ok email →
      w.tables.findByEmail g.unicode email.value ≠ .ok (some user)) :
      ResetRequestOutcome g faults cmd d w (.error e, w)
  | rejected {e : Exn} {email : Email g.unicode} {user : User g.unicode}
      (address : Email.new g.unicode cmd.email = .ok email)
      (found : w.tables.findByEmail g.unicode email.value = .ok (some user))
      (clash : Tables.saveResetToken (requestedToken g d user.id w.redis.now)
        ((w.tables.deleteAllByUserId user.id).apply w.tables) = .error e) :
      ResetRequestOutcome g faults cmd d w
        (.error e, { w with db := (w.db.flush [w.tables.deleteAllByUserId user.id]).rollback })
  | issued {email : Email g.unicode} {user : User g.unicode} {stmt : Statement}
      (address : Email.new g.unicode cmd.email = .ok email)
      (found : w.tables.findByEmail g.unicode email.value = .ok (some user))
      (saved : Tables.saveResetToken (requestedToken g d user.id w.redis.now)
        ((w.tables.deleteAllByUserId user.id).apply w.tables) = .ok stmt) :
      ResetRequestOutcome g faults cmd d w
        (.ok (), World.audited faults
          ⟨d.eventId, .passwordResetRequested, w.redis.now, some user.id, none, cmd.ipAddress, []⟩
          { w with
            db := (w.db.flush [w.tables.deleteAllByUserId user.id]).flush [stmt]
            sentEmails := w.sentEmails ++ [(email.value, d.rawToken.text)] })

theorem tables_flush (stmt : Statement) :
    World.tables { w with db := w.db.flush [stmt] } = stmt.apply w.tables := by
  simp only [World.tables, Session.view_flush, Session.replay_cons, Session.replay_nil]

theorem requestPasswordReset_outcome (hq : Quiet faults) (hdb : w.db.aborted = false)
    (cmd : RequestPasswordResetCommand) (d : RequestResetDraws) :
    ResetRequestOutcome g faults cmd d w (requestPasswordReset g faults cmd d w) := by
  unfold requestPasswordReset
  cases he : Email.new g.unicode cmd.email with
  | error e =>
    refine .refused ?_
    intro email user h
    simp [he] at h
  | ok email =>
    rw [bind_ok (ofExcept_run _ _)]
    have hf : findByEmail g faults email w = (w.tables.findByEmail g.unicode email.value, w) :=
      query_run (hq _ (by simp)) hdb
    cases hfound : w.tables.findByEmail g.unicode email.value with
    | error e =>
      rw [bind_error (hf.trans (by rw [hfound]))]
      refine .refused ?_
      intro email' user h
      rw [he, Except.ok.injEq] at h
      simp [← h, hfound]
    | ok found =>
      rw [bind_ok (hf.trans (by rw [hfound]))]
      cases found with
      | none =>
        refine .refused ?_
        intro email' user h
        rw [he, Except.ok.injEq] at h
        simp [← h, hfound]
      | some user =>
        simp only
        rw [deleteAllByUserId, bind_ok (flush_ok (hq .deleteAllByUserId (by simp)) hdb rfl),
          bind_ok now_run]
        have ht := tables_flush (w := w) (w.tables.deleteAllByUserId user.id)
        have hdb' : (World.db { w with db := w.db.flush [w.tables.deleteAllByUserId user.id]
          }).aborted =
            false := hdb
        cases hsave : Tables.saveResetToken (requestedToken g d user.id w.redis.now)
            ((w.tables.deleteAllByUserId user.id).apply w.tables) with
        | error e =>
          rw [← ht] at hsave
          rw [saveToken, bind_error (flush_error (hq .saveToken (by simp)) hdb' hsave)]
          rw [ht] at hsave
          exact .rejected he hfound hsave
        | ok stmt =>
          rw [← ht] at hsave
          rw [saveToken, bind_ok (flush_ok (hq .saveToken (by simp)) hdb' hsave),
            bind_ok (sendResetEmail_run hq), bind_ok now_run, tryRecord_run]
          rw [ht] at hsave
          exact .issued he hfound hsave

inductive ResetOutcome (g : GlobalContainer) (faults : Faults) (cmd : ResetPasswordCommand)
    (d : ResetDraws) (w : World) : Except Exn Unit × World → Prop where
  | weak {e : Exn} (password : PlainPassword.new g.unicode cmd.newPassword = .error e) :
      ResetOutcome g faults cmd d w (.error e, w)
  | missing {p : PlainPassword g.unicode}
      (password : PlainPassword.new g.unicode cmd.newPassword = .ok p)
      (absent : w.tables.findByToken (g.sha256 cmd.token) = none) :
      ResetOutcome g faults cmd d w (.error (.tokenNotFoundError "Reset token not found"), w)
  | unusable {e : Exn} {p : PlainPassword g.unicode} {stored : PasswordResetToken}
      (password : PlainPassword.new g.unicode cmd.newPassword = .ok p)
      (found : w.tables.findByToken (g.sha256 cmd.token) = some stored)
      (consumed : stored.consume w.redis.now = .error e) :
      ResetOutcome g faults cmd d w (.error e, w)
  | orphan {e : Exn} {p : PlainPassword g.unicode} {stored token : PasswordResetToken}
      (password : PlainPassword.new g.unicode cmd.newPassword = .ok p)
      (found : w.tables.findByToken (g.sha256 cmd.token) = some stored)
      (consumed : stored.consume w.redis.now = .ok token)
      (unknown : ∀ user, w.tables.findById g.unicode token.userId ≠ .ok (some user)) :
      ResetOutcome g faults cmd d w (.error e, w)
  | rejected {e : Exn} {p : PlainPassword g.unicode} {stored token : PasswordResetToken}
      {user : User g.unicode} {db : Session Tables Statement}
      (password : PlainPassword.new g.unicode cmd.newPassword = .ok p)
      (found : w.tables.findByToken (g.sha256 cmd.token) = some stored)
      (consumed : stored.consume w.redis.now = .ok token)
      (owner : w.tables.findById g.unicode token.userId = .ok (some user))
      (clash : ∀ s₁ s₂, w.tables.saveUser (user.changePassword (g.hashpw cmd.newPassword d.salt)) =
        .ok s₁ → Tables.saveResetToken token (s₁.apply w.tables) ≠ .ok s₂)
      (committed : db.committed = w.db.committed) (aborted : db.aborted = true) :
      ResetOutcome g faults cmd d w (.error e, { w with db := db })
  | completed {p : PlainPassword g.unicode} {stored token : PasswordResetToken}
      {user : User g.unicode} {s₁ s₂ : Statement}
      (password : PlainPassword.new g.unicode cmd.newPassword = .ok p)
      (found : w.tables.findByToken (g.sha256 cmd.token) = some stored)
      (consumed : stored.consume w.redis.now = .ok token)
      (owner : w.tables.findById g.unicode token.userId = .ok (some user))
      (savedUser : w.tables.saveUser (user.changePassword (g.hashpw cmd.newPassword d.salt)) = .ok s₁)
      (savedToken : Tables.saveResetToken token (s₁.apply w.tables) = .ok s₂) :
      ResetOutcome g faults cmd d w
        (.ok (), World.audited faults
          ⟨d.eventId, .passwordResetCompleted, w.redis.now, some user.id, none, cmd.ipAddress, []⟩
          (commanded (revokeAll user.id w.redis) (revokeAllCost user.id w.redis)
            { w with db := (w.db.flush [s₁]).flush [s₂] }))

@[simp] theorem changePassword_id {u : Unicode} (user : User u) (h : String) :
    (user.changePassword h).id = user.id := rfl

theorem resetPassword_outcome (hq : Quiet faults) (hdb : w.db.aborted = false)
    (cmd : ResetPasswordCommand) (d : ResetDraws) :
    ResetOutcome g faults cmd d w (resetPassword g faults cmd d w) := by
  unfold resetPassword
  cases hp : PlainPassword.new g.unicode cmd.newPassword with
  | error e => exact .weak hp
  | ok p =>
    have hft : findByToken faults (g.sha256 cmd.token) w =
        (.ok (w.tables.findByToken (g.sha256 cmd.token)), w) :=
      query_run (hq .findByToken (by simp)) hdb
    rw [bind_ok (ofExcept_run _ _), bind_ok hft]
    cases hf : w.tables.findByToken (g.sha256 cmd.token) with
    | none => exact .missing hp hf
    | some stored =>
      simp only
      rw [bind_ok now_run]
      cases hc : stored.consume w.redis.now with
      | error e => exact .unusable hp hf hc
      | ok token =>
        rw [bind_ok (ofExcept_run _ _)]
        have hid : findById g faults token.userId w = (w.tables.findById g.unicode token.userId, w) :=
          query_run (hq _ (by simp)) hdb
        cases ho : w.tables.findById g.unicode token.userId with
        | error e =>
          rw [bind_error (hid.trans (by rw [ho]))]
          exact .orphan hp hf hc (by simp [ho])
        | ok found =>
          rw [bind_ok (hid.trans (by rw [ho]))]
          cases found with
          | none => exact .orphan hp hf hc (by simp [ho])
          | some user =>
            simp only
            cases h1 : w.tables.saveUser (user.changePassword (g.hashpw cmd.newPassword d.salt)) with
            | error e =>
              rw [saveUser, bind_error (flush_error (hq .saveUser (by simp)) hdb h1)]
              exact .rejected hp hf hc ho (by simp [h1]) rfl rfl
            | ok s₁ =>
              rw [saveUser, bind_ok (flush_ok (hq .saveUser (by simp)) hdb h1)]
              have ht := tables_flush (w := w) s₁
              have hdb' : (World.db { w with db := w.db.flush [s₁] }).aborted = false := hdb
              cases h2 : Tables.saveResetToken token (s₁.apply w.tables) with
              | error e =>
                rw [← ht] at h2
                rw [saveToken, bind_error (flush_error (hq .saveToken (by simp)) hdb' h2)]
                rw [ht] at h2
                refine .rejected hp hf hc ho ?_ rfl rfl
                intro t₁ t₂ h
                rw [h1, Except.ok.injEq] at h
                simp [← h, h2]
              | ok s₂ =>
                rw [← ht] at h2
                rw [saveToken, bind_ok (flush_ok (hq .saveToken (by simp)) hdb' h2),
                  bind_ok (revokeAllUserSessions_run hq _), bind_ok now_run, tryRecord_run]
                rw [ht] at h2
                have hnow : (commanded (revokeAll user.id w.redis) (revokeAllCost user.id w.redis)
                    { w with db := (w.db.flush [s₁]).flush [s₂] }).redis.now = w.redis.now :=
                  revokeAll_now _ _
                simp only [changePassword_id, hnow]
                exact .completed hp hf hc ho h1 h2

end AuthService.HandlerRuns
