import AuthService.SessionDiscipline
import AuthService.SessionStoreRuns

set_option autoImplicit false

/-! The audit trail replayed: what its rows say about the sessions that are open, and
that the token store says the same. -/
namespace AuthService.AuditTrail
open Uuids PythonText DomainModel KeyedRows AccountTables Transactions FallibleState Fallible
open LabelledRuns RedisSessions RequestPorts RedisTokenStore CommandHandlers HandlerRuns
open CredentialLedgers SessionCoupling SessionStoreRuns SessionDiscipline

/-- The session ids that are open, each with the user its row names. -/
abbrev OpenSessions := UUID → Option (Option UUID)

def setSession (s : Option UUID) (u : Option (Option UUID)) (m : OpenSessions) : OpenSessions :=
  match s with
  | some s => Function.update m s u
  | none => m

/-- What a row of the trail does to the set of open sessions. -/
def applyEvent (row : AuthEventModel) (m : OpenSessions) : OpenSessions :=
  if row.eventType = AuthEventType.value .loginSuccess then setSession row.sessionId (some row.userId) m
  else if row.eventType = AuthEventType.value .sessionRevoked then setSession row.sessionId none m
  else if row.eventType = AuthEventType.value .passwordResetCompleted then
    fun s => (m s).filter (fun u => u ≠ row.userId)
  else m

def replayed (events : List AuthEventModel) : OpenSessions :=
  replay applyEvent events (fun _ => none)

def Renews (s : UUID) (row : AuthEventModel) : Prop :=
  (row.eventType = AuthEventType.value .loginSuccess ∨
    row.eventType = AuthEventType.value .tokenRefreshed) ∧ row.sessionId = some s

instance (s : UUID) (row : AuthEventModel) : Decidable (Renews s row) :=
  inferInstanceAs (Decidable (_ ∧ _))

/-- The instant of the last LOGIN_SUCCESS or TOKEN_REFRESHED row of the session. -/
def lastRenewed (events : List AuthEventModel) (s : UUID) : Option ℕ :=
  (events.filter (fun row => Renews s row)).getLast?.map AuthEventModel.occurredAt

section Append
variable (events : List AuthEventModel) (row : AuthEventModel)

theorem replayed_append : replayed (events ++ [row]) = applyEvent row (replayed events) := by
  simp only [replayed, Session.replay_append, Session.replay_cons, Session.replay_nil]

theorem lastRenewed_append (s : UUID) :
    lastRenewed (events ++ [row]) s =
      if Renews s row then some row.occurredAt else lastRenewed events s := by
  unfold lastRenewed
  rw [List.filter_append]
  split_ifs with h
  · simp [h]
  · simp [h]

end Append

structure Faithful (ttl now : ℕ) (events : List AuthEventModel) (l : SessionLedger) : Prop where
  recorded : ∀ s t, l s = some t → replayed events s = some (some t.owner) ∧
    ∃ i, lastRenewed events s = some i ∧ t.validUntil = i + ttl
  live : ∀ s u, replayed events s = some u →
    ∃ i, lastRenewed events s = some i ∧ (now < i + ttl → ∃ t, l s = some t)

theorem faithful_empty (ttl now : ℕ) : Faithful ttl now [] Ledger.empty where
  recorded s t h := by simp [Ledger.empty] at h
  live s u h := by simp [replayed, replay] at h

section Rows
variable {ttl now : ℕ} {events : List AuthEventModel} {l : SessionLedger} {row : AuthEventModel}

theorem Faithful.opened (h : Faithful ttl now events l) {s : UUID} {t : Ticket UUID String}
    (kind : row.eventType = AuthEventType.value .loginSuccess) (session : row.sessionId = some s)
    (user : row.userId = some t.owner) (timed : t.validUntil = row.occurredAt + ttl) :
    Faithful ttl now (events ++ [row]) (l.issue s t) := by
  have hset : replayed (events ++ [row]) =
      Function.update (replayed events) s (some (some t.owner)) := by
    rw [replayed_append, applyEvent, if_pos kind, session, user, setSession]
  have hrenews : ∀ s', Renews s' row ↔ s' = s := by
    intro s'
    simp only [Renews, kind, session, Option.some.injEq, true_or, true_and, eq_comm]
  constructor
  · intro s' t' hl
    rw [Ledger.issue_apply] at hl
    rw [hset, Function.update_apply, lastRenewed_append]
    simp only [hrenews]
    split_ifs at hl ⊢ with hs
    · rw [Option.some.injEq] at hl
      subst hl
      exact ⟨rfl, _, rfl, timed⟩
    · exact h.recorded s' t' hl
  · intro s' u hu
    rw [hset, Function.update_apply] at hu
    rw [lastRenewed_append, Ledger.issue_apply]
    simp only [hrenews]
    split_ifs at hu ⊢ with hs
    · exact ⟨_, rfl, fun _ => ⟨t, rfl⟩⟩
    · exact h.live s' u hu

theorem Faithful.renewed (h : Faithful ttl now events l) {s : UUID} {old t : Ticket UUID String}
    (kind : row.eventType = AuthEventType.value .tokenRefreshed) (session : row.sessionId = some s)
    (held : l s = some old) (owner : t.owner = old.owner)
    (timed : t.validUntil = row.occurredAt + ttl) :
    Faithful ttl now (events ++ [row]) (l.issue s t) := by
  have hset : replayed (events ++ [row]) = replayed events := by
    rw [replayed_append, applyEvent, kind]
    rfl
  have hrenews : ∀ s', Renews s' row ↔ s' = s := by
    intro s'
    simp only [Renews, kind, session, Option.some.injEq, or_true, true_and, eq_comm]
  constructor
  · intro s' t' hl
    rw [Ledger.issue_apply] at hl
    rw [hset, lastRenewed_append]
    simp only [hrenews]
    split_ifs at hl ⊢ with hs
    · rw [Option.some.injEq] at hl
      subst hl hs
      exact ⟨by rw [(h.recorded s' old held).1, owner], _, rfl, timed⟩
    · exact h.recorded s' t' hl
  · intro s' u hu
    rw [hset] at hu
    rw [lastRenewed_append, Ledger.issue_apply]
    simp only [hrenews]
    split_ifs with hs
    · exact ⟨_, rfl, fun _ => ⟨t, rfl⟩⟩
    · exact h.live s' u hu

theorem Faithful.filtered {l' : SessionLedger} (h : Faithful ttl now events l)
    (quiet : ∀ s, ¬ Renews s row) (hle : ∀ s t, l' s = some t → l s = some t)
    (kept : ∀ s u, replayed (events ++ [row]) s = some u → replayed events s = some u ∧
      ∀ t, l s = some t → some t.owner = u → ∃ t', l' s = some t')
    (open' : ∀ s t, l' s = some t → replayed events s = some (some t.owner) →
      replayed (events ++ [row]) s = some (some t.owner)) :
    Faithful ttl now (events ++ [row]) l' := by
  constructor
  · intro s t hl
    obtain ⟨hu, i, hi, hv⟩ := h.recorded s t (hle s t hl)
    refine ⟨open' s t hl hu, i, ?_, hv⟩
    rw [lastRenewed_append, if_neg (quiet s), hi]
  · intro s u hu
    obtain ⟨hold, hl'⟩ := kept s u hu
    obtain ⟨i, hi, hlive⟩ := h.live s u hold
    refine ⟨i, by rw [lastRenewed_append, if_neg (quiet s), hi], fun hnow => ?_⟩
    obtain ⟨t, ht⟩ := hlive hnow
    refine hl' t ht ?_
    rw [(h.recorded s t ht).1, Option.some.injEq] at hold
    exact hold

theorem Faithful.closed (h : Faithful ttl now events l) {s : UUID}
    (kind : row.eventType = AuthEventType.value .sessionRevoked) (session : row.sessionId = some s) :
    Faithful ttl now (events ++ [row]) (l.close s) := by
  have hset : replayed (events ++ [row]) = Function.update (replayed events) s none := by
    rw [replayed_append, applyEvent, kind, session]
    rfl
  refine h.filtered ?_ (fun s' t hl => (Ledger.close_eq_some.1 hl).2) ?_ ?_
  · intro s' hr
    simp [Renews, kind, AuthEventType.value] at hr
  · intro s' u hu
    rw [hset, Function.update_apply] at hu
    split_ifs at hu with hs
    exact ⟨hu, fun t hl _ => ⟨t, Ledger.close_eq_some.2 ⟨hs, hl⟩⟩⟩
  · intro s' t hl hu
    rw [hset, Function.update_apply, if_neg (Ledger.close_eq_some.1 hl).1, hu]

theorem Faithful.closedOwned (h : Faithful ttl now events l) {uid : UUID}
    (kind : row.eventType = AuthEventType.value .passwordResetCompleted)
    (user : row.userId = some uid) : Faithful ttl now (events ++ [row]) (l.closeOwned uid) := by
  have hset : replayed (events ++ [row]) =
      fun s => (replayed events s).filter (fun u => u ≠ some uid) := by
    rw [replayed_append, applyEvent, kind, user]
    rfl
  refine h.filtered ?_ (fun s t hl => (Ledger.closeOwned_eq_some.1 hl).1) ?_ ?_
  · intro s hr
    simp [Renews, kind, AuthEventType.value] at hr
  · intro s u hu
    rw [hset, Option.filter_eq_some_iff] at hu
    obtain ⟨hold, hne⟩ := hu
    refine ⟨hold, fun t hl ho => ⟨t, Ledger.closeOwned_eq_some.2 ⟨hl, ?_⟩⟩⟩
    rintro rfl
    exact of_decide_eq_true hne ho.symm
  · intro s t hl hu
    have hne := (Ledger.closeOwned_eq_some.1 hl).2
    rw [hset, Option.filter_eq_some_iff]
    exact ⟨hu, decide_eq_true fun he => hne (Option.some.inj he)⟩

def Silent (row : AuthEventModel) : Prop :=
  row.eventType = AuthEventType.value .loginFailed ∨
    row.eventType = AuthEventType.value .passwordResetRequested

theorem Faithful.silent (h : Faithful ttl now events l) (kind : Silent row) :
    Faithful ttl now (events ++ [row]) l := by
  have hset : replayed (events ++ [row]) = replayed events := by
    rw [replayed_append, applyEvent]
    rcases kind with kind | kind <;> rw [kind] <;> rfl
  refine h.filtered ?_ (fun s t => id) ?_ ?_
  · intro s hr
    rcases kind with kind | kind <;> simp [Renews, kind, AuthEventType.value] at hr
  · intro s u hu
    rw [hset] at hu
    exact ⟨hu, fun t hl _ => ⟨t, hl⟩⟩
  · intro s t _ hu
    rw [hset, hu]

theorem Faithful.silentRows (h : Faithful ttl now events l) {rows : List AuthEventModel}
    (kind : ∀ row ∈ rows, Silent row) : Faithful ttl now (events ++ rows) l := by
  induction rows generalizing events with
  | nil => rwa [List.append_nil]
  | cons row rest ih =>
    rw [List.append_cons]
    exact ih (h.silent (kind row (by simp))) (fun r hr => kind r (by simp [hr]))

theorem Faithful.elapse (h : Faithful ttl now events l) (d : ℕ) :
    Faithful ttl (now + d) events (l.elapse (now + d)) := by
  constructor
  · exact fun s t hl => h.recorded s t (Ledger.elapse_eq_some.1 hl).1
  · intro s u hu
    obtain ⟨i, hi, hlive⟩ := h.live s u hu
    refine ⟨i, hi, fun hnow => ?_⟩
    obtain ⟨t, ht⟩ := hlive (by omega)
    obtain ⟨-, j, hj, hv⟩ := h.recorded s t ht
    rw [hi, Option.some.injEq] at hj
    exact ⟨t, Ledger.elapse_eq_some.2 ⟨ht, by omega⟩⟩

theorem Faithful.live_iff (h : Faithful ttl now events l)
    (timely : ∀ s t, l s = some t → now < t.validUntil) (s : UUID) :
    (∃ t, l s = some t) ↔ replayed events s ≠ none ∧
      ∃ i, lastRenewed events s = some i ∧ now < i + ttl := by
  constructor
  · rintro ⟨t, hl⟩
    obtain ⟨hu, i, hi, hv⟩ := h.recorded s t hl
    exact ⟨by simp [hu], i, hi, hv ▸ timely s t hl⟩
  · rintro ⟨hu, i, hi, hnow⟩
    obtain ⟨u, hu⟩ := Option.ne_none_iff_exists'.1 hu
    obtain ⟨j, hj, hlive⟩ := h.live s u hu
    rw [hi, Option.some.injEq] at hj
    exact hlive (hj ▸ hnow)

end Rows

def begun (w : World) : World := { w with commands := 0 }

theorem begun_redis (w : World) : (begun w).redis = w.redis := rfl

/-- A handler in the transaction of its request, which commits whatever the handler raised. -/
def transacted {α : Type} (m : AuthM α) (w : World) : Except Exn α × World :=
  let out := m (begun w)
  (out.1, { out.2 with db := out.2.db.commit Statement.apply })

theorem transacted_redis {α : Type} (m : AuthM α) (w : World) :
    (transacted m w).2.redis = (m (begun w)).2.redis := rfl

theorem transacted_db {α : Type} (m : AuthM α) (w : World) :
    (transacted m w).2.db = (m (begun w)).2.db.commit Statement.apply := rfl

section Commit
variable {before db : Session Tables Statement}

theorem commit_flush (hw : before.Fresh) (row : AuthEventModel) :
    ((before.flush [.insertEvent row]).commit Statement.apply).committed =
      (Statement.insertEvent row).apply before.committed := by
  rw [Session.commit_committed _ _ (show (before.flush _).aborted = false from hw.2),
    Session.view_flush, Session.view_fresh _ hw]
  rfl

def Writes (before : Session Tables Statement) (rows : List AuthEventModel)
    (db : Session Tables Statement) : Prop :=
  (db.commit Statement.apply).committed.authEvents = before.committed.authEvents ++ rows

theorem writes_none (hw : before.Fresh) : Writes before [] before := by
  rw [Writes, Session.commit_of_fresh _ hw, List.append_nil]

theorem writes_rollback (h : db.committed = before.committed) (ha : db.aborted = true) :
    Writes before [] db := by
  simp [Writes, Session.commit, ha, h]

theorem writes_flushed (ha : db.aborted = false)
    (same : (db.view Statement.apply).authEvents = before.committed.authEvents) :
    Writes before [] db := by
  rw [Writes, Session.commit_committed _ _ ha, same, List.append_nil]

theorem writes_event (hw : before.Fresh) (row : AuthEventModel) :
    Writes before [row] (before.flush [.insertEvent row]) := by
  rw [Writes, commit_flush hw]
  rfl

end Commit

section Handlers
variable {g : GlobalContainer} {w : World}

inductive LoginTrail (g : GlobalContainer) (cmd : AuthenticateUserCommand) (d : LoginDraws)
    (w : World) : Except Exn TokenPairDTO × World → Prop where
  | declined {e : Exn} {w' : World} (other : ∀ m, e ≠ .invalidCredentialsError m)
      (redis : w'.redis = w.redis) (db : w'.db = w.db) : LoginTrail g cmd d w (.error e, w')
  | rejected {m : String} {w' : World} {row : AuthEventModel}
      (kind : row.eventType = AuthEventType.value .loginFailed) (redis : w'.redis = w.redis)
      (db : w'.db = w.db.flush [.insertEvent row]) (signed : w'.signed = w.signed)
      (sent : w'.sentEmails = w.sentEmails) :
      LoginTrail g cmd d w (.error (.invalidCredentialsError m), w')
  | opened {p : TokenPairDTO} {uid : UUID} {w' : World} {row : AuthEventModel}
      (kind : row.eventType = AuthEventType.value .loginSuccess)
      (session : row.sessionId = some d.sessionId) (user : row.userId = some uid)
      (timed : row.occurredAt = w.redis.now)
      (redis : w'.redis = createPipeline (g.isoformat w.redis.now) d.sessionId uid d.jti.str
        d.refreshToken.text (trimDeviceInfo cmd.deviceInfo) g.accessTokenTtlSeconds
        g.refreshTokenTtlSeconds w.redis)
      (db : w'.db = w.db.flush [.insertEvent row]) : LoginTrail g cmd d w (.ok p, w')

theorem audited_db {dto : AuditEventDTO} (hdb : w.db.aborted = false) :
    (w.audited noFaults dto).db = w.db.flush [.insertEvent dto.toModel] := by
  rw [audited_of_success rfl hdb]

theorem writes_audited {w₁ : World} {dto : AuditEventDTO} (alive : w₁.db.aborted = false)
    (same : w₁.tables.authEvents = w.db.committed.authEvents) :
    Writes w.db [dto.toModel] (w₁.audited noFaults dto).db := by
  rw [Writes, audited_db alive, Session.commit_committed _ _
    (by exact alive), Session.view_flush, ← same]
  rfl

theorem rejected_trail {cmd : AuthenticateUserCommand} {d : LoginDraws} {w₁ : World}
    (hdb : w.db.aborted = false) (hd : w₁.db = w.db) (hr : w₁.redis = w.redis)
    (hs : w₁.signed = w.signed) (hm : w₁.sentEmails = w.sentEmails) {dto : AuditEventDTO}
    (kind : dto.eventType = .loginFailed) (m : String) :
    LoginTrail g cmd d w (.error (.invalidCredentialsError m), w₁.audited noFaults dto) := by
  have hkind : dto.toModel.eventType = AuthEventType.value .loginFailed := by
    rw [AuditEventDTO.toModel, kind]
  refine .rejected hkind ?_ ?_ ?_ ?_
  · rw [audited_redis, hr]
  · rw [audited_db (by rw [hd, hdb]), hd]
  · rw [audited_signed, hs]
  · rw [audited_sentEmails, hm]

theorem authenticateUser_trail (hdb : w.db.aborted = false) (cmd : AuthenticateUserCommand)
    (d : LoginDraws) : LoginTrail g cmd d w (authenticateUser g noFaults cmd d w) := by
  unfold authenticateUser
  cases he : Email.new g.unicode cmd.email with
  | error e =>
    obtain ⟨m, rfl⟩ := Email.new_error he
    exact .declined (by simp) rfl rfl
  | ok email =>
    rw [bind_ok (ofExcept_run _ _)]
    have hf : findByEmail g noFaults email w = (w.tables.findByEmail g.unicode email.value, w) :=
      query_run rfl hdb
    cases hfound : w.tables.findByEmail g.unicode email.value with
    | error e =>
      rw [bind_error (hf.trans (by rw [hfound]))]
      obtain ⟨m, rfl⟩ := findByEmail_error hfound
      exact .declined (by simp) rfl rfl
    | ok found =>
      rw [bind_ok (hf.trans (by rw [hfound]))]
      cases found with
      | none =>
        obtain ⟨w₁, hw₁, hr, hs, hd, hm⟩ :=
          verifyDummy_run (g := g) (w := w) cmd.password d.dummySalt
        simp only
        rw [bind_ok hw₁, bind_ok recordLoginFailed_run, raise_run]
        exact rejected_trail hdb hd hr hs hm rfl _
      | some user =>
        simp only
        split_ifs with h1 h2
        · rw [bind_ok recordLoginFailed_run, raise_run]
          exact rejected_trail hdb rfl rfl rfl rfl rfl _
        · rw [bind_ok recordLoginFailed_run, raise_run]
          exact rejected_trail hdb rfl rfl rfl rfl rfl _
        · rw [bind_ok (generateAccessToken_run _ _ _), createSession,
            bind_ok (command_run quiet_noFaults), bind_ok now_run, bind_ok (tryRecord_run _), pure_run]
          simp only [create_now]
          exact .opened rfl rfl rfl rfl (audited_redis _) (audited_db hdb)

theorem refreshToken_trail (hdb : w.db.aborted = false) (cmd : RefreshTokenCommand) (d : RefreshDraws) :
    (∀ e, (refreshToken g noFaults cmd d w).1 = .error e →
      (refreshToken g noFaults cmd d w).2.db = w.db) ∧
    ∀ p, (refreshToken g noFaults cmd d w).1 = .ok p → ∃ row,
      (refreshToken g noFaults cmd d w).2.db = w.db.flush [.insertEvent row] ∧
      row.eventType = AuthEventType.value .tokenRefreshed ∧ row.sessionId = some p.sessionId ∧
      row.occurredAt = w.redis.now := by
  have hquiet : Quiet noFaults := quiet_noFaults
  unfold refreshToken getSessionByRefreshToken
  rw [bind_run, bind_ok (command_run hquiet)]
  cases hraw : w.redis.refresh.value cmd.refreshToken with
  | none =>
    simp only [getdel, hraw, pure_run, raise_run]
    simp
  | some raw =>
    simp only [getdel, hraw]
    cases hsplit : splitColon raw with
    | none => simp
    | some parts =>
      obtain ⟨a, b⟩ := parts
      simp only [pure_run]
      cases hu : UUID.parse a with
      | none => simp
      | some u =>
        cases hs : UUID.parse b with
        | none => simp
        | some s =>
          simp only
          rw [bind_ok (generateAccessToken_run _ _ _), rotateSession, bind_run,
            bind_ok (getSession_run hquiet _)]
          cases hh : w.redis.session.value s with
          | none => simp [commanded]
          | some h =>
            cases hv : h.userId with
            | none => simp [commanded, hv]
            | some v =>
              simp only [commanded, hv]
              rw [command_run hquiet]
              simp only
              rw [bind_ok now_run, bind_ok (tryRecord_run _), pure_run]
              simp only [rotate_now]
              refine ⟨by simp, fun p hp => ?_⟩
              rw [Except.ok.injEq] at hp
              subst hp
              exact ⟨_, audited_db hdb, rfl, rfl, rfl⟩

theorem revokeSessionHandler_trail (hdb : w.db.aborted = false) (cmd : RevokeSessionCommand)
    (d : RevokeDraws) :
    (revokeSessionHandler noFaults cmd d w).2.redis = revokeOne cmd.sessionId w.redis ∧
    ∃ row, (revokeSessionHandler noFaults cmd d w).2.db = w.db.flush [.insertEvent row] ∧
      row.eventType = AuthEventType.value .sessionRevoked ∧ row.sessionId = some cmd.sessionId := by
  unfold revokeSessionHandler
  rw [bind_ok (getSession_run quiet_noFaults _), bind_ok (revokeSession_run quiet_noFaults _),
    bind_ok now_run, tryRecord_run]
  exact ⟨audited_redis _, _, audited_db hdb, rfl, rfl⟩

theorem requestPasswordReset_trail (hw : w.db.Fresh) (cmd : RequestPasswordResetCommand)
    (d : RequestResetDraws) :
    (requestPasswordReset g noFaults cmd d w).2.redis = w.redis ∧
    ∃ rows, Writes w.db rows (requestPasswordReset g noFaults cmd d w).2.db ∧ ∀ row ∈ rows,
      Silent row := by
  have hout := requestPasswordReset_outcome (g := g) (w := w) quiet_noFaults hw.2 cmd d
  generalize requestPasswordReset g noFaults cmd d w = out at hout ⊢
  cases hout with
  | refused unknown => exact ⟨rfl, [], writes_none hw, by simp⟩
  | rejected address found clash => exact ⟨rfl, [], writes_rollback rfl rfl, by simp⟩
  | @issued email user stmt address found saved =>
    refine ⟨audited_redis _, [AuditEventDTO.toModel ⟨d.eventId, .passwordResetRequested, w.redis.now,
      some user.id, none, cmd.ipAddress, []⟩], ?_, ?_⟩
    · refine writes_audited (by exact hw.2) ?_
      simp only [World.tables, Session.view_flush, Session.view_fresh _ hw, Session.replay_cons,
        Session.replay_nil]
      obtain ⟨-, ⟨-, rfl⟩ | ⟨old, -, rfl⟩⟩ := saveResetToken_ok saved <;> rfl
    · intro row hrow
      rw [List.mem_singleton.1 hrow]
      exact .inr rfl

theorem resetPassword_trail (hw : w.db.Fresh) (cmd : ResetPasswordCommand) (d : ResetDraws) :
    (resetPassword g noFaults cmd d w).2.redis = w.redis ∧
        Writes w.db [] (resetPassword g noFaults cmd d w).2.db ∨
      ∃ uid row, (resetPassword g noFaults cmd d w).2.redis = revokeAll uid w.redis ∧
        Writes w.db [row] (resetPassword g noFaults cmd d w).2.db ∧
        row.eventType = AuthEventType.value .passwordResetCompleted ∧ row.userId = some uid := by
  have hout := resetPassword_outcome (g := g) (w := w) quiet_noFaults hw.2 cmd d
  generalize resetPassword g noFaults cmd d w = out at hout ⊢
  cases hout with
  | weak password => exact .inl ⟨rfl, writes_none hw⟩
  | missing password absent => exact .inl ⟨rfl, writes_none hw⟩
  | unusable password found consumed => exact .inl ⟨rfl, writes_none hw⟩
  | orphan password found consumed unknown => exact .inl ⟨rfl, writes_none hw⟩
  | rejected password found consumed owner clash committed aborted =>
    exact .inl ⟨rfl, writes_rollback committed aborted⟩
  | @completed p stored token user s₁ s₂ password found consumed owner savedUser savedToken =>
    refine .inr ⟨user.id, AuditEventDTO.toModel ⟨d.eventId, .passwordResetCompleted, w.redis.now,
      some user.id, none, cmd.ipAddress, []⟩, audited_redis _, ?_, rfl, rfl⟩
    refine writes_audited (by exact hw.2) ?_
    simp only [commanded, World.tables, Session.view_flush, Session.view_fresh _ hw,
      Session.replay_cons, Session.replay_nil]
    obtain ⟨-, ⟨-, rfl⟩ | ⟨old, -, rfl⟩⟩ := saveUser_ok savedUser <;>
      obtain ⟨-, ⟨-, rfl⟩ | ⟨old', -, rfl⟩⟩ := saveResetToken_ok savedToken <;> rfl

theorem registerUser_trail (hw : w.db.Fresh) (cmd : RegisterUserCommand) (d : RegisterDraws) :
    (registerUser g noFaults cmd d w).2.redis = w.redis ∧
      Writes w.db [] (registerUser g noFaults cmd d w).2.db := by
  unfold registerUser
  cases he : Email.new g.unicode cmd.email with
  | error e => exact ⟨rfl, writes_none hw⟩
  | ok email =>
    rw [bind_ok (ofExcept_run _ _)]
    cases hp : PlainPassword.new g.unicode cmd.password with
    | error e => exact ⟨rfl, writes_none hw⟩
    | ok p =>
      rw [bind_ok (ofExcept_run _ _)]
      have hf : findByEmail g noFaults email w = (w.tables.findByEmail g.unicode email.value, w) :=
        query_run rfl hw.2
      cases hfound : w.tables.findByEmail g.unicode email.value with
      | error e =>
        rw [bind_error (hf.trans (by rw [hfound]))]
        exact ⟨rfl, writes_none hw⟩
      | ok found =>
        rw [bind_ok (hf.trans (by rw [hfound]))]
        cases found with
        | some user => exact ⟨rfl, writes_none hw⟩
        | none =>
          simp only
          rw [bind_ok now_run]
          cases hs : w.tables.saveUser (⟨d.userId, email, g.hashpw cmd.password d.salt, true,
              w.redis.now⟩ : User g.unicode) with
          | error e =>
            rw [saveUser, flush_error rfl hw.2 hs]
            exact ⟨rfl, writes_rollback rfl rfl⟩
          | ok stmt =>
            rw [saveUser, flush_ok rfl hw.2 hs]
            refine ⟨rfl, writes_flushed (by exact hw.2) ?_⟩
            rw [Session.view_flush, Session.view_fresh _ hw]
            obtain ⟨-, ⟨-, rfl⟩ | ⟨old, -, rfl⟩⟩ := saveUser_ok hs <;> rfl

end Handlers

inductive HandlerCall where
  | register (cmd : RegisterUserCommand) (d : RegisterDraws)
  | login (cmd : AuthenticateUserCommand) (d : LoginDraws)
  | refresh (cmd : RefreshTokenCommand) (d : RefreshDraws)
  | revokeSession (cmd : RevokeSessionCommand) (d : RevokeDraws)
  | requestPasswordReset (cmd : RequestPasswordResetCommand) (d : RequestResetDraws)
  | resetPassword (cmd : ResetPasswordCommand) (d : ResetDraws)
  | wait (d : ℕ)

def HandlerCall.worldAfter (g : GlobalContainer) (c : HandlerCall) (w : World) : World :=
  match c with
  | .register cmd d => (transacted (registerUser g noFaults cmd d) w).2
  | .login cmd d => (transacted (authenticateUser g noFaults cmd d) w).2
  | .refresh cmd d => (transacted (refreshToken g noFaults cmd d) w).2
  | .revokeSession cmd d => (transacted (revokeSessionHandler noFaults cmd d) w).2
  | .requestPasswordReset cmd d =>
    (transacted (CommandHandlers.requestPasswordReset g noFaults cmd d) w).2
  | .resetPassword cmd d => (transacted (CommandHandlers.resetPassword g noFaults cmd d) w).2
  | .wait d => { w with redis := w.redis.advance d }

def HandlerCall.Fresh (c : HandlerCall) (drawn : Drawn) : Prop :=
  match c with
  | .login _ d => d.sessionId ∉ drawn.sessions.map Prod.fst ∧ d.jti.str ∉ drawn.jtis ∧
      d.refreshToken.text ∉ drawn.refreshTokens
  | .refresh _ d => d.jti.str ∉ drawn.jtis ∧ d.refreshToken.text ∉ drawn.refreshTokens
  | _ => True

def HandlerCall.record (c : HandlerCall) (r' : Redis) (drawn : Drawn) : Drawn :=
  match c with
  | .login _ d => drawn.opened d.sessionId d.jti.str d.refreshToken.text r'
  | .refresh _ d => drawn.renewed d.jti.str d.refreshToken.text
  | _ => drawn

structure TrailState where
  world : World
  drawn : Drawn

def TrailState.events (v : TrailState) : List AuthEventModel := v.world.db.committed.authEvents

def handlerRuns (g : GlobalContainer) : System TrailState HandlerCall where
  init v := (∃ now, v.world.redis = Redis.blank now) ∧ v.world.db.Fresh ∧ v.events = [] ∧
    v.drawn = Drawn.none
  step v c v' := c.Fresh v.drawn ∧ v'.world = c.worldAfter g v.world ∧
    v'.drawn = c.record v'.world.redis v.drawn

def TrailInvariant (g : GlobalContainer) (v : TrailState) : Prop :=
  v.world.db.Fresh ∧ ∃ l, Consistent (seconds g.refreshTokenTtlSeconds) v.drawn v.world.redis l ∧
    Faithful (seconds g.refreshTokenTtlSeconds) v.world.redis.now v.events l

theorem transacted_fresh {α : Type} (m : AuthM α) (w : World) : (transacted m w).2.db.Fresh := by
  rw [transacted_db]
  exact Session.commit_fresh _ _

theorem worldAfter_fresh (g : GlobalContainer) (c : HandlerCall) {w : World} (hw : w.db.Fresh) :
    (c.worldAfter g w).db.Fresh := by
  cases c with
  | wait d => exact hw
  | _ => exact transacted_fresh _ w

section Steps
variable {g : GlobalContainer} {v v' : TrailState} {l : SessionLedger}

theorem trail_intro (hw : v'.world.db.Fresh)
    (hc : Consistent (seconds g.refreshTokenTtlSeconds) v'.drawn v'.world.redis l)
    (hf : Faithful (seconds g.refreshTokenTtlSeconds) v'.world.redis.now v'.events l) :
    TrailInvariant g v' := ⟨hw, l, hc, hf⟩

theorem trail_silent (rows : List AuthEventModel) (hw : v'.world.db.Fresh)
    (hc : Consistent (seconds g.refreshTokenTtlSeconds) v.drawn v.world.redis l)
    (hf : Faithful (seconds g.refreshTokenTtlSeconds) v.world.redis.now v.events l)
    (redis : v'.world.redis = v.world.redis) (sessions : v'.drawn.sessions = v.drawn.sessions)
    (jtis : v.drawn.jtis ⊆ v'.drawn.jtis) (tokens : v.drawn.refreshTokens ⊆ v'.drawn.refreshTokens)
    (events : v'.events = v.events ++ rows)
    (kind : ∀ row ∈ rows, Silent row) : TrailInvariant g v' := by
  refine trail_intro hw (l := l) ?_ ?_
  · rw [redis]
    exact hc.mono sessions jtis tokens
  · rw [redis, events]
    exact hf.silentRows kind

theorem trailInvariant_login (hpos : 0 < g.accessTokenTtlSeconds)
    (hle : g.accessTokenTtlSeconds ≤ g.refreshTokenTtlSeconds) (hw : v.world.db.Fresh)
    (hw' : v'.world.db.Fresh)
    (hc : Consistent (seconds g.refreshTokenTtlSeconds) v.drawn v.world.redis l)
    (hf : Faithful (seconds g.refreshTokenTtlSeconds) v.world.redis.now v.events l)
    {cmd : AuthenticateUserCommand} {d : LoginDraws} (hfresh : (HandlerCall.login cmd d).Fresh v.drawn)
    (hworld : v'.world = (transacted (authenticateUser g noFaults cmd d) v.world).2)
    (hdrawn : v'.drawn = v.drawn.opened d.sessionId d.jti.str d.refreshToken.text v'.world.redis) :
    TrailInvariant g v' := by
  obtain ⟨hsid, hj, ht⟩ := hfresh
  have hout := authenticateUser_trail (g := g) (w := begun v.world) hw.2 cmd d
  rw [transacted] at hworld
  generalize authenticateUser g noFaults cmd d (begun v.world) = out at hout hworld
  have huntouched : v'.world.redis = v.world.redis → v'.drawn.sessions = v.drawn.sessions := by
    intro hr
    rw [hdrawn, hr]
    exact hc.opened_sessions _ _ hsid
  have hjtis : v.drawn.jtis ⊆ v'.drawn.jtis := by
    rw [hdrawn]
    exact List.subset_cons_self _ _
  have htokens : v.drawn.refreshTokens ⊆ v'.drawn.refreshTokens := by
    rw [hdrawn]
    exact List.subset_cons_self _ _
  cases hout with
  | @declined e w' other redis db =>
    have hr : v'.world.redis = v.world.redis := by
      rw [hworld]
      exact redis
    refine trail_silent [] hw' hc hf hr (huntouched hr) hjtis htokens ?_ (by simp)
    rw [TrailState.events, hworld]
    simp only [db]
    exact writes_none hw
  | @rejected m w' row kind redis db signed sent =>
    have hr : v'.world.redis = v.world.redis := by
      rw [hworld]
      exact redis
    refine trail_silent [row] hw' hc hf hr (huntouched hr) hjtis htokens ?_ ?_
    · rw [TrailState.events, hworld]
      simp only [db]
      exact writes_event hw row
    · intro r hrow
      rw [List.mem_singleton.1 hrow]
      exact .inl kind
  | @opened p uid w' row kind session user timed redis db =>
    have hr : v'.world.redis = w'.redis := by rw [hworld]
    have hnow : v'.world.redis.now = v.world.redis.now := by
      rw [hr, redis, create_now, begun_redis]
    refine trail_intro (l := l.issue d.sessionId (freshTicket uid d.jti.str d.refreshToken.text
      g.accessTokenTtlSeconds g.refreshTokenTtlSeconds v.world.redis.now)) hw' ?_ ?_
    · rw [hdrawn, hr, redis]
      exact consistent_create hc hpos hle hsid hj ht (str_ne_empty _) d.refreshToken.ne_empty
    · have hevents : v'.events = v.events ++ [row] := by
        rw [TrailState.events, hworld]
        simp only [db]
        exact writes_event hw row
      rw [hnow, hevents]
      exact hf.opened kind session user (by rw [timed, begun_redis, freshTicket])

theorem trailInvariant_refresh (hpos : 0 < g.accessTokenTtlSeconds)
    (hle : g.accessTokenTtlSeconds ≤ g.refreshTokenTtlSeconds) (hw : v.world.db.Fresh)
    (hw' : v'.world.db.Fresh)
    (hc : Consistent (seconds g.refreshTokenTtlSeconds) v.drawn v.world.redis l)
    (hf : Faithful (seconds g.refreshTokenTtlSeconds) v.world.redis.now v.events l)
    {cmd : RefreshTokenCommand} {d : RefreshDraws} (hfresh : (HandlerCall.refresh cmd d).Fresh v.drawn)
    (hworld : v'.world = (transacted (refreshToken g noFaults cmd d) v.world).2)
    (hdrawn : v'.drawn = v.drawn.renewed d.jti.str d.refreshToken.text) : TrailInvariant g v' := by
  obtain ⟨hj, ht⟩ := hfresh
  have hout := refresh_consistent (g := g) (w := begun v.world) quiet_noFaults hpos hle
    hc cmd hj ht
  have htrail := refreshToken_trail (g := g) (w := begun v.world) hw.2 cmd d
  rw [transacted] at hworld
  generalize refreshToken g noFaults cmd d (begun v.world) = out at hout htrail hworld
  obtain ⟨x, w'⟩ := out
  have hr : v'.world.redis = w'.redis := by rw [hworld]
  have hev : v'.events = (w'.db.commit Statement.apply).committed.authEvents := by
    rw [TrailState.events, hworld]
  rcases hout with ⟨⟨e, he⟩, hsame, -⟩ | ⟨s, t, hl, -, hok, -, hnow, hnew⟩
  · refine trail_silent [] hw' hc hf (hr.trans hsame) (by rw [hdrawn]; rfl) ?_ ?_ ?_ (by simp)
    · rw [hdrawn]
      exact List.subset_cons_self _ _
    · rw [hdrawn]
      exact List.subset_cons_self _ _
    · rw [hev, htrail.1 e he]
      exact writes_none hw
  · obtain ⟨row, hdb, kind, session, timed⟩ := htrail.2 _ hok
    refine trail_intro hw' (l := l.issue s (freshTicket t.owner d.jti.str d.refreshToken.text
      g.accessTokenTtlSeconds g.refreshTokenTtlSeconds v.world.redis.now)) ?_ ?_
    · rw [hdrawn, hr]
      exact hnew
    · have hevents : v'.events = v.events ++ [row] := by
        rw [hev, hdb]
        exact writes_event hw row
      rw [hr, hnow, hevents]
      refine hf.renewed kind session hl ?_ ?_
      · rw [freshTicket]
      · rw [timed, begun_redis, freshTicket]

theorem trailInvariant_step (g : GlobalContainer) (hpos : 0 < g.accessTokenTtlSeconds)
    (hle : g.accessTokenTtlSeconds ≤ g.refreshTokenTtlSeconds) (v : TrailState) (c : HandlerCall)
    (v' : TrailState) (h : TrailInvariant g v) (hs : (handlerRuns g).step v c v') :
    TrailInvariant g v' := by
  obtain ⟨hw, l, hc, hf⟩ := h
  obtain ⟨hfresh, hworld, hdrawn⟩ := hs
  have hw' : v'.world.db.Fresh := hworld ▸ worldAfter_fresh g c hw
  cases c with
  | register cmd d =>
    obtain ⟨hr, hrows⟩ := registerUser_trail (g := g) (w := begun v.world) hw cmd d
    refine trail_silent [] hw' hc hf ?_ (congrArg Drawn.sessions hdrawn)
      (by rw [hdrawn]; exact fun _ => id) (by rw [hdrawn]; exact fun _ => id) ?_ (by simp)
    · rw [hworld, HandlerCall.worldAfter, transacted_redis, hr, begun_redis]
    · rw [TrailState.events, hworld, HandlerCall.worldAfter]
      exact hrows
  | login cmd d => exact trailInvariant_login hpos hle hw hw' hc hf hfresh hworld hdrawn
  | refresh cmd d => exact trailInvariant_refresh hpos hle hw hw' hc hf hfresh hworld hdrawn
  | revokeSession cmd d =>
    obtain ⟨hr, row, hdb, kind, session⟩ :=
      revokeSessionHandler_trail (w := begun v.world) hw.2 cmd d
    have hredis : v'.world.redis = revokeOne cmd.sessionId v.world.redis := by
      rw [hworld, HandlerCall.worldAfter, transacted_redis, hr, begun_redis]
    refine trail_intro hw' (l := l.close cmd.sessionId) ?_ ?_
    · rw [show v'.drawn = v.drawn from hdrawn, hredis]
      exact consistent_revokeOne hc _
    · have hevents : v'.events = v.events ++ [row] := by
        rw [TrailState.events, hworld, HandlerCall.worldAfter, transacted_db, hdb]
        exact writes_event hw row
      rw [hredis, revokeOne_now, hevents]
      exact hf.closed kind session
  | requestPasswordReset cmd d =>
    obtain ⟨hr, rows, hrows, kind⟩ :=
      requestPasswordReset_trail (g := g) (w := begun v.world) hw cmd d
    refine trail_silent rows hw' hc hf ?_ (congrArg Drawn.sessions hdrawn)
      (by rw [hdrawn]; exact fun _ => id) (by rw [hdrawn]; exact fun _ => id) ?_ kind
    · rw [hworld, HandlerCall.worldAfter, transacted_redis, hr, begun_redis]
    · rw [TrailState.events, hworld, HandlerCall.worldAfter]
      exact hrows
  | resetPassword cmd d =>
    rcases resetPassword_trail (g := g) (w := begun v.world) hw cmd d
      with ⟨hr, hrows⟩ | ⟨uid, row, hr, hrows, kind, user⟩
    · refine trail_silent [] hw' hc hf ?_ (congrArg Drawn.sessions hdrawn)
        (by rw [hdrawn]; exact fun _ => id) (by rw [hdrawn]; exact fun _ => id) ?_ (by simp)
      · rw [hworld, HandlerCall.worldAfter, transacted_redis, hr, begun_redis]
      · rw [TrailState.events, hworld, HandlerCall.worldAfter]
        exact hrows
    · have hredis : v'.world.redis = revokeAll uid v.world.redis := by
        rw [hworld]
        exact hr
      refine trail_intro hw' (l := l.closeOwned uid) ?_ ?_
      · rw [show v'.drawn = v.drawn from hdrawn, hredis]
        exact consistent_revokeAll hc uid
      · have hevents : v'.events = v.events ++ [row] := by
          rw [TrailState.events, hworld, HandlerCall.worldAfter]
          exact hrows
        rw [hredis, revokeAll_now, hevents]
        exact hf.closedOwned kind user
  | wait d =>
    refine trail_intro hw' (l := l.elapse (v.world.redis.now + d)) ?_ ?_
    · rw [show v'.drawn = v.drawn from hdrawn, hworld]
      exact consistent_advance hc d
    · rw [TrailState.events, hworld]
      exact hf.elapse d

theorem trailInvariant_reachable (hpos : 0 < g.accessTokenTtlSeconds)
    (hle : g.accessTokenTtlSeconds ≤ g.refreshTokenTtlSeconds) (h : Reachable (handlerRuns g) v) :
    TrailInvariant g v := by
  refine h.invariant (TrailInvariant g) ?_ (trailInvariant_step g hpos hle)
  rintro ⟨w, drawn⟩ ⟨⟨now, hredis⟩, hw, hev, hdrawn⟩
  refine trail_intro hw (l := Ledger.empty) ?_ ?_
  · rw [hredis, hdrawn]
    exact consistent_blank _ now
  · rw [hev]
    exact faithful_empty _ _

theorem rejected_login_adds_row {cmd : AuthenticateUserCommand} {d : LoginDraws} {w : World}
    (hw : w.db.Fresh) {m : String}
    (hrej : (transacted (authenticateUser g noFaults cmd d) w).1 =
      .error (.invalidCredentialsError m)) :
    ∃ row, row.eventType = AuthEventType.value .loginFailed ∧
      (transacted (authenticateUser g noFaults cmd d) w).2.db.committed =
        { w.db.committed with authEvents := w.db.committed.authEvents ++ [row] } ∧
      (transacted (authenticateUser g noFaults cmd d) w).2.redis = w.redis ∧
      (transacted (authenticateUser g noFaults cmd d) w).2.signed = w.signed ∧
      (transacted (authenticateUser g noFaults cmd d) w).2.sentEmails = w.sentEmails := by
  have hout := authenticateUser_trail (g := g) (w := begun w) hw.2 cmd d
  rw [transacted] at hrej ⊢
  generalize authenticateUser g noFaults cmd d (begun w) = out at hout hrej ⊢
  cases hout with
  | declined other redis db =>
    rw [Except.error.injEq] at hrej
    exact absurd hrej (other m)
  | @rejected m' w' row kind redis db signed sent =>
    refine ⟨row, kind, ?_, redis, signed, sent⟩
    simp only [db]
    exact commit_flush hw row
  | opened kind session user timed redis db => simp at hrej

end Steps

/-- The audit trail is a faithful history of the sessions. -/
theorem audit_trail_faithful {g : GlobalContainer} (hpos : 0 < g.accessTokenTtlSeconds)
    (hle : g.accessTokenTtlSeconds ≤ g.refreshTokenTtlSeconds) {v : TrailState}
    (h : Reachable (handlerRuns g) v) :
    (∀ s, v.world.redis.session s ≠ none ↔ replayed v.events s ≠ none ∧
      ∃ i, lastRenewed v.events s = some i ∧
        v.world.redis.now < i + seconds g.refreshTokenTtlSeconds) ∧
    ∀ cmd d m, (transacted (authenticateUser g noFaults cmd d) v.world).1 =
        .error (.invalidCredentialsError m) → ∃ row,
      row.eventType = AuthEventType.value .loginFailed ∧
      (transacted (authenticateUser g noFaults cmd d) v.world).2.db.committed =
        { v.world.db.committed with authEvents := v.events ++ [row] } ∧
      (transacted (authenticateUser g noFaults cmd d) v.world).2.redis = v.world.redis ∧
      (transacted (authenticateUser g noFaults cmd d) v.world).2.signed = v.world.signed ∧
      (transacted (authenticateUser g noFaults cmd d) v.world).2.sentEmails = v.world.sentEmails := by
  obtain ⟨hw, l, hc, hf⟩ := trailInvariant_reachable hpos hle h
  refine ⟨fun s => ?_, fun cmd d m hrej => rejected_login_adds_row hw hrej⟩
  rw [← hf.live_iff (fun s t hl => (hc.coupled.timely s t hl).1) s]
  constructor
  · intro hs
    cases hl : l s with
    | none => exact absurd (hc.coupled.dead s hl) hs
    | some t => exact ⟨t, rfl⟩
  · rintro ⟨t, hl⟩
    obtain ⟨data, hdata, -⟩ := hc.coupled.session s t hl
    simp [hdata]

section Sample
open SampleContainer

def loggedIn : TrailState :=
  let world := (HandlerCall.login loginCommand loginDraws).worldAfter sample initialWorld
  ⟨world, (HandlerCall.login loginCommand loginDraws).record world.redis Drawn.none⟩

theorem loggedIn_reachable : Reachable (handlerRuns sample) loggedIn := by
  refine ⟨⟨initialWorld, Drawn.none⟩, _, ⟨⟨_, rfl⟩, initialWorld_fresh, rfl, rfl⟩,
    .single (l := HandlerCall.login loginCommand loginDraws) ⟨⟨?_, ?_, ?_⟩, rfl, rfl⟩⟩
  · simp [Drawn.none]
  · simp [Drawn.none]
  · simp [Drawn.none]

theorem audit_trail_faithful_login : loggedIn.world.redis.session sessionOne ≠ none ∧
    ∃ row, row.eventType = AuthEventType.value .loginFailed ∧
      (transacted (authenticateUser sample noFaults { loginCommand with password := "wrong" }
        loginDraws) loggedIn.world).2.db.committed =
          { loggedIn.world.db.committed with authEvents := loggedIn.events ++ [row] } := by
  have h := audit_trail_faithful (g := sample) (by decide) (by decide) loggedIn_reachable
  refine ⟨(h.1 sessionOne).2 ⟨?_, startTime, ?_, ?_⟩, ?_⟩
  · have hs : (replayed loggedIn.events sessionOne).isSome = true := by decide +kernel
    exact Option.isSome_iff_ne_none.1 hs
  · decide +kernel
  · decide +kernel
  · have hx : (transacted (authenticateUser sample noFaults
        { loginCommand with password := "wrong" } loginDraws) loggedIn.world).1 =
          .error (.invalidCredentialsError "Invalid email or password") :=
      refusalMessage_eq_some.1 (by decide +kernel)
    obtain ⟨row, kind, hdb, -⟩ := h.2 _ _ _ hx
    exact ⟨row, kind, hdb⟩

end Sample

end AuthService.AuditTrail
