import AuthService.AccountTables
import AuthService.FallibleState
import AuthService.RedisSessions

set_option autoImplicit false

/-! What a request can reach: the libraries behind the ports, the database session of
the request, Redis, the mailer, and the points at which a port call may fail. -/
namespace AuthService.RequestPorts
open Uuids PythonText DomainModel AccountTables Transactions FallibleState Fallible RedisSessions

/-- `secrets.token_urlsafe(32)`. -/
structure UrlToken where
  text : String
  length : text.length = 43

theorem UrlToken.ne_empty (t : UrlToken) : t.text ≠ "" := by
  intro h
  have hl := t.length
  rw [h] at hl
  exact absurd hl (by decide)

/-- The payload of an access token; instants are whole seconds, as PyJWT writes them. -/
structure Claims where
  sub : String
  sid : String
  jti : String
  iat : ℕ
  exp : ℕ
  deriving DecidableEq

/-- bcrypt, SHA-256, PyJWT's encoder, the Unicode tables and `isoformat`. -/
structure Libraries where
  unicode : Unicode
  isoformat : ℕ → String
  sha256 : String → String
  sha256_length : ∀ s, (sha256 s).length = 64
  hashpw : String → String → String
  hashpw_length : ∀ password salt, (hashpw password salt).length = 60
  checkpw : String → String → Option Bool
  encode : Claims → String
  encode_injective : Function.Injective encode
  encode_ne_empty : ∀ c, encode c ≠ ""
  encode_no_space : ∀ c, ∀ a ∈ (encode c).toList, isSpace a = false

/-- The singletons of the application with their settings. -/
structure GlobalContainer extends Libraries where
  accessTokenTtlSeconds : ℕ
  refreshTokenTtlSeconds : ℕ
  jwtLifetimeSeconds : ℕ
  resetTokenExpireMinutes : ℤ

/-- `GlobalContainer.__init__`: both access lifetimes come from one setting. -/
def GlobalContainer.new (lib : Libraries) (accessTtlMinutes refreshTtlDays : ℕ)
    (resetTokenExpireMinutes : ℤ) : GlobalContainer :=
  { lib with
    accessTokenTtlSeconds := accessTtlMinutes * 60
    refreshTokenTtlSeconds := refreshTtlDays * 24 * 3600
    jwtLifetimeSeconds := accessTtlMinutes * 60
    resetTokenExpireMinutes := resetTokenExpireMinutes }

/-- The payload built by `generate_access_token`. -/
def GlobalContainer.accessClaims (g : GlobalContainer) (now : ℕ) (userId sessionId jti : UUID) :
    Claims :=
  ⟨userId.str, sessionId.str, jti.str, now / 1000, now / 1000 + g.jwtLifetimeSeconds⟩

section AccessClaims
variable {g : GlobalContainer} (now : ℕ) {u s j : UUID}

@[simp] theorem accessClaims_sub : (g.accessClaims now u s j).sub = u.str := rfl

@[simp] theorem accessClaims_sid : (g.accessClaims now u s j).sid = s.str := rfl

@[simp] theorem accessClaims_jti : (g.accessClaims now u s j).jti = j.str := rfl

end AccessClaims

inductive PortCall where
  | findByEmail
  | findById
  | findByToken
  | saveUser
  | saveToken
  | deleteAllByUserId
  | record
  | sendResetEmail
  | redis (n : ℕ)
  deriving DecidableEq

/-- A call raises without effect, or a flush fails and takes the transaction with it. -/
inductive Failure where
  | raises
  | rollsBack
  deriving DecidableEq

abbrev Faults := PortCall → Option Failure

def noFaults : Faults := fun _ => none

/-- The state a request works on. `signed` lists the payloads encoded so far and
`commands` counts the Redis commands of the request. -/
structure World where
  redis : Redis
  db : Session Tables Statement
  sentEmails : List (String × String)
  signed : List Claims
  dummyHash : String
  commands : ℕ

def World.tables (w : World) : Tables := w.db.view Statement.apply

abbrev AuthM := Fallible World Exn

section Ports
variable (g : GlobalContainer) (faults : Faults)

/-- `datetime.now`. -/
def now : AuthM ℕ := fun w => (.ok w.redis.now, w)

def port {α : Type} (c : PortCall) (m : AuthM α) : AuthM α := fun w =>
  match faults c with
  | some .raises => (.error .portError, w)
  | some .rollsBack => (.error .portError, { w with db := w.db.rollback })
  | none => if w.db.aborted then (.error .pendingRollbackError, w) else m w

def query {α : Type} (c : PortCall) (f : Tables → Except Exn α) : AuthM α :=
  port faults c (fun w => (f w.tables, w))

def flush (c : PortCall) (f : Tables → Except Exn Statement) : AuthM Unit :=
  port faults c (fun w =>
    match f w.tables with
    | .ok s => (.ok (), { w with db := w.db.flush [s] })
    | .error e => (.error e, { w with db := w.db.rollback }))

def command {α : Type} (f : Redis → α × Redis) : AuthM α := fun w =>
  match faults (.redis w.commands) with
  | some _ => (.error .portError, { w with commands := w.commands + 1 })
  | none => (.ok (f w.redis).1, { w with redis := (f w.redis).2, commands := w.commands + 1 })

def findByEmail (email : Email g.unicode) : AuthM (Option (User g.unicode)) :=
  query faults .findByEmail (Tables.findByEmail g.unicode email.value)

def findById (id : UUID) : AuthM (Option (User g.unicode)) :=
  query faults .findById (Tables.findById g.unicode id)

def findByToken (token : String) : AuthM (Option PasswordResetToken) :=
  query faults .findByToken (fun t => .ok (t.findByToken token))

def saveUser (user : User g.unicode) : AuthM Unit :=
  flush faults .saveUser (Tables.saveUser user)

def saveToken (token : PasswordResetToken) : AuthM Unit :=
  flush faults .saveToken (Tables.saveResetToken token)

def deleteAllByUserId (userId : UUID) : AuthM Unit :=
  flush faults .deleteAllByUserId (fun t => .ok (t.deleteAllByUserId userId))

/-- `AuditLogRepository.record`. -/
def record (dto : AuditEventDTO) : AuthM Unit :=
  flush faults .record (fun _ => .ok (.insertEvent dto.toModel))

/-- `try: await self._audit_log.record(...) except Exception: pass`. -/
def tryRecord (dto : AuditEventDTO) : AuthM Unit := handle (record faults dto) (fun _ => pure ())

def sendResetEmail (email token : String) : AuthM Unit := fun w =>
  match faults .sendResetEmail with
  | some _ => (.error .portError, w)
  | none => (.ok (), { w with sentEmails := w.sentEmails ++ [(email, token)] })

/-- `BcryptHasher.verify`. -/
def verify (password hashed : String) : Bool := (g.checkpw password hashed).getD false

/-- `generate_access_token`, with the `jti` that was drawn. -/
def generateAccessToken (userId sessionId jti : UUID) : AuthM (String × String) := fun w =>
  let c := g.accessClaims w.redis.now userId sessionId jti
  (.ok (g.encode c, jti.str), { w with signed := c :: w.signed })

/-- `decode_access_token`: a token that was encoded here and whose `exp` is in the future. -/
def decodeAccessToken (token : String) : AuthM Claims := fun w =>
  match w.signed.find? (fun c => g.encode c = token) with
  | none => (.error (.invalidTokenError "Invalid access token"), w)
  | some c =>
    if w.redis.now < seconds c.exp then (.ok c, w)
    else (.error (.tokenExpiredError "Access token has expired"), w)

end Ports

section Runs
variable {g : GlobalContainer} {faults : Faults} {w : World}

/-- Only the audit trail may fail. -/
def Quiet (faults : Faults) : Prop := ∀ c, c ≠ .record → faults c = none

theorem quiet_noFaults : Quiet noFaults := fun _ _ => rfl

@[simp] theorem now_run : now w = (.ok w.redis.now, w) := rfl

theorem port_run {α : Type} {c : PortCall} {m : AuthM α} (hc : faults c = none)
    (hdb : w.db.aborted = false) : port faults c m w = m w := by
  simp [port, hc, hdb]

theorem query_run {α : Type} {c : PortCall} {f : Tables → Except Exn α} (hc : faults c = none)
    (hdb : w.db.aborted = false) : query faults c f w = (f w.tables, w) :=
  port_run hc hdb

theorem flush_ok {c : PortCall} {f : Tables → Except Exn Statement} {s : Statement}
    (hc : faults c = none) (hdb : w.db.aborted = false) (hf : f w.tables = .ok s) :
    flush faults c f w = (.ok (), { w with db := w.db.flush [s] }) := by
  refine (port_run hc hdb).trans ?_
  simp only [hf]

theorem flush_error {c : PortCall} {f : Tables → Except Exn Statement} {e : Exn}
    (hc : faults c = none) (hdb : w.db.aborted = false) (hf : f w.tables = .error e) :
    flush faults c f w = (.error e, { w with db := w.db.rollback }) := by
  refine (port_run hc hdb).trans ?_
  simp only [hf]

theorem flush_raises {c : PortCall} {f : Tables → Except Exn Statement} (hc : faults c = some .raises) :
    flush faults c f w = (.error .portError, w) := by
  simp only [flush, port, hc]

theorem flush_rollsBack {c : PortCall} {f : Tables → Except Exn Statement}
    (hc : faults c = some .rollsBack) :
    flush faults c f w = (.error .portError, { w with db := w.db.rollback }) := by
  simp only [flush, port, hc]

theorem port_eq_ok {α : Type} {c : PortCall} {m : AuthM α} {a : α} {w' : World}
    (h : port faults c m w = (.ok a, w')) :
    faults c = none ∧ w.db.aborted = false ∧ m w = (.ok a, w') := by
  unfold port at h
  split at h
  · simp at h
  · simp at h
  · rename_i hc
    split_ifs at h with hdb
    · simp at h
    · exact ⟨hc, by simpa using hdb, h⟩

theorem query_eq_ok {α : Type} {c : PortCall} {f : Tables → Except Exn α} {a : α} {w' : World}
    (h : query faults c f w = (.ok a, w')) :
    faults c = none ∧ w.db.aborted = false ∧ f w.tables = .ok a ∧ w' = w := by
  obtain ⟨hc, hdb, hrun⟩ := port_eq_ok h
  simp only [Prod.mk.injEq] at hrun
  exact ⟨hc, hdb, hrun.1, hrun.2.symm⟩

theorem flush_eq_ok {c : PortCall} {f : Tables → Except Exn Statement} {w' : World}
    (h : flush faults c f w = (.ok (), w')) :
    faults c = none ∧ w.db.aborted = false ∧
      ∃ s, f w.tables = .ok s ∧ w' = { w with db := w.db.flush [s] } := by
  obtain ⟨hc, hdb, hrun⟩ := port_eq_ok h
  refine ⟨hc, hdb, ?_⟩
  cases hf : f w.tables with
  | error e => simp [hf] at hrun
  | ok s =>
    simp only [hf, Prod.mk.injEq, true_and] at hrun
    exact ⟨s, rfl, hrun.symm⟩

theorem sendResetEmail_eq_ok {email token : String} {w' : World}
    (h : sendResetEmail faults email token w = (.ok (), w')) :
    faults .sendResetEmail = none ∧ w' = { w with sentEmails := w.sentEmails ++ [(email, token)] } := by
  unfold sendResetEmail at h
  split at h
  · simp at h
  · rename_i hc
    simp only [Prod.mk.injEq, true_and] at h
    exact ⟨hc, h.symm⟩

theorem command_run {α : Type} {f : Redis → α × Redis} (hq : Quiet faults) :
    command faults f w =
      (.ok (f w.redis).1, { w with redis := (f w.redis).2, commands := w.commands + 1 }) := by
  simp only [command, hq _ (by simp : PortCall.redis w.commands ≠ .record)]

theorem sendResetEmail_run {email token : String} (hq : Quiet faults) :
    sendResetEmail faults email token w =
      (.ok (), { w with sentEmails := w.sentEmails ++ [(email, token)] }) := by
  simp only [sendResetEmail, hq _ (by simp : PortCall.sendResetEmail ≠ .record)]

/-- The world after an attempt to record an event. -/
def World.audited (faults : Faults) (dto : AuditEventDTO) (w : World) : World :=
  (record faults dto w).2

theorem tryRecord_run (dto : AuditEventDTO) :
    tryRecord faults dto w = (.ok (), w.audited faults dto) := by
  unfold tryRecord World.audited
  cases h : record faults dto w with
  | mk r w' =>
    cases r with
    | ok a => rw [handle_ok h]
    | error e => rw [handle_error h]; rfl

theorem audited_eq (faults : Faults) (dto : AuditEventDTO) (w : World) :
    w.audited faults dto = { w with db := (w.audited faults dto).db } := by
  unfold World.audited record flush port
  cases hf : faults .record with
  | none => by_cases h : w.db.aborted = true <;> simp [h]
  | some f => cases f <;> rfl

@[simp] theorem audited_redis (dto : AuditEventDTO) : (w.audited faults dto).redis = w.redis := by
  rw [audited_eq]

@[simp] theorem audited_signed (dto : AuditEventDTO) : (w.audited faults dto).signed = w.signed := by
  rw [audited_eq]

@[simp] theorem audited_sentEmails (dto : AuditEventDTO) :
    (w.audited faults dto).sentEmails = w.sentEmails := by
  rw [audited_eq]

@[simp] theorem audited_commands (dto : AuditEventDTO) :
    (w.audited faults dto).commands = w.commands := by
  rw [audited_eq]

@[simp] theorem audited_dummyHash (dto : AuditEventDTO) :
    (w.audited faults dto).dummyHash = w.dummyHash := by
  rw [audited_eq]

theorem audited_of_success {dto : AuditEventDTO} (hc : faults .record = none)
    (hdb : w.db.aborted = false) :
    w.audited faults dto = { w with db := w.db.flush [.insertEvent dto.toModel] } := by
  unfold World.audited record
  rw [flush_ok hc hdb rfl]

theorem audited_of_rollback {dto : AuditEventDTO} (hc : faults .record = some .rollsBack) :
    w.audited faults dto = { w with db := w.db.rollback } := by
  simp only [World.audited, record, flush_rollsBack hc]

theorem audited_of_raise {dto : AuditEventDTO} (hc : faults .record = some .raises) :
    w.audited faults dto = w := by
  simp only [World.audited, record, flush_raises hc]

end Runs

end AuthService.RequestPorts
