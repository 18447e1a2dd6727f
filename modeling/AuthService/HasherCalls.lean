import AuthService.CallTraces
import AuthService.HandlerRuns
import AuthService.SampleContainer

set_option autoImplicit false

/-! The login handler with the calls it makes to the password hasher, and when two refused
logins can be told apart by them. -/
namespace AuthService.HasherCalls
open Uuids PythonText DomainModel KeyedRows AccountTables FallibleState Fallible RequestPorts
open CommandHandlers HandlerRuns

/-- The methods of `PasswordHasher`. -/
inductive HasherCall where
  | hash
  | verify
  deriving DecidableEq

abbrev HashM := Fallible (World × List HasherCall) Exn

section Handler
variable (g : GlobalContainer) (faults : Faults)

def hash (password salt : String) : HashM String := do
  note .hash
  pure (g.hashpw password salt)

def verify (password hashed : String) : HashM Bool := do
  note .verify
  pure (RequestPorts.verify g password hashed)

/-- The branch of a missing account; the cache is filled on its first use. -/
def verifyDummy (password salt : String) : HashM Unit := do
  let w ← lift get
  if w.dummyHash = "" then
    let hashed ← hash g "__dummy_timing_guard__" salt
    lift (update fun w => { w with dummyHash := hashed })
  let w ← lift get
  let _ ← verify g password w.dummyHash
  pure ()

def openSession (command : AuthenticateUserCommand) (d : LoginDraws) (userId : UUID) :
    AuthM TokenPairDTO := do
  let (accessToken, jti) ← generateAccessToken g userId d.sessionId d.jti
  let deviceInfo := trimDeviceInfo command.deviceInfo
  RedisTokenStore.createSession g faults d.sessionId userId jti d.refreshToken.text deviceInfo
    g.accessTokenTtlSeconds g.refreshTokenTtlSeconds
  let occurredAt ← now
  tryRecord faults ⟨d.eventId, .loginSuccess, occurredAt, some userId, some d.sessionId,
    command.ipAddress, [("device_info", deviceInfo.getD "")]⟩
  pure ⟨accessToken, d.refreshToken.text, d.sessionId, "Bearer"⟩

/-- `_record_login_failed` and the error that every refusal raises. -/
def refuse (userId : Option UUID) (ipAddress : Option String) (reason : String) (eventId : UUID) :
    AuthM TokenPairDTO := do
  recordLoginFailed faults userId ipAddress reason eventId
  raise (.invalidCredentialsError "Invalid email or password")

/-- `AuthenticateUserHandler.handle`. -/
def authenticateUser (command : AuthenticateUserCommand) (d : LoginDraws) : HashM TokenPairDTO := do
  let email ← lift (ofExcept (Email.new g.unicode command.email))
  let found ← lift (findByEmail g faults email)
  match found with
  | none =>
    verifyDummy g command.password d.dummySalt
    lift (refuse faults none command.ipAddress "user_not_found" d.eventId)
  | some user =>
    if user.isActive = false then
      lift (refuse faults (some user.id) command.ipAddress "inactive_account" d.eventId)
    else
      let ok ← verify g command.password user.hashedPassword
      if ok = false then
        lift (refuse faults (some user.id) command.ipAddress "invalid_password" d.eventId)
      else lift (openSession g faults command d user.id)

theorem verify_bind {α : Type} (password hashed : String) (f : Bool → HashM α) :
    (verify g password hashed >>= f) =
      (note .verify >>= fun _ => f (RequestPorts.verify g password hashed)) := rfl

theorem verifyDummy_run (password salt : String) (w : World) (calls : List HasherCall) :
    verifyDummy g password salt (w, calls) =
      (.ok (), (CommandHandlers.verifyDummy g password salt w).2,
        calls ++ if w.dummyHash = "" then [.hash, .verify] else [.verify]) := by
  unfold verifyDummy CommandHandlers.verifyDummy
  by_cases hw : w.dummyHash = ""
  · simp [bind_run, lift, hash, verify, hw]
  · simp [bind_run, lift, verify, hw]

/-- Without the record of its calls it is the handler of the service. -/
theorem authenticateUser_erases (command : AuthenticateUserCommand) (d : LoginDraws) :
    Erases (authenticateUser g faults command d)
      (CommandHandlers.authenticateUser g faults command d) := by
  refine (Erases.lift _).bind (fun email => (Erases.lift _).bind (fun found => ?_))
  cases found with
  | none =>
    have hdummy : Erases (verifyDummy g command.password d.dummySalt)
        (CommandHandlers.verifyDummy g command.password d.dummySalt) := by
      intro w calls
      rw [verifyDummy_run]
      exact ⟨rfl, rfl⟩
    exact hdummy.bind (fun _ => Erases.lift _)
  | some user =>
    simp only [verify_bind]
    split_ifs with hactive hverify
    · exact Erases.lift _
    · exact Erases.note (Erases.lift _)
    · exact Erases.note (Erases.lift _)

end Handler

def accountOf (u : Unicode) (email : String) (t : Tables) : Option UserModel :=
  lookup UserModel.email (normalize u email) t.users

def refusedCalls (account : Option UserModel) (dummyHash : String) : List HasherCall :=
  match account with
  | none => if dummyHash = "" then [.hash, .verify] else [.verify]
  | some m => if m.isActive then [.verify] else []

section Refusal
variable {g : GlobalContainer} {faults : Faults} {w : World} {message : String}

theorem port_error {α : Type} {c : PortCall} {m : AuthM α}
    (hm : ∀ w, (m w).1 ≠ .error (.invalidCredentialsError message)) :
    (port faults c m w).1 ≠ .error (.invalidCredentialsError message) := by
  unfold port
  split
  · simp
  · simp
  · split_ifs
    · simp
    · exact hm w

theorem findByEmail_not_refused {email : Email g.unicode} {w' : World} {e : Exn}
    (h : findByEmail g faults email w = (.error e, w')) : e ≠ .invalidCredentialsError message := by
  have hport : (findByEmail g faults email w).1 ≠ .error (.invalidCredentialsError message) := by
    refine port_error (fun w h => ?_)
    obtain ⟨text, htext⟩ := findByEmail_error h
    cases htext
  rw [h] at hport
  rintro rfl
  exact hport rfl

theorem openSession_error (command : AuthenticateUserCommand) (d : LoginDraws) (userId : UUID) :
    (openSession g faults command d userId w).1 ≠ .error (.invalidCredentialsError message) := by
  unfold openSession
  rw [bind_ok (generateAccessToken_run _ _ _)]
  simp only
  rw [bind_run]
  split
  · rw [bind_ok now_run, bind_ok (tryRecord_run _), pure_run]
    simp
  · rename_i e w' h
    unfold RedisTokenStore.createSession RequestPorts.command at h
    split at h
    · cases h
      simp
    · cases h

theorem refuse_message {userId : Option UUID} {ip : Option String} {reason : String} {eventId : UUID}
    (h : (refuse faults userId ip reason eventId w).1 = .error (.invalidCredentialsError message)) :
    message = "Invalid email or password" := by
  unfold refuse at h
  rw [bind_ok recordLoginFailed_run, raise_run] at h
  cases h
  rfl

theorem accountOf_none {email : Email g.unicode}
    (h : w.tables.findByEmail g.unicode email.value = .ok none) :
    lookup UserModel.email email.value w.tables.users = none := by
  unfold Tables.findByEmail at h
  cases hl : lookup UserModel.email email.value w.tables.users with
  | none => rfl
  | some m =>
    simp only [hl] at h
    cases hd : m.toDomain g.unicode <;> simp [hd, Except.map] at h

/-- A refused login raises one message, after the calls that its account calls for. -/
theorem authenticateUser_refused {command : AuthenticateUserCommand} {d : LoginDraws}
    {calls : List HasherCall}
    (h : (authenticateUser g faults command d (w, calls)).1 =
      .error (.invalidCredentialsError message)) :
    message = "Invalid email or password" ∧
      (authenticateUser g faults command d (w, calls)).2.2 =
        calls ++ refusedCalls (accountOf g.unicode command.email w.tables) w.dummyHash := by
  unfold authenticateUser at h ⊢
  cases he : Email.new g.unicode command.email with
  | error e =>
    rw [he, bind_error (lift_run calls (ofExcept_run _ _))] at h
    obtain ⟨text, rfl⟩ := Email.new_error he
    cases h
  | ok email =>
    rw [he, bind_ok (lift_run calls (ofExcept_run _ _))] at h
    rw [bind_ok (lift_run calls (ofExcept_run _ _)), accountOf, ← Email.new_ok he]
    cases hf : findByEmail g faults email w with
    | mk x w' =>
      cases x with
      | error e =>
        rw [bind_error (lift_run calls hf)] at h
        exact absurd (Except.error.inj h) (findByEmail_not_refused hf)
      | ok found =>
        rw [bind_ok (lift_run calls hf)] at h ⊢
        obtain ⟨-, -, hfound, rfl⟩ := query_eq_ok hf
        cases found with
        | none =>
          simp only at h ⊢
          rw [bind_ok (verifyDummy_run _ _ _ _ _)] at h ⊢
          rw [accountOf_none hfound]
          exact ⟨refuse_message h, rfl⟩
        | some user =>
          obtain ⟨m, hm, hd⟩ := findByEmail_stored hfound
          obtain ⟨-, -, hactive, -, -⟩ := toDomain_ok hd
          rw [hm, refusedCalls, ← hactive]
          simp only [verify_bind] at h ⊢
          cases hoff : user.isActive with
          | false =>
            simp only [hoff, ↓reduceIte] at h ⊢
            exact ⟨refuse_message h, (List.append_nil calls).symm⟩
          | true =>
            simp only [hoff, Bool.true_eq_false, ↓reduceIte] at h ⊢
            rw [bind_ok (note_run _ _ _)] at h ⊢
            split_ifs at h ⊢ with hverify
            · exact ⟨refuse_message h, rfl⟩
            · exact absurd h (openSession_error command d user.id)

end Refusal

def SwitchedOff (account : Option UserModel) : Prop := ∃ m, account = some m ∧ m.isActive = false

def FirstMiss (account : Option UserModel) (dummyHash : String) : Prop :=
  account = none ∧ dummyHash = ""

theorem refusedCalls_eq_iff {a a' : Option UserModel} {dummy dummy' : String} :
    refusedCalls a dummy = refusedCalls a' dummy' ↔
      (SwitchedOff a ↔ SwitchedOff a') ∧ (FirstMiss a dummy ↔ FirstMiss a' dummy') := by
  have hcases : ∀ (a : Option UserModel) (dummy : String),
      refusedCalls a dummy = [] ∧ SwitchedOff a ∧ ¬ FirstMiss a dummy ∨
        refusedCalls a dummy = [.hash, .verify] ∧ ¬ SwitchedOff a ∧ FirstMiss a dummy ∨
        refusedCalls a dummy = [.verify] ∧ ¬ SwitchedOff a ∧ ¬ FirstMiss a dummy := by
    intro a dummy
    cases a with
    | none => by_cases h : dummy = "" <;> simp [refusedCalls, SwitchedOff, FirstMiss, h]
    | some m => cases h : m.isActive <;> simp [refusedCalls, SwitchedOff, FirstMiss, h]
  rcases hcases a dummy with ⟨h, hoff, hmiss⟩ | ⟨h, hoff, hmiss⟩ | ⟨h, hoff, hmiss⟩ <;>
    rcases hcases a' dummy' with ⟨h', hoff', hmiss'⟩ | ⟨h', hoff', hmiss'⟩ | ⟨h', hoff', hmiss'⟩ <;>
    simp [h, h', hoff, hoff', hmiss, hmiss']

/-- Two refused logins raise the same error, and they make the same calls exactly if both or
neither account is switched off and both or neither is the first one missed. -/
theorem login_failures_alike_iff {g : GlobalContainer} {faults faults' : Faults}
    {email password : String} {device device' ip ip' : Option String} {d d' : LoginDraws} {w w' : World}
    {message message' : String}
    (h : (authenticateUser g faults ⟨email, password, device, ip⟩ d (w, [])).1 =
      .error (.invalidCredentialsError message))
    (h' : (authenticateUser g faults' ⟨email, password, device', ip'⟩ d' (w', [])).1 =
      .error (.invalidCredentialsError message')) :
    (message = message' ∧
        (authenticateUser g faults ⟨email, password, device, ip⟩ d (w, [])).2.2 =
          (authenticateUser g faults' ⟨email, password, device', ip'⟩ d' (w', [])).2.2) ↔
      (SwitchedOff (accountOf g.unicode email w.tables) ↔
          SwitchedOff (accountOf g.unicode email w'.tables)) ∧
        (FirstMiss (accountOf g.unicode email w.tables) w.dummyHash ↔
          FirstMiss (accountOf g.unicode email w'.tables) w'.dummyHash) := by
  obtain ⟨hmessage, hcalls⟩ := authenticateUser_refused h
  obtain ⟨hmessage', hcalls'⟩ := authenticateUser_refused h'
  rw [hcalls, hcalls', hmessage, hmessage', List.nil_append, List.nil_append, refusedCalls_eq_iff]
  exact and_iff_right rfl

section Sample
open SampleContainer

def worldOf (users : List UserModel) (dummyHash : String) : World :=
  { initialWorld with db := ⟨⟨users, [], []⟩, [], false⟩, dummyHash := dummyHash }

def wrongPassword : AuthenticateUserCommand := ⟨"alice@example.com", "Passw0rd2", none, none⟩

/-- An account with another password, and no account once the dummy hash is there. -/
theorem login_failures_alike_alice :
    (authenticateUser sample noFaults wrongPassword loginDraws (worldOf [aliceRow] "", [])).2.2 =
      (authenticateUser sample noFaults wrongPassword loginDraws (worldOf [] hashTwo, [])).2.2 := by
  have h : (authenticateUser sample noFaults wrongPassword loginDraws (worldOf [aliceRow] "", [])).1 =
      .error (.invalidCredentialsError "Invalid email or password") :=
    refusalMessage_eq_some.1 (by decide +kernel)
  have h' : (authenticateUser sample noFaults wrongPassword loginDraws (worldOf [] hashTwo, [])).1 =
      .error (.invalidCredentialsError "Invalid email or password") :=
    refusalMessage_eq_some.1 (by decide +kernel)
  have haccount : accountOf sample.unicode "alice@example.com" (worldOf [aliceRow] "").tables =
      some aliceRow := by decide +kernel
  refine ((login_failures_alike_iff h h').2 ⟨iff_of_false ?_ ?_, iff_of_false ?_ ?_⟩).2
  · rintro ⟨m, hm, hoff⟩
    rw [haccount] at hm
    obtain rfl := Option.some.inj hm
    cases hoff
  · rintro ⟨m, hm, -⟩
    cases hm
  · rintro ⟨hm, -⟩
    rw [haccount] at hm
    cases hm
  · rintro ⟨-, hdummy⟩
    exact absurd hdummy (by decide)

/-- A switched-off account is refused without any call. -/
theorem inactive_login_differs :
    (authenticateUser sample noFaults wrongPassword loginDraws
        (worldOf [{ aliceRow with isActive := false }] "", [])).1 =
      .error (.invalidCredentialsError "Invalid email or password") ∧
    (authenticateUser sample noFaults wrongPassword loginDraws (worldOf [aliceRow] "", [])).1 =
      .error (.invalidCredentialsError "Invalid email or password") ∧
    (authenticateUser sample noFaults wrongPassword loginDraws
        (worldOf [{ aliceRow with isActive := false }] "", [])).2.2 = [] ∧
    (authenticateUser sample noFaults wrongPassword loginDraws (worldOf [aliceRow] "", [])).2.2 =
      [.verify] := by
  refine ⟨refusalMessage_eq_some.1 ?_, refusalMessage_eq_some.1 ?_, ?_, ?_⟩
  all_goals decide +kernel

end Sample

end AuthService.HasherCalls
