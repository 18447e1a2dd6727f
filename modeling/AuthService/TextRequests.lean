import AuthService.ResetTokenRuns

set_option autoImplicit false

/-! The handlers on every Python text: a text with a lone surrogate cannot be encoded, so it
has no digest, and what a reset does with it. -/
namespace AuthService.TextRequests
open Uuids PythonText DomainModel KeyedRows AccountTables Transactions FallibleState Fallible
open LabelledRuns RequestPorts CommandHandlers GraphqlResolvers ServiceRuns AccountEffects
open ResetTokenRuns

section Handlers
variable (g : GlobalContainer) (faults : Faults) (repr : Text → String)

def registerUser (email password : Text) (d : RegisterDraws) : AuthM Unit := do
  let address ← ofExcept (Email.ofText g.unicode repr email)
  let accepted ← ofExcept (PlainPassword.ofText g.unicode password)
  CommandHandlers.registerUser g faults ⟨address.value, accepted.value⟩ d

def requestPasswordReset (email : Text) (ip : Option String) (d : RequestResetDraws) :
    AuthM Unit := do
  let _ ← ofExcept (Email.ofText g.unicode repr email)
  match email.encode with
  | some email => CommandHandlers.requestPasswordReset g faults ⟨email, ip⟩ d
  | none => raise .unicodeEncodeError

/-- `command.token.encode()` stands behind the check of the new password. -/
def resetPassword (token newPassword : Text) (ip : Option String) (d : ResetDraws) :
    AuthM Unit := do
  let accepted ← ofExcept (PlainPassword.ofText g.unicode newPassword)
  match token.encode with
  | some token => CommandHandlers.resetPassword g faults ⟨token, accepted.value, ip⟩ d
  | none => raise .unicodeEncodeError

end Handlers

inductive TextRequest where
  | register (email password : Text) (d : RegisterDraws)
  | requestPasswordReset (email : Text) (ip : Option String) (d : RequestResetDraws)
  | resetPassword (token newPassword : Text) (ip : Option String) (d : ResetDraws)

def TextRequest.request : TextRequest → Option Request
  | .register email password d =>
    match email.encode, password.encode with
    | some email, some password => some (.register email password d)
    | _, _ => none
  | .requestPasswordReset email ip d =>
    email.encode.map fun email => .requestPasswordReset email ip d
  | .resetPassword token newPassword ip d =>
    match token.encode, newPassword.encode with
    | some token, some newPassword => some (.resetPassword token newPassword ip d)
    | _, _ => none

def runText (g : GlobalContainer) (faults : Faults) (repr : Text → String) :
    TextRequest → AuthM Unit
  | .register email password d => registerUser g faults repr email password d
  | .requestPasswordReset email ip d => requestPasswordReset g faults repr email ip d
  | .resetPassword token newPassword ip d => resetPassword g faults token newPassword ip d

def handlerOf (g : GlobalContainer) (faults : Faults) : Request → Option (AuthM Unit)
  | .register email password d => some (CommandHandlers.registerUser g faults ⟨email, password⟩ d)
  | .requestPasswordReset email ip d =>
    some (CommandHandlers.requestPasswordReset g faults ⟨email, ip⟩ d)
  | .resetPassword token newPassword ip d =>
    some (CommandHandlers.resetPassword g faults ⟨token, newPassword, ip⟩ d)
  | _ => none

section Handlers
variable {g : GlobalContainer} {faults : Faults} {repr : Text → String}

theorem registerUser_ofString (email password : String) (d : RegisterDraws) :
    registerUser g faults repr (.ofString email) (.ofString password) d =
      CommandHandlers.registerUser g faults ⟨email, password⟩ d := by
  funext w
  unfold registerUser CommandHandlers.registerUser
  rw [Email.ofText_ofString, PlainPassword.ofText_ofString]
  cases he : Email.new g.unicode email with
  | error e => exact (bind_error (ofExcept_run _ _)).trans (bind_error (ofExcept_run _ _)).symm
  | ok address =>
    rw [bind_ok (ofExcept_run _ _), bind_ok (ofExcept_run _ _)]
    cases hp : PlainPassword.new g.unicode password with
    | error e => exact (bind_error (ofExcept_run _ _)).trans (bind_error (ofExcept_run _ _)).symm
    | ok accepted =>
      rw [bind_ok (ofExcept_run _ _), bind_ok (ofExcept_run _ _), Email.new_value,
        PlainPassword.new_value, PlainPassword.new_ok hp, bind_ok (ofExcept_run _ _),
        bind_ok (ofExcept_run _ _)]

theorem requestPasswordReset_ofString (email : String) (ip : Option String)
    (d : RequestResetDraws) :
    requestPasswordReset g faults repr (.ofString email) ip d =
      CommandHandlers.requestPasswordReset g faults ⟨email, ip⟩ d := by
  funext w
  unfold requestPasswordReset CommandHandlers.requestPasswordReset
  rw [Email.ofText_ofString, Text.encode_ofString]
  cases he : Email.new g.unicode email with
  | error e => exact (bind_error (ofExcept_run _ _)).trans (bind_error (ofExcept_run _ _)).symm
  | ok address =>
    rw [bind_ok (ofExcept_run _ _)]
    dsimp only
    rw [he]

theorem resetPassword_ofString (token newPassword : String) (ip : Option String)
    (d : ResetDraws) :
    resetPassword g faults (.ofString token) (.ofString newPassword) ip d =
      CommandHandlers.resetPassword g faults ⟨token, newPassword, ip⟩ d := by
  funext w
  unfold resetPassword CommandHandlers.resetPassword
  rw [PlainPassword.ofText_ofString, Text.encode_ofString]
  cases hp : PlainPassword.new g.unicode newPassword with
  | error e => exact (bind_error (ofExcept_run _ _)).trans (bind_error (ofExcept_run _ _)).symm
  | ok accepted =>
    rw [bind_ok (ofExcept_run _ _)]
    dsimp only
    rw [PlainPassword.new_ok hp, hp]

/-- On texts that can be encoded the handlers are the ones of the request. -/
theorem run_encoded {r : TextRequest} {q : Request} (h : r.request = some q) :
    handlerOf g faults q = some (runText g faults repr r) := by
  cases r with
  | register email password d =>
    simp only [TextRequest.request] at h
    split at h
    · rename_i e p he hp
      cases h
      rw [Text.encode_eq_some] at he hp
      rw [he, hp, runText, registerUser_ofString, handlerOf]
    · cases h
  | requestPasswordReset email ip d =>
    obtain ⟨e, he, rfl⟩ := Option.map_eq_some_iff.1 h
    rw [Text.encode_eq_some] at he
    rw [he, runText, requestPasswordReset_ofString, handlerOf]
  | resetPassword token newPassword ip d =>
    simp only [TextRequest.request] at h
    split at h
    · rename_i t p ht hp
      cases h
      rw [Text.encode_eq_some] at ht hp
      rw [ht, hp, runText, resetPassword_ofString, handlerOf]
    · cases h

theorem emailOfText_none {u : Unicode} {t : Text} (h : t.encode = none) :
    Email.ofText u repr t = .error (.invalidEmailError ("Invalid email address: " ++ repr t)) := by
  rw [Email.ofText, h]

theorem run_unencoded {r : TextRequest} (h : r.request = none) (w : World) :
    ∃ e, runText g faults repr r w = (.error e, w) := by
  cases r with
  | register email password d =>
    change ∃ e, registerUser g faults repr email password d w = (.error e, w)
    unfold registerUser
    cases he : Email.ofText g.unicode repr email with
    | error e => exact ⟨e, bind_error (ofExcept_run _ _)⟩
    | ok address =>
      rw [bind_ok (ofExcept_run _ _)]
      cases hp : PlainPassword.ofText g.unicode password with
      | error e => exact ⟨e, bind_error (ofExcept_run _ _)⟩
      | ok accepted =>
        cases hs : email.encode with
        | none =>
          rw [emailOfText_none hs] at he
          cases he
        | some s => simp [TextRequest.request, hs, PlainPassword.ofText_ok hp] at h
  | requestPasswordReset email ip d =>
    have hs : email.encode = none := Option.map_eq_none_iff.1 h
    change ∃ e, requestPasswordReset g faults repr email ip d w = (.error e, w)
    unfold requestPasswordReset
    rw [emailOfText_none hs]
    exact ⟨_, bind_error (ofExcept_run _ _)⟩
  | resetPassword token newPassword ip d =>
    change ∃ e, resetPassword g faults token newPassword ip d w = (.error e, w)
    unfold resetPassword
    cases hp : PlainPassword.ofText g.unicode newPassword with
    | error e => exact ⟨e, bind_error (ofExcept_run _ _)⟩
    | ok accepted =>
      cases hs : token.encode with
      | none => exact ⟨.unicodeEncodeError, bind_ok (ofExcept_run _ _)⟩
      | some s => simp [TextRequest.request, hs, PlainPassword.ofText_ok hp] at h

end Handlers

inductive TextEvent where
  | service (e : Event)
  | text (r : TextRequest)

def TextEvent.event : TextEvent → Option Event
  | .service e => some e
  | .text r => r.request.map .request

section Runs
variable (g : GlobalContainer) (repr : Text → String)

inductive TextStep : ServiceState → TextEvent → ServiceState → Prop where
  | encoded {s s' : ServiceState} {x : TextEvent} {e : Event} (text : x.event = some e)
      (step : ServiceStep g s e s') : TextStep s x s'
  | unencoded {s : ServiceState} {r : TextRequest} (text : r.request = none) :
      TextStep s (.text r)
        { s with world :=
          let w := (runText g noFaults repr r s.world).2
          { w with db := w.db.commit Statement.apply } }

def texts : System ServiceState TextEvent := ⟨Starts g, TextStep g repr⟩

/-- The part of a history that could be encoded. -/
def encodedPart (p : List (ServiceState × TextEvent)) : History :=
  p.filterMap fun x => x.2.event.map fun e => (x.1, e)

end Runs

section Runs
variable {g : GlobalContainer} {repr : Text → String} {s v : ServiceState}
  {p : List (ServiceState × TextEvent)}

theorem unencoded_step (hs : Sound g s) {r : TextRequest} (h : r.request = none) :
    { s with world :=
      let w := (runText g noFaults repr r s.world).2
      { w with db := w.db.commit Statement.apply } } = s := by
  obtain ⟨e, he⟩ : ∃ e, runText g noFaults repr r s.world = (.error e, s.world) :=
    run_unencoded h s.world
  rw [he]
  simp only [Session.commit_of_fresh _ hs.session]

/-- Requests that cannot be encoded leave no trace: the others are a run of the service. -/
theorem encodedPart_runs (hs : Sound g s) (h : Runs (texts g repr) s p v) :
    Sound g v ∧ Runs (service g) s (encodedPart p) v := by
  induction h with
  | refl => exact ⟨hs, .refl s⟩
  | @next t u p x front hstep ih =>
    obtain ⟨ht, hrun⟩ := ih
    cases hstep with
    | encoded text step =>
      refine ⟨sound_step ht step, ?_⟩
      rw [encodedPart, List.filterMap_cons_some (by rw [text, Option.map_some])]
      exact .next hrun step
    | @unencoded r text =>
      rw [unencoded_step ht text, encodedPart, List.filterMap_cons_none]
      · exact ⟨ht, hrun⟩
      · rw [TextEvent.event, text, Option.map_none, Option.map_none]

end Runs

/-- What the text stands for: the latest token of the user, with its expiry. -/
def LatestText (g : GlobalContainer) (p : List (ServiceState × TextEvent)) (r : Text)
    (token : String) (u : UUID) (e : ℤ) : Prop :=
  r = .ofString token ∧ Latest g u token e (encodedPart p)

/-- A reset with the text succeeds exactly with the latest, unconsumed and unexpired token of
some user, changes only that password then, and tells otherwise why not. -/
structure ResetsExactly (g : GlobalContainer) (p : List (ServiceState × TextEvent))
    (v : ServiceState) (r : Text) (password : String) (d : ResetDraws)
    (out : Except Exn Unit × World) : Prop where
  succeeds : out.1 = .ok () ↔ ∃ token u e, LatestText g p r token u e ∧
    ¬ Consumed g token (encodedPart p) ∧ (v.world.redis.now : ℤ) < e
  changes : out.1 = .ok () → ∃ token u e, LatestText g p r token u e ∧
    let t := v.world.db.committed
    let t' := (out.2.db.commit Statement.apply).committed
    t'.users = amend UserModel.id u (withPassword (g.hashpw password d.salt)) t.users ∧
      t'.passwordResetTokens =
        amend PasswordResetTokenModel.token (g.sha256 token) consumed t.passwordResetTokens
  unchanged : ∀ x, out.1 = .error x → out.2 = v.world
  unknown : ∀ x, out.1 = .error x → (∀ token u e, ¬ LatestText g p r token u e) →
    x = .tokenNotFoundError "Reset token not found"
  expired : ∀ x, out.1 = .error x → ∀ token u e, LatestText g p r token u e →
    e ≤ v.world.redis.now → x = .tokenExpiredError "Reset token has expired"
  used : ∀ x, out.1 = .error x → ∀ token u e, LatestText g p r token u e →
    (v.world.redis.now : ℤ) < e → x = .tokenAlreadyUsedError "Reset token has already been used"

section Resets
variable {g : GlobalContainer} {repr : Text → String} {s v : ServiceState}
  {p : List (ServiceState × TextEvent)}

/-- A reset is exact exactly for the texts that can be encoded. -/
theorem resets_exactly_iff_encodes (hs : Starts g s) (h : Runs (texts g repr) s p v)
    (r newPassword : Text) (ip : Option String) (d : ResetDraws) {q : PlainPassword g.unicode}
    (hq : PlainPassword.ofText g.unicode newPassword = .ok q)
    (hinj : Set.InjOn g.sha256 ({token | r = .ofString token} ∪ Strings (encodedPart p))) :
    ResetsExactly g p v r q.value d (resetPassword g noFaults r newPassword ip d v.world) ↔
      r.encode ≠ none := by
  obtain ⟨-, hrun⟩ := encodedPart_runs ⟨hs.session, hs.tables⟩ h
  cases hr : r.encode with
  | none =>
    refine iff_of_false (fun hexact => ?_) (by simp)
    have hout : resetPassword g noFaults r newPassword ip d v.world =
        (.error .unicodeEncodeError, v.world) := by
      unfold resetPassword
      rw [hq, bind_ok (ofExcept_run _ _), hr]
      exact raise_run _ _
    rw [hout] at hexact
    have hnone : ∀ token u e, ¬ LatestText g p r token u e := by
      rintro token u e ⟨rfl, -⟩
      rw [Text.encode_ofString] at hr
      cases hr
    cases hexact.unknown _ rfl hnone
  | some token =>
    refine iff_of_true ?_ (by simp)
    rw [Text.encode_eq_some] at hr
    obtain rfl := hr
    rw [PlainPassword.ofText_ok hq, resetPassword_ofString]
    have hlatest : ∀ {token' u e}, LatestText g p (.ofString token) token' u e ↔
        token' = token ∧ Latest g u token e (encodedPart p) := by
      intro token' u e
      rw [LatestText, Text.ofString_inj]
      constructor
      · rintro ⟨rfl, hl⟩
        exact ⟨rfl, hl⟩
      · rintro ⟨rfl, hl⟩
        exact ⟨rfl, hl⟩
    have hset : {token' | Text.ofString token = .ofString token'} ∪ Strings (encodedPart p) =
        insert token (Strings (encodedPart p)) := by
      ext token'
      simp only [Text.ofString_inj, Set.mem_union, Set.mem_ofPred_eq, Set.mem_insert_iff, eq_comm]
    rw [hset] at hinj
    obtain ⟨hsucceeds, hchanges, hfails⟩ := reset_succeeds_iff_latest hs hrun token q.value ip d
      ⟨q, PlainPassword.new_value q⟩ hinj
    refine ⟨hsucceeds.trans ?_, fun hok => ?_, fun x hx => (hfails x hx).1, fun x hx hno => ?_,
      fun x hx token' u e hl => ?_, fun x hx token' u e hl => ?_⟩
    · constructor
      · rintro ⟨u, e, hl, hrest⟩
        exact ⟨token, u, e, hlatest.2 ⟨rfl, hl⟩, hrest⟩
      · rintro ⟨token', u, e, hl, hrest⟩
        obtain ⟨rfl, hl⟩ := hlatest.1 hl
        exact ⟨u, e, hl, hrest⟩
    · obtain ⟨u, e, hl, hrest⟩ := hchanges hok
      exact ⟨token, u, e, hlatest.2 ⟨rfl, hl⟩, hrest⟩
    · exact (hfails x hx).2.1 fun u e hl => hno token u e (hlatest.2 ⟨rfl, hl⟩)
    · exact ((hfails x hx).2.2 u e (hlatest.1 hl).2).1
    · exact ((hfails x hx).2.2 u e (hlatest.1 hl).2).2

end Resets

section Sample
open SampleContainer

def sampleRepr (t : Text) : String := sample.unicode.repr (t.encode.getD "")

def aliceRequestsReset : TextEvent :=
  .text (.requestPasswordReset (.ofString "alice@example.com") none resetDraws)

def resetRequested : ServiceState :=
  recordDraws sampleResetRequest (after sample noFaults sampleResetRequest initialWorld) sampleStart

theorem aliceRequestsReset_event : aliceRequestsReset.event = some (.request sampleResetRequest) := by
  rw [aliceRequestsReset, TextEvent.event, TextRequest.request, Text.encode_ofString]
  rfl

theorem resetRequested_runs :
    Runs (texts sample sampleRepr) sampleStart [(sampleStart, aliceRequestsReset)] resetRequested :=
  .single (.encoded aliceRequestsReset_event
    (ServiceStep.request sampleStart sampleResetRequest sampleStart_fresh_reset))

theorem resetRequested_part : encodedPart [(sampleStart, aliceRequestsReset)] =
    [(sampleStart, .request sampleResetRequest)] := by
  rw [encodedPart, List.filterMap_cons_some (by rw [aliceRequestsReset_event, Option.map_some])]
  rfl

theorem resetRequested_strings {r : String}
    (hr : r ∈ Strings [(sampleStart, .request sampleResetRequest)]) : r = rawA.text := by
  obtain ⟨x, hx, hr⟩ := hr
  rw [List.mem_singleton.1 hx] at hr
  rcases hr with ⟨email, ip, d, he, rfl⟩ | ⟨password, ip, d, he⟩
  · have hd := Event.request.inj he
    simp only [sampleResetRequest, Request.requestPasswordReset.injEq] at hd
    rw [← hd.2.2]
    rfl
  · exact absurd (Event.request.inj he) (by simp [sampleResetRequest])

theorem newPassword_ofText : PlainPassword.ofText sample.unicode (.ofString "Passw0rd2") =
    .ok newPassword :=
  (PlainPassword.ofText_ofString _ _).trans (PlainPassword.new_value newPassword)

def resetExpiry : ℤ := minutesAfter sample.resetTokenExpireMinutes startTime

theorem resetRequested_latest : Latest sample alice rawA.text resetExpiry
    [(sampleStart, .request sampleResetRequest)] := by
  rw [Latest, since_cons]
  refine .inl ⟨"alice@example.com", none, resetDraws,
    "If this email is registered, a reset link has been sent", aliceEmail, aliceRow, rfl, ?_,
    Email.new_value aliceEmail, List.mem_singleton_self _, rfl, rfl, rfl, rfl⟩
  decide +kernel

theorem resetRequested_unconsumed (r : String) :
    ¬ Consumed sample r [(sampleStart, .request sampleResetRequest)] := by
  rintro ⟨x, hx, password, ip, d, _, he, -⟩
  rw [List.mem_singleton.1 hx] at he
  cases he

/-- Alice uses the token she was mailed. -/
theorem resets_exactly_iff_encodes_requested :
    (resetPassword sample noFaults (.ofString rawA.text) (.ofString "Passw0rd2") none
      ⟨saltTwo, eventOne⟩ resetRequested.world).1 = .ok () := by
  have hinj : Set.InjOn sample.sha256 ({token | Text.ofString rawA.text = .ofString token} ∪
      Strings (encodedPart [(sampleStart, aliceRequestsReset)])) := by
    rw [resetRequested_part]
    refine (Set.injOn_singleton _ rawA.text).mono ?_
    rintro r (hr | hr)
    · exact (Text.ofString_inj.1 hr).symm
    · exact resetRequested_strings hr
  have hexact := (resets_exactly_iff_encodes sampleStart_starts resetRequested_runs
    (.ofString rawA.text) (.ofString "Passw0rd2") none ⟨saltTwo, eventOne⟩ newPassword_ofText
    hinj).2 (by simp)
  refine hexact.succeeds.2 ⟨rawA.text, alice, resetExpiry, ⟨rfl, ?_⟩, ?_, ?_⟩
  · rw [resetRequested_part]
    exact resetRequested_latest
  · rw [resetRequested_part]
    exact resetRequested_unconsumed _
  · decide +kernel

/-- A token text with a lone surrogate makes the reset raise `UnicodeEncodeError`. -/
theorem surrogate_token_crashes : ∃ v, Starts sample v ∧
    (resetPassword sample noFaults [.surrogate 0] (.ofString "Passw0rd2") none
      ⟨saltTwo, eventOne⟩ v.world).1 = .error .unicodeEncodeError ∧
    ¬ ResetsExactly sample [] v [.surrogate 0] "Passw0rd2" ⟨saltTwo, eventOne⟩
      (resetPassword sample noFaults [.surrogate 0] (.ofString "Passw0rd2") none
        ⟨saltTwo, eventOne⟩ v.world) := by
  have hout : (resetPassword sample noFaults [.surrogate 0] (.ofString "Passw0rd2") none
      ⟨saltTwo, eventOne⟩ sampleStart.world).1 = .error .unicodeEncodeError := by
    unfold resetPassword
    rw [newPassword_ofText, bind_ok (ofExcept_run _ _)]
    rfl
  refine ⟨sampleStart, sampleStart_starts, hout, fun hexact => ?_⟩
  have hnone : ∀ token u e, ¬ LatestText sample [] [.surrogate 0] token u e :=
    fun _ _ _ hl => since_nil hl.2
  cases hexact.unknown _ hout hnone

end Sample

end AuthService.TextRequests
