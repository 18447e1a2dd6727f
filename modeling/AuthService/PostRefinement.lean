import AuthService.CredentialOrigins
import AuthService.RunSimulations
import AuthService.ServiceRuns

set_option autoImplicit false

/-! The POSTs of a client that sends one mutation at a time, as requests of the service. -/
namespace AuthService.PostRefinement
open Uuids PythonText DomainModel AccountTables Transactions FallibleState Fallible FallibleTriples
open ExpiringMaps JsonText GraphqlDocuments RedisSessions RequestPorts CommandHandlers GraphqlResolvers
open SessionCoupling ServiceRuns RateLimitMiddleware IdempotencyExtension EmailCounters RequestTriples
open HttpService VisitTriples AccountIntegrity CredentialOrigins LabelledRuns RunSimulations

section Served
variable (g : GlobalContainer) (word : Char → Bool) (parse : String → Option Document)

/-- The request of the one mutation field that an execution runs. -/
def plannedRequest (v : Visit) (c : ExecutionContext) : Option Request :=
  match plan c v.request v.chance with
  | some (.mutation, [call]) => call.request
  | _ => none

/-- The request that reaches the service: the visit is let through and is no replay. -/
def servedRequest (s : HttpState) (v : Visit) : Option Request :=
  if (dispatch g.unicode word v.request.post s.limiter).1 = .forwarded then
    match contextOf parse v.request with
    | none => none
    | some c =>
      match lookup g.sha256 c s.store with
      | .notEnrolled => plannedRequest v c
      | .miss => plannedRequest v c
      | _ => none
  else none

def servedBy (x : HttpState × HttpEvent) : Option Request :=
  match x.2 with
  | .wait _ => none
  | .visit v => servedRequest g word parse x.1 v

/-- The event of the service behind an event of the application. -/
def visible (x : HttpState × HttpEvent) : Option Event :=
  match x.2 with
  | .wait d => some (.wait d)
  | .visit v => (servedRequest g word parse x.1 v).map Event.request

/-- One root field at most, no call that fails, and a commit. -/
structure PlainVisit (v : Visit) : Prop where
  single : (executedFields parse v.request.post).length ≤ 1
  faultless : ∀ i, (v.chance i).faults = noFaults
  commits : v.commits = true

def Plain (_ : HttpState) : HttpEvent → Prop
  | .wait _ => True
  | .visit v => PlainVisit parse v

end Served

def sessionDraws : Request → List UUID
  | .login _ _ _ _ d => [d.sessionId]
  | _ => []

def jtiDraws : Request → List String
  | .login _ _ _ _ d => [d.jti.str]
  | .refreshToken _ _ d => [d.jti.str]
  | _ => []

def refreshTokenDraws : Request → List String
  | .login _ _ _ _ d => [d.refreshToken.text]
  | .refreshToken _ _ d => [d.refreshToken.text]
  | _ => []

def rawTokenDraws : Request → List String
  | .requestPasswordReset _ _ d => [d.rawToken.text]
  | _ => []

def tokenIdDraws : Request → List UUID
  | .requestPasswordReset _ _ d => [d.tokenId]
  | _ => []

/-- Two requests have drawn nothing in common. -/
structure Apart (r r' : Request) : Prop where
  sessions : (sessionDraws r).Disjoint (sessionDraws r')
  jtis : (jtiDraws r).Disjoint (jtiDraws r')
  refreshTokens : (refreshTokenDraws r).Disjoint (refreshTokenDraws r')
  rawTokens : (rawTokenDraws r).Disjoint (rawTokenDraws r')
  tokenIds : (tokenIdDraws r).Disjoint (tokenIdDraws r')

def DrawnFrom {α : Type} (rs : List Request) (draws : Request → List α) (drawn : List α) : Prop :=
  ∀ x ∈ drawn, ∃ r ∈ rs, x ∈ draws r

structure DrawnBy (rs : List Request) (t : ServiceState) : Prop where
  sessions : DrawnFrom rs sessionDraws (t.drawn.sessions.map Prod.fst)
  jtis : DrawnFrom rs jtiDraws t.drawn.jtis
  refreshTokens : DrawnFrom rs refreshTokenDraws t.drawn.refreshTokens
  rawTokens : DrawnFrom rs rawTokenDraws t.rawTokens
  tokenIds : DrawnFrom rs tokenIdDraws t.tokenIds

section Draws
variable {α : Type} {rs : List Request} {r : Request} {draws : Request → List α} {drawn : List α}
  {t : ServiceState}

theorem DrawnFrom.weaken (h : DrawnFrom rs draws drawn) : DrawnFrom (r :: rs) draws drawn := by
  intro x hx
  obtain ⟨r', hr', hx'⟩ := h x hx
  exact ⟨r', List.mem_cons_of_mem _ hr', hx'⟩

theorem DrawnFrom.cons (h : DrawnFrom rs draws drawn) {x : α} (hx : draws r = [x]) :
    DrawnFrom (r :: rs) draws (x :: drawn) := by
  intro y hy
  rcases List.mem_cons.1 hy with rfl | hy
  · exact ⟨r, List.mem_cons_self, by rw [hx]; exact List.mem_singleton_self _⟩
  · exact h.weaken y hy

theorem DrawnFrom.notMem (h : DrawnFrom rs draws drawn) {x : α} (hx : draws r = [x])
    (hapart : ∀ r' ∈ rs, (draws r).Disjoint (draws r')) : x ∉ drawn := by
  intro hmem
  obtain ⟨r', hr', hx'⟩ := h x hmem
  exact hapart r' hr' (by rw [hx]; exact List.mem_singleton_self _) hx'

theorem DrawnBy.fresh (h : DrawnBy rs t) (hapart : ∀ r' ∈ rs, Apart r r') : FreshDraws r t := by
  cases r with
  | login email password device ip d =>
    exact ⟨h.sessions.notMem rfl (fun r' hr' => (hapart r' hr').sessions),
      h.jtis.notMem rfl (fun r' hr' => (hapart r' hr').jtis),
      h.refreshTokens.notMem rfl (fun r' hr' => (hapart r' hr').refreshTokens)⟩
  | refreshToken token ip d =>
    exact ⟨h.jtis.notMem rfl (fun r' hr' => (hapart r' hr').jtis),
      h.refreshTokens.notMem rfl (fun r' hr' => (hapart r' hr').refreshTokens)⟩
  | requestPasswordReset email ip d =>
    exact ⟨h.rawTokens.notMem rfl (fun r' hr' => (hapart r' hr').rawTokens),
      h.tokenIds.notMem rfl (fun r' hr' => (hapart r' hr').tokenIds)⟩
  | register | revokeSession | resetPassword | me => trivial

theorem DrawnBy.record (h : DrawnBy rs t) (r : Request) (w : World) :
    DrawnBy (r :: rs) (recordDraws r w t) := by
  cases r with
  | login email password device ip d =>
    refine ⟨?_, h.jtis.cons rfl, h.refreshTokens.cons rfl, h.rawTokens.weaken, h.tokenIds.weaken⟩
    simp only [recordDraws, Drawn.opened]
    split
    · exact h.sessions.cons rfl
    · exact h.sessions.weaken
  | refreshToken token ip d =>
    exact ⟨h.sessions.weaken, h.jtis.cons rfl, h.refreshTokens.cons rfl, h.rawTokens.weaken,
      h.tokenIds.weaken⟩
  | requestPasswordReset email ip d =>
    exact ⟨h.sessions.weaken, h.jtis.weaken, h.refreshTokens.weaken, h.rawTokens.cons rfl,
      h.tokenIds.cons rfl⟩
  | register | revokeSession | resetPassword | me =>
    exact ⟨h.sessions.weaken, h.jtis.weaken, h.refreshTokens.weaken, h.rawTokens.weaken,
      h.tokenIds.weaken⟩

end Draws

/-- No two requests that were served have drawn anything in common. -/
def Unrepeated (g : GlobalContainer) (word : Char → Bool) (parse : String → Option Document) :
    List (HttpState × HttpEvent) → Prop
  | [] => True
  | x :: p => (∀ r, servedBy g word parse x = some r →
      ∀ r' ∈ p.filterMap (servedBy g word parse), Apart r r') ∧ Unrepeated g word parse p

/-- The worlds differ in the number of Redis commands at most. -/
def SameWorld (w w' : World) : Prop := { w' with commands := 0 } = { w with commands := 0 }

structure Untouched (w₀ w : World) : Prop where
  redis : w.redis = w₀.redis
  mails : w.sentEmails = w₀.sentEmails
  signed : w.signed = w₀.signed
  dummy : w.dummyHash = w₀.dummyHash
  committed : w.db.committed = w₀.db.committed
  flushed : w.db.flushed = []

theorem untouched_readable (w₀ : World) : Readable (Untouched w₀) where
  rollback := fun _ h => ⟨h.redis, h.mails, h.signed, h.dummy, h.committed, rfl⟩
  counted := fun _ _ h => ⟨h.redis, h.mails, h.signed, h.dummy, h.committed, h.flushed⟩

theorem Untouched.commit {w₀ w : World} (h : Untouched w₀ w) (hfresh : w₀.db.Fresh) :
    SameWorld w₀ { w with db := w.db.commit Statement.apply } := by
  obtain ⟨hr, hm, hs, hd, hc, hf⟩ := h
  have hdb : w.db.commit Statement.apply = w₀.db := by
    obtain ⟨hflushed, haborted⟩ := hfresh
    have hview : (if w.db.aborted then w.db.committed else w.db.view Statement.apply) =
      w₀.db.committed := by
      rw [Session.view, hf, Session.replay_nil, hc]
      split_ifs <;> rfl
    calc w.db.commit Statement.apply = ⟨w₀.db.committed, [], false⟩ := by rw [Session.commit, hview]
      _ = w₀.db := by rw [← hflushed, ← haborted]
  unfold SameWorld
  rw [hdb, hr, hm, hs, hd]

section Execution
variable {g : GlobalContainer} {word : Char → Bool} {parse : String → Option Document} {v : Visit}

theorem callOf_faults {h : HttpRequest} {x : Chance} {type : OperationType} {f : RootField}
    {call : FieldCall} (hcall : callOf h x type f = some call) : call.faults = x.faults := by
  unfold callOf at hcall
  split_ifs at hcall
  · rw [← Option.some.inj hcall]
  · cases type with
    | mutation =>
      obtain ⟨r, -, rfl⟩ := Option.map_eq_some_iff.1 hcall
      rfl
    | query =>
      obtain ⟨r, -, rfl⟩ := Option.map_eq_some_iff.1 hcall
      rfl
    | subscription => cases hcall

theorem plain_calls (hplain : PlainVisit parse v) {c : ExecutionContext}
    (hc : contextOf parse v.request = some c) {calls : List FieldCall}
    (hplan : plan c v.request v.chance = some (.mutation, calls)) :
    calls = [] ∨ ∃ call, calls = [call] ∧ call.faults = noFaults := by
  obtain ⟨op, hop, htype, hcalls⟩ := plan_eq_some hplan
  have hsingle := hplain.single
  rw [contextOf_fields hc hop, if_pos htype] at hsingle
  cases hfields : op.rootFields with
  | nil =>
    rw [hfields] at hcalls
    exact .inl (Option.some.inj hcalls).symm
  | cons f fields =>
    rw [hfields, List.length_cons] at hsingle
    obtain rfl : fields = [] := List.eq_nil_of_length_eq_zero (by omega)
    rw [hfields] at hcalls
    simp only [callsFrom, Option.bind_eq_bind, Option.bind_eq_some_iff, Option.some.injEq] at hcalls
    obtain ⟨call, hcall, calls', rfl, rfl⟩ := hcalls
    exact .inr ⟨call, rfl, (callOf_faults hcall).trans (hplain.faultless 0)⟩

theorem execution_untouched (hplain : PlainVisit parse v) {c : ExecutionContext}
    (hc : contextOf parse v.request = some c) (hnone : plannedRequest v c = none) (w₀ : World) :
    Stays (Untouched w₀) (execution g c v.request v.chance) := by
  unfold execution
  cases hplan : plan c v.request v.chance with
  | none => exact stays_pure _
  | some x =>
    obtain ⟨type, calls⟩ := x
    simp only
    unfold executeOperation
    cases type with
    | mutation =>
      refine stays_handle (stays_bind ?_ (fun _ => stays_pure _)) (fun _ => stays_pure _)
      rcases plain_calls hplain hc hplan with rfl | ⟨call, rfl, -⟩
      · exact stays_pure _
      · have hrequest : call.request = none := by simpa only [plannedRequest, hplan] using hnone
        refine stays_bind ?_ (fun _ => stays_bind (stays_pure _) (fun _ => stays_pure _))
        unfold FieldCall.run
        rw [hrequest]
        exact stays_pure _
    | query =>
      obtain ⟨op, -, -, hcalls⟩ := plan_eq_some hplan
      exact stays_bind (runQuery_stays (untouched_readable w₀) hcalls) (fun _ => stays_pure _)
    | subscription => exact stays_pure _

theorem executed_untouched (hplain : PlainVisit parse v) {c : ExecutionContext}
    (hc : contextOf parse v.request = some c) (hnone : plannedRequest v c = none) {w : World}
    (hw : w.db.Fresh) : SameWorld w (executed g v c w).2 := by
  have hrun := execution_untouched (g := g) hplain hc hnone w
  have hstart : Untouched w { w with commands := 0 } := ⟨rfl, rfl, rfl, rfl, rfl, hw.1⟩
  unfold executed
  cases hx : execution g c v.request v.chance { w with commands := 0 } with
  | mk x w' =>
    have hin : Untouched w w' := by
      cases x with
      | ok r => exact hrun.ok hstart hx
      | error e => exact hrun.error hstart hx
    simp only [hplain.commits, if_true]
    exact hin.commit hw

def resultOf (key : String) : Answer → ExecutionResult Data
  | .errors e => errorResult (errorOf e)
  | a => ⟨some [(key, .answer a)], []⟩

def Returned (a : Answer) (_ : World) : Prop := ∀ e, a ≠ .errors e

theorem wrapped_returned {α : Type} {m : AuthM α} {f : α → Answer} {h : Exn → AuthM Answer}
    (hf : ∀ a e, f a ≠ .errors e) (hh : ∀ e, Triple (fun _ => True) (h e) Returned (fun _ _ => True)) :
    Triple (fun _ => True) (handle (m >>= fun a => pure (f a)) h) Returned (fun _ _ => True) :=
  .handle (.bind .trivial (fun a => .pure _ (fun _ _ => hf a))) hh

theorem revoke_returned (faults : Faults) (header sessionId : String) (ip : Option String)
    (d : RevokeDraws) :
    Triple (fun _ => True) (revoke g faults header sessionId ip d) Returned (fun _ _ => True) := by
  have hresult : ∀ success message,
      Triple (fun _ => True) (pure (.operationResult success message) : AuthM Answer) Returned
        (fun _ _ => True) := fun _ _ => .pure _ (fun _ _ => by simp [Returned])
  unfold revoke
  cases bearerToken header with
  | none => exact hresult _ _
  | some token =>
    refine .bind .trivial (fun decoded => ?_)
    cases decoded with
    | none => exact hresult _ _
    | some claims =>
      simp only
      split_ifs
      · exact hresult _ _
      refine .bind .trivial (fun valid => ?_)
      split_ifs
      · exact hresult _ _
      cases UUID.parse sessionId with
      | none => exact .raise _ (fun _ => id)
      | some sid =>
        refine .bind .trivial (fun data => ?_)
        cases data with
        | none => exact hresult _ _
        | some h =>
          simp only
          split_ifs
          · exact hresult _ _
          · exact wrapped_returned (fun _ _ => by simp) (fun _ => hresult _ _)

theorem resolve_returned (faults : Faults) (r : Request) :
    Triple (fun _ => True) (resolve g faults r) Returned (fun _ _ => True) := by
  have hresult : ∀ success message,
      Triple (fun _ => True) (pure (.operationResult success message) : AuthM Answer) Returned
        (fun _ _ => True) := fun _ _ => .pure _ (fun _ _ => by simp [Returned])
  have hraise : ∀ e, Triple (fun _ => True) (raise e : AuthM Answer) Returned (fun _ _ => True) :=
    fun e => .raise e (fun _ => id)
  cases r with
  | register email password d =>
    unfold resolve register
    refine wrapped_returned (fun _ _ => by simp) (fun e => ?_)
    cases e <;> first | exact hresult _ _ | exact hraise _
  | login email password device ip d =>
    unfold resolve login
    refine wrapped_returned (fun _ _ => by simp [TokenPairDTO.toPayload]) (fun e => ?_)
    cases e <;> exact hraise _
  | refreshToken token ip d =>
    unfold resolve refresh
    refine wrapped_returned (fun _ _ => by simp [TokenPairDTO.toPayload]) (fun e => ?_)
    cases e <;> exact hraise _
  | revokeSession header sessionId ip d => exact revoke_returned faults header sessionId ip d
  | requestPasswordReset email ip d =>
    unfold resolve requestReset
    refine wrapped_returned (fun _ _ => by simp) (fun e => ?_)
    cases e <;> first | exact hresult _ _ | exact hraise _
  | resetPassword token newPassword ip d =>
    unfold resolve reset
    refine wrapped_returned (fun _ _ => by simp) (fun e => ?_)
    cases e <;> first | exact hresult _ _ | exact hraise _
  | me header => exact .bind .trivial (fun _ => .pure _ (fun _ _ => by simp [Returned]))

/-- One mutation field is answered as the service answers its request. -/
theorem executed_serves {c : ExecutionContext} (hcommits : v.commits = true) {call : FieldCall}
    (hplan : plan c v.request v.chance = some (.mutation, [call])) (hfaults : call.faults = noFaults)
    {r : Request} (hr : call.request = some r) (w : World) :
    executed g v c w = (resultOf call.responseKey (answer g noFaults r w), after g noFaults r w) := by
  rw [answer_eq, after_eq]
  cases hx : resolve g noFaults r { w with commands := 0 } with
  | mk x w' =>
    have hcall : resolve g call.faults r { w with commands := 0 } = (x, w') := by rw [hfaults, hx]
    cases x with
    | ok a =>
      have hrun : call.run g "AuthMutation" { w with commands := 0 } = (.ok (.answer a), w') := by
        unfold FieldCall.run
        rw [hr]
        exact (bind_ok hcall).trans (pure_run _ _)
      have hexec : execution g c v.request v.chance { w with commands := 0 } =
          (.ok ⟨some [(call.responseKey, .answer a)], []⟩, w') := by
        unfold execution
        rw [hplan]
        exact handle_ok ((bind_ok ((bind_ok hrun).trans (bind_ok (pure_run _ _)))).trans (pure_run _ _))
      have hreturned : Returned a w' := (resolve_returned noFaults r).ok trivial hx
      simp only [executed, hexec, hcommits, if_true, reported]
      cases a with
      | errors e => exact absurd rfl (hreturned e)
      | operationResult | authPayload | userInfo => rfl
    | error e =>
      have hrun : call.run g "AuthMutation" { w with commands := 0 } = (.error e, w') := by
        unfold FieldCall.run
        rw [hr]
        exact bind_error hcall
      have hexec : execution g c v.request v.chance { w with commands := 0 } =
          (.ok (errorResult (errorOf e)), w') := by
        unfold execution
        rw [hplan]
        exact (handle_error (bind_error (bind_error hrun))).trans (pure_run _ _)
      simp only [executed, hexec, hcommits, if_true, reported, resultOf]

end Execution

/-! ## The simulation -/

section Simulation
variable {g : GlobalContainer} {word : Char → Bool} {parse : String → Option Document}

/-- The state of the service that stands for the application after a history. -/
structure StandsIn (g : GlobalContainer) (word : Char → Bool) (parse : String → Option Document)
    (p : List (HttpState × HttpEvent)) (s : HttpState) (t : ServiceState) : Prop where
  world : SameWorld s.world t.world
  session : s.world.db.Fresh
  drawn : DrawnBy (p.filterMap (servedBy g word parse)) t

theorem executed_cases {v : Visit} (hplain : PlainVisit parse v) {c : ExecutionContext}
    (hc : contextOf parse v.request = some c) {w : World} (hw : w.db.Fresh) :
    (plannedRequest v c = none ∧ SameWorld w (executed g v c w).2) ∨
      ∃ r key, plannedRequest v c = some r ∧
        executed g v c w = (resultOf key (answer g noFaults r w), after g noFaults r w) := by
  cases hplanned : plannedRequest v c with
  | none => exact .inl ⟨rfl, executed_untouched hplain hc hplanned hw⟩
  | some r =>
    unfold plannedRequest at hplanned
    split at hplanned
    · rename_i call hplan
      rcases plain_calls hplain hc hplan with hnil | ⟨call', hcall, hfaults⟩
      · cases hnil
      · obtain ⟨rfl, -⟩ := List.cons.inj hcall
        exact .inr ⟨r, _, rfl, executed_serves hplain.commits hplan hfaults hplanned w⟩
    · cases hplanned

theorem visit_serves (g : GlobalContainer) (word : Char → Bool) {v : Visit}
    (hplain : PlainVisit parse v) {s : HttpState} (hs : s.world.db.Fresh) :
    (servedRequest g word parse s v = none ∧ SameWorld s.world (visit g word parse v s).2.world) ∨
      ∃ r key, servedRequest g word parse s v = some r ∧
        (visit g word parse v s).2.world = after g noFaults r s.world ∧
        (visit g word parse v s).1 = .result (resultOf key (answer g noFaults r s.world)) := by
  unfold servedRequest
  by_cases hforwarded : (dispatch g.unicode word v.request.post s.limiter).1 = .forwarded
  · rw [if_pos hforwarded, visit_forwarded hforwarded]
    unfold route
    cases hc : contextOf parse v.request with
    | none => exact .inl ⟨rfl, rfl⟩
    | some c =>
      -- the records are those of the state before, whatever was counted
      have hstore : ∀ counters, HttpState.store { s with counters := counters } = s.store :=
        fun _ => rfl
      unfold graphql
      simp only [hstore]
      cases lookup g.sha256 c s.store with
      | replay data => exact .inl ⟨rfl, rfl⟩
      | conflict => exact .inl ⟨rfl, rfl⟩
      | notEnrolled =>
        rcases executed_cases hplain hc hs with ⟨hnone, hsame⟩ | ⟨r, key, hr, hx⟩
        · exact .inl ⟨hnone, hsame⟩
        · exact .inr ⟨r, key, hr, congrArg Prod.snd hx, by simp only [hx]⟩
      | miss =>
        rcases executed_cases hplain hc hs with ⟨hnone, hsame⟩ | ⟨r, key, hr, hx⟩
        · exact .inl ⟨hnone, hsame⟩
        · exact .inr ⟨r, key, hr, congrArg Prod.snd hx, by simp only [hx]⟩
  · rw [if_neg hforwarded]
    refine .inl ⟨rfl, ?_⟩
    rw [visit_refused hforwarded]
    rfl

theorem after_sameWorld {w w' : World} (h : SameWorld w w') (r : Request) :
    after g noFaults r w' = after g noFaults r w := by
  rw [after_eq, after_eq, h]

theorem SameWorld.advance {w w' : World} (h : SameWorld w w') (d : ℕ) :
    SameWorld { w with redis := w.redis.advance d } { w' with redis := w'.redis.advance d } := by
  unfold SameWorld at h ⊢
  simp only [World.mk.injEq] at h ⊢
  obtain ⟨hr, hrest⟩ := h
  exact ⟨by rw [hr], hrest⟩

theorem SameWorld.trans {w w' w'' : World} (h : SameWorld w w') (h' : SameWorld w' w'') :
    SameWorld w w'' :=
  Eq.trans h' h

theorem SameWorld.symm {w w' : World} (h : SameWorld w w') : SameWorld w' w := Eq.symm h

theorem SameWorld.fresh {w w' : World} (h : SameWorld w w') (hw : w.db.Fresh) : w'.db.Fresh := by
  simp only [SameWorld, World.mk.injEq] at h
  rwa [h.2.1]

theorem standsIn_step {p : List (HttpState × HttpEvent)} {s u : HttpState} {e : HttpEvent}
    {t : ServiceState}
    (hplain : Plain parse s e)
    (hapart : ∀ r, servedBy g word parse (s, e) = some r →
      ∀ r' ∈ p.filterMap (servedBy g word parse), Apart r r')
    (h : StandsIn g word parse p s t) (hs : HttpStep g word parse s e u) :
    Matches (service g) (StandsIn g word parse ((s, e) :: p) u) t (visible g word parse (s, e)) := by
  cases hs with
  | wait d =>
    refine ⟨t.advance d, ServiceStep.wait t d, h.world.advance d, h.session, ?_⟩
    exact ⟨h.drawn.sessions, h.drawn.jtis, h.drawn.refreshTokens, h.drawn.rawTokens, h.drawn.tokenIds⟩
  | visit v fresh =>
    have hserved : servedBy g word parse (s, .visit v) = servedRequest g word parse s v := rfl
    rcases visit_serves g word hplain h.session with ⟨hnone, hsame⟩ | ⟨r, key, hr, hworld, -⟩
    · simp only [visible, hnone, Option.map_none]
      refine ⟨hsame.symm.trans h.world, hsame.fresh h.session, ?_⟩
      rw [List.filterMap_cons_none (hserved.trans hnone)]
      exact h.drawn
    · simp only [visible, hr, Option.map_some]
      refine ⟨_, ServiceStep.request t r (h.drawn.fresh (hapart r (hserved.trans hr))), ?_, ?_, ?_⟩
      · rw [recordDraws_world, after_sameWorld h.world, hworld]
        exact rfl
      · rw [hworld, after_eq]
        exact Session.commit_fresh _ _
      · rw [List.filterMap_cons_some (hserved.trans hr)]
        exact h.drawn.record r _

/-- POSTs with one mutation each, whose calls do not fail, are a run of the service with the same
requests, and are answered as the service answers these. -/
theorem posts_refine_service {s s' : HttpState} {p : List (HttpState × HttpEvent)} (hs : Opens g s)
    (hempty : Unopened s) (h : Runs (http g word parse) s p s') (hplain : Meets (Plain parse) p)
    (hfresh : Unrepeated g word parse p) :
    (∃ t q t', Starts g t ∧ Runs (service g) t q t' ∧
      q.map Prod.snd = p.filterMap (visible g word parse) ∧ SameWorld s'.world t'.world) ∧
    ∀ b v r, (b, HttpEvent.visit v) ∈ p → servedRequest g word parse b v = some r →
      ∃ key, (visit g word parse v b).1 = .result (resultOf key (answer g noFaults r b.world)) := by
  have hstart : StandsIn g word parse [] s ⟨s.world, Drawn.none, [], []⟩ := by
    refine ⟨rfl, hs.session, ?_⟩
    constructor <;> exact fun x hx => absurd hx List.not_mem_nil
  constructor
  · obtain ⟨q, t', hq, hlabels, hR⟩ := Runs.simulates (T := service g) (StandsIn g word parse)
      (visible g word parse) (fun p => Unrepeated g word parse p ∧ Meets (Plain parse) p)
      (fun x p hC => ⟨hC.1.2, (meets_cons.1 hC.2).2⟩)
      (fun p s l u t hC hI hstep => standsIn_step (meets_cons.1 hC.2).1 hC.1.1 hI hstep)
      h ⟨hfresh, hplain⟩ hstart
    exact ⟨_, q, t', ⟨hempty.redis, hs.session, hs.tables, hs.noTokens, hempty.unsigned, rfl, rfl⟩, hq,
      hlabels, hR.world⟩
  · intro b v r hmem hr
    have hv : PlainVisit parse v := hplain _ hmem
    obtain ⟨newer, older, rfl⟩ := List.append_of_mem hmem
    obtain ⟨b', hbefore, -, -⟩ := h.split
    have hsession := (run_invariant hs hbefore).session
    rcases visit_serves g word hv hsession with ⟨hnone, -⟩ | ⟨r', key, hr', -, hx⟩
    · rw [hr] at hnone
      cases hnone
    · obtain rfl := Option.some.inj (hr.symm.trans hr')
      exact ⟨key, hx⟩

end Simulation

section Sample
open SampleContainer

theorem posts_refine_service_login :
    (∃ t q t', Starts sample t ∧ Runs (service sample) t q t' ∧
      q.map Prod.snd = [(sampleHttp, .visit loginVisit)].filterMap
        (visible sample isWordChar parseSample) ∧
      SameWorld loggedInHttp.world t'.world) ∧
    ∀ b v r, (b, HttpEvent.visit v) ∈ [(sampleHttp, .visit loginVisit)] →
      servedRequest sample isWordChar parseSample b v = some r →
      ∃ key, (visit sample isWordChar parseSample v b).1 =
        .result (resultOf key (answer sample noFaults r b.world)) :=
  posts_refine_service sampleHttp_opens ⟨⟨_, rfl⟩, rfl⟩ loginVisit_runs
    (meets_cons.2 ⟨⟨by decide +kernel, fun _ => rfl, rfl⟩, meets_nil _⟩)
    ⟨fun _ _ r' hr' => absurd hr' List.not_mem_nil, trivial⟩

end Sample

end AuthService.PostRefinement
