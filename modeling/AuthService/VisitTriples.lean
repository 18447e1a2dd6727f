import AuthService.HttpService
import AuthService.RequestTriples

set_option autoImplicit false

/-! Assertions along the root fields of a visit. -/
namespace AuthService.VisitTriples
open PythonText AccountTables Transactions FallibleState Fallible FallibleTriples JsonText
open GraphqlDocuments RequestPorts GraphqlResolvers RateLimitMiddleware IdempotencyExtension
  EmailCounters
open RequestTriples HttpService

/-- The root field at this position of the operation that the visit executes calls this resolver. -/
def PerformsAt (parse : String → Option Document) (v : Visit) (i : ℕ) (r : Request) : Prop :=
  ∃ f, (executedFields parse v.request.post)[i]? = some f ∧
    mutationRequest v.request (v.chance i) f = some r

def Performs (parse : String → Option Document) (v : Visit) (r : Request) : Prop :=
  ∃ i, PerformsAt parse v i r

section Visit
variable {g : GlobalContainer} {parse : String → Option Document} {v : Visit}

theorem PerformsAt.lt {i : ℕ} {r : Request} (h : PerformsAt parse v i r) :
    i < (executedFields parse v.request.post).length := by
  obtain ⟨f, hf, -⟩ := h
  exact (List.getElem?_eq_some_iff.1 hf).1

structure Along (g : GlobalContainer) (parse : String → Option Document) (v : Visit)
    (A : ℕ → World → Prop) : Prop where
  mono : ∀ i w, A i w → A (i + 1) w
  resolves : ∀ i r faults, PerformsAt parse v i r →
    Triple (A i) (resolve g faults r) (fun _ => A (i + 1)) (fun _ => A (i + 1))

theorem Along.le {A : ℕ → World → Prop} (hA : Along g parse v A) {i j : ℕ} (h : i ≤ j) (w : World)
    (hw : A i w) : A j w := by
  induction h with
  | refl => exact hw
  | step _ ih => exact hA.mono _ w ih

theorem callOf_performs {i : ℕ} {f : RootField} {call : FieldCall}
    (hf : (executedFields parse v.request.post)[i]? = some f)
    (hcall : callOf v.request (v.chance i) .mutation f = some call) :
    call.faults = (v.chance i).faults ∧ ∀ r, call.request = some r ↔ PerformsAt parse v i r := by
  unfold callOf at hcall
  split_ifs at hcall with hname
  · obtain rfl := Option.some.inj hcall
    refine ⟨rfl, fun r => iff_of_false (by simp) ?_⟩
    rintro ⟨f', hf', hr⟩
    obtain rfl := Option.some.inj (hf.symm.trans hf')
    simp [mutationRequest, hname] at hr
  · obtain ⟨r, hr, rfl⟩ := Option.map_eq_some_iff.1 hcall
    refine ⟨rfl, fun r' => ⟨fun h => ⟨f, hf, hr.trans h⟩, ?_⟩⟩
    rintro ⟨f', hf', hr'⟩
    obtain rfl := Option.some.inj (hf.symm.trans hf')
    exact hr.symm.trans hr'

theorem callsFrom_cons {f : RootField} {fields : List RootField} {i : ℕ} {calls : List FieldCall}
    (hfields : f :: fields = (executedFields parse v.request.post).drop i)
    (hcalls : callsFrom v.request v.chance .mutation i (f :: fields) = some calls) :
    fields = (executedFields parse v.request.post).drop (i + 1) ∧
      ∃ call rest, calls = call :: rest ∧ call.faults = (v.chance i).faults ∧
        (∀ r, call.request = some r ↔ PerformsAt parse v i r) ∧
        callsFrom v.request v.chance .mutation (i + 1) fields = some rest := by
  have hf : (executedFields parse v.request.post)[i]? = some f := by
    have h0 := congrArg (fun l => l[0]?) hfields
    simpa using h0.symm
  have hrest : fields = (executedFields parse v.request.post).drop (i + 1) := by
    have h1 := congrArg List.tail hfields
    simpa using h1
  simp only [callsFrom, Option.bind_eq_bind, Option.bind_eq_some_iff, Option.some.injEq] at hcalls
  obtain ⟨call, hcall, rest, hrests, rfl⟩ := hcalls
  obtain ⟨hfaults, hperforms⟩ := callOf_performs hf hcall
  exact ⟨hrest, call, rest, rfl, hfaults, hperforms, hrests⟩

theorem triple_runMutation {A : ℕ → World → Prop} (hA : Along g parse v A) {fields : List RootField}
    {i : ℕ} {calls : List FieldCall} (hfields : fields = (executedFields parse v.request.post).drop i)
    (hcalls : callsFrom v.request v.chance .mutation i fields = some calls) {N : ℕ}
    (hN : i + fields.length ≤ N) :
    Triple (A i) (runMutation g calls) (fun _ => A N) (fun _ => A N) := by
  induction fields generalizing i calls with
  | nil =>
    cases hcalls
    exact .pure _ (hA.le (by simpa using hN))
  | cons f fields ih =>
    have hlen : i + 1 + fields.length ≤ N := by
      rw [List.length_cons] at hN
      omega
    obtain ⟨hrest, call, calls', rfl, -, hperforms, hcalls'⟩ := callsFrom_cons hfields hcalls
    refine .bind (Q := fun _ => A (i + 1)) ?_
      (fun value => .bind (ih hrest hcalls' hlen) (fun data => stays_pure _))
    -- the one call at this position
    unfold FieldCall.run
    cases hr : call.request with
    | none => exact .pure _ (hA.mono i)
    | some r =>
      exact .bind ((hA.resolves i r call.faults ((hperforms r).1 hr)).consequence (fun _ => id)
        (fun _ _ => id) (fun _ => hA.le (by omega))) (fun _ => .pure _ (fun _ => id))

theorem runQuery_stays {I : World → Prop} (hI : Readable I) {h : HttpRequest} {chance : ℕ → Chance}
    {fields : List RootField} {i : ℕ} {calls : List FieldCall}
    (hcalls : callsFrom h chance .query i fields = some calls) : Stays I (runQuery g calls) := by
  induction fields generalizing i calls with
  | nil =>
    cases hcalls
    exact stays_pure _
  | cons f fields ih =>
    simp only [callsFrom, Option.bind_eq_bind, Option.bind_eq_some_iff, Option.some.injEq] at hcalls
    obtain ⟨call, hcall, calls', hcalls', rfl⟩ := hcalls
    have hrun : Stays I (call.run g "AuthQuery") := by
      unfold callOf queryRequest at hcall
      unfold FieldCall.run
      split_ifs at hcall with h1 h2
      · obtain rfl := Option.some.inj hcall
        exact stays_pure _
      · obtain ⟨r, hr, rfl⟩ := Option.map_eq_some_iff.1 hcall
        obtain rfl := Option.some.inj hr
        exact stays_bind (stays_bind (stays_me hI _) (fun _ => stays_pure _)) (fun _ => stays_pure _)
      · cases hcall
    refine stays_bind (stays_handle (stays_bind hrun (fun _ => stays_pure _))
      (fun _ => stays_pure _)) ?_
    exact fun _ => stays_bind (ih hcalls') (fun _ => stays_pure _)

theorem operationName_cases {body : Variables} {name : Option String}
    (h : operationName body = some name) :
    (Variables.get body "operationName" = none ∨ Variables.get body "operationName" = some .null) ∧
      name = none ∨ ∃ s, Variables.get body "operationName" = some (.string s) ∧ name = some s := by
  unfold operationName optionalText at h
  split at h
  · rename_i hget
    exact .inl ⟨.inl hget, (Option.some.inj h).symm⟩
  · rename_i hget
    exact .inl ⟨.inr hget, (Option.some.inj h).symm⟩
  · rename_i s hget
    exact .inr ⟨s, hget, (Option.some.inj h).symm⟩
  · cases h

theorem variableValues_cases {body : Variables} {values : Option Variables}
    (h : variableValues body = some values) :
    (Variables.get body "variables" = none ∨ Variables.get body "variables" = some .null) ∧
      values = none ∨ ∃ vs, Variables.get body "variables" = some (.object vs) ∧ values = some vs := by
  unfold variableValues at h
  split at h
  · rename_i hget
    exact .inl ⟨.inl hget, (Option.some.inj h).symm⟩
  · rename_i hget
    exact .inl ⟨.inr hget, (Option.some.inj h).symm⟩
  · rename_i vs hget
    exact .inr ⟨vs, hget, (Option.some.inj h).symm⟩
  · cases h

theorem contextOf_fields {c : ExecutionContext} (hc : contextOf parse v.request = some c)
    {op : Operation}
    (hop : c.executedOperation = some op) :
    executedFields parse v.request.post = if op.type = .mutation then op.rootFields else [] := by
  unfold contextOf at hc
  split at hc
  · rename_i body hbody
    simp only [Option.bind_eq_bind, Option.bind_eq_some_iff, Option.some.injEq] at hc
    obtain ⟨query, hquery, document, hparse, name, hname, values, hvalues, rfl⟩ := hc
    have hquery' : Variables.get body "query" = some (.string query) := by
      unfold text at hquery
      split at hquery
      · rename_i s hs
        rw [hs, ← Option.some.inj hquery]
      · cases hquery
    have hselected : selectOperation document name (values.getD []) = some op := hop
    unfold executedFields
    simp only [hbody, hquery', hparse]
    rcases operationName_cases hname with ⟨hn | hn, rfl⟩ | ⟨s, hn, rfl⟩ <;>
      rcases variableValues_cases hvalues with ⟨hv | hv, rfl⟩ | ⟨vs, hv, rfl⟩ <;>
      simp only [Option.getD_none, Option.getD_some] at hselected <;>
      simp only [hn, hv, hselected]
  · cases hc

theorem plan_eq_some {c : ExecutionContext} {h : HttpRequest} {chance : ℕ → Chance}
    {type : OperationType} {calls : List FieldCall} (hplan : plan c h chance = some (type, calls)) :
    ∃ op, c.executedOperation = some op ∧ op.type = type ∧
      callsFrom h chance type 0 op.rootFields = some calls := by
  simp only [plan, Option.bind_eq_bind, Option.bind_eq_some_iff, Option.some.injEq, Prod.mk.injEq]
    at hplan
  obtain ⟨op, hop, calls', hcalls, rfl, rfl⟩ := hplan
  exact ⟨op, hop, rfl, hcalls⟩

theorem triple_execution {A : ℕ → World → Prop} (hA : Along g parse v A) (hquery : Readable (A 0))
    {c : ExecutionContext} (hc : contextOf parse v.request = some c) {N : ℕ}
    (hN : (executedFields parse v.request.post).length ≤ N) :
    Triple (A 0) (execution g c v.request v.chance) (fun _ => A N) (fun _ => A N) := by
  have hmono : ∀ w, A 0 w → A N w := hA.le (Nat.zero_le N)
  unfold execution
  cases hplan : plan c v.request v.chance with
  | none => exact .pure _ hmono
  | some x =>
    obtain ⟨type, calls⟩ := x
    obtain ⟨op, hop, htype, hcalls⟩ := plan_eq_some hplan
    unfold executeOperation
    cases type with
    | mutation =>
      have hfields := (contextOf_fields hc hop).trans (if_pos htype)
      rw [← hfields] at hcalls
      have hrun := triple_runMutation hA (by simp) hcalls (by simpa using hN)
      exact .handle (.bind hrun (fun _ => stays_pure _)) (fun _ => stays_pure _)
    | query =>
      exact (stays_bind (runQuery_stays hquery hcalls) (fun _ => stays_pure _)).consequence
        (fun _ => id) (fun _ => hmono) (fun _ => hmono)
    | subscription => exact .pure _ hmono

theorem executed_along {A : ℕ → World → Prop} (hA : Along g parse v A) (hquery : Readable (A 0))
    {c : ExecutionContext} (hc : contextOf parse v.request = some c) {w : World}
    (hw : A 0 { w with commands := 0 }) :
    ∃ w', A (executedFields parse v.request.post).length w' ∧ (executed g v c w).2 =
      { w' with db := if v.commits then w'.db.commit Statement.apply else w'.db.discard } := by
  have hrun := triple_execution hA hquery hc le_rfl
  unfold executed
  cases hx : execution g c v.request v.chance { w with commands := 0 } with
  | mk x w' =>
    refine ⟨w', ?_, rfl⟩
    cases x with
    | ok r => exact hrun.ok hw hx
    | error e => exact hrun.error hw hx

theorem visit_forwarded {word : Char → Bool} {s : HttpState}
    (h : (dispatch g.unicode word v.request.post s.limiter).1 = .forwarded) :
    visit g word parse v s = route g parse v
      { s with counters := (dispatch g.unicode word v.request.post s.limiter).2.count } := by
  unfold visit
  simp only [h]

theorem visit_refused {word : Char → Bool} {s : HttpState}
    (h : (dispatch g.unicode word v.request.post s.limiter).1 ≠ .forwarded) :
    (visit g word parse v s).2 =
      { s with counters := (dispatch g.unicode word v.request.post s.limiter).2.count } := by
  unfold visit
  simp only
  split
  · rfl
  · rfl
  · rename_i hverdict
    exact absurd hverdict h

theorem visit_cases (g : GlobalContainer) (word : Char → Bool) (parse : String → Option Document)
    (v : Visit) (s : HttpState) :
    (visit g word parse v s).2.world = s.world ∨ ∃ c, contextOf parse v.request = some c ∧
      (visit g word parse v s).2.world = (executed g v c s.world).2 := by
  unfold visit
  simp only
  split
  · exact .inl rfl
  · exact .inl rfl
  · unfold route
    split
    · exact .inl rfl
    · rename_i c hc
      unfold graphql
      split
      · exact .inl rfl
      · exact .inl rfl
      · exact .inr ⟨c, hc, rfl⟩
      · exact .inr ⟨c, hc, rfl⟩

end Visit

end AuthService.VisitTriples
