import AuthService.RedisKeyspace

set_option autoImplicit false

/-! The e-mail counter that the middleware moves, against the e-mail that the resolver of the
request is called with. -/
namespace AuthService.EmailCounters
open PythonText JsonText GraphqlDocuments ExpiringMaps RedisSessions RateLimiter RateLimitMiddleware
open RedisKeyspace

def executedFields (parse : String → Option Document) (p : Post) : List RootField :=
  match p.body with
  | some (.object body) =>
    match Variables.get body "query" with
    | some (.string query) =>
      match parse query with
      | none => []
      | some document =>
        match selectOperation document
            (match Variables.get body "operationName" with
              | some (.string name) => some name
              | _ => none)
            (match Variables.get body "variables" with
              | some (.object values) => values
              | _ => []) with
        | none => []
        | some op => if op.type = .mutation then op.rootFields else []
    | _ => []
  | _ => []

def inputEmail (f : RootField) : Option String :=
  match Variables.get f.arguments "input" with
  | some (.object input) =>
    match Variables.get input "email" with
    | some (.string e) => some e
    | _ => none
  | _ => none

/-- The request runs one resolver, that of the operation, for the address `e`. -/
def ActsOn (parse : String → Option Document) (operation e : String) (p : Post) : Prop :=
  ∃ f, executedFields parse p = [f] ∧ f.name = operation ∧ inputEmail f = some e

/-- `x or {}`, where that is a dictionary. -/
def dictOr : Option Json → Option Variables
  | none => some []
  | some (.object fields) => some fields
  | some j => if truthy j then none else some []

/-- The text under `variables.input.email`, or under `variables.email` where that is false, is
the address `e` up to normalisation. -/
def Supplies (u : Unicode) (e : String) (body : Variables) : Prop :=
  ∃ values input text, dictOr (body.get "variables") = some values ∧
    dictOr (Variables.get values "input") = some input ∧
    orElse (Variables.get input "email") (Variables.get values "email") = some (.string text) ∧
    text ≠ "" ∧ strip (u.lowerText text) = strip (u.lowerText e)

theorem ActsOn.object {parse : String → Option Document} {operation e : String} {p : Post}
    (h : ActsOn parse operation e p) : ∃ body, p.body = some (.object body) := by
  obtain ⟨f, hf, -⟩ := h
  unfold executedFields at hf
  split at hf
  · rename_i body hbody
    exact ⟨body, hbody⟩
  · cases hf

structure CountsOnly (operation address : String) (c c' : Counters) : Prop where
  counted : c'.count.value (emailKey operation address) =
    some ((c.count.value (emailKey operation address)).getD 0 + 1)
  others : ∀ operation' ∈ limitedOperations, ∀ address', (operation', address') ≠ (operation, address) →
    c'.count (emailKey operation' address') = c.count (emailKey operation' address')

section Keys
variable {operation operation' : String}

theorem limited_of_rules {rules : List Rule} (h : rulesOf operation = some rules) :
    operation ∈ limitedOperations := by
  obtain ⟨x, hx, -⟩ := Option.map_eq_some_iff.1 h
  have hname := List.find?_some hx
  simp only [decide_eq_true_eq] at hname
  exact List.mem_map.2 ⟨x, List.mem_of_find?_eq_some hx, hname⟩

theorem emailKey_eq_iff (h : operation ∈ limitedOperations) (h' : operation' ∈ limitedOperations)
    {x y : String} : emailKey operation x = emailKey operation' y ↔ operation = operation' ∧ x = y := by
  constructor
  · intro he
    have hk : LogicalKey.counter ⟨operation, h⟩ .email x = .counter ⟨operation', h'⟩ .email y :=
      text_injective he
    cases hk
    exact ⟨rfl, rfl⟩
  · rintro ⟨rfl, rfl⟩
    rfl

theorem emailKey_ne_ipKey (h : operation ∈ limitedOperations) (h' : operation' ∈ limitedOperations)
    (x ip : String) : emailKey operation x ≠ ipKey operation' ip := by
  intro he
  have hk : LogicalKey.counter ⟨operation, h⟩ .email x = .counter ⟨operation', h'⟩ .ip ip :=
    text_injective he
  cases hk

end Keys

section Rules
variable {u : Unicode} {ip operation : String}

theorem applyRules_other {email : Option Json} {k : String} (hip : k ≠ ipKey operation ip)
    {rules : List Rule} (hemail : ∀ rule ∈ rules, rule.dimension = .email →
      ∀ text, orElse email none = some (.string text) →
        k ≠ emailKey operation (strip (u.lowerText text)))
    (c : Counters) : (applyRules u ip operation email rules c).2.count k = c.count k := by
  induction rules generalizing c with
  | nil => rfl
  | cons rule rules ih =>
    have hrest := ih (fun r hr => hemail r (List.mem_cons_of_mem _ hr))
    unfold applyRules
    cases hdim : rule.dimension with
    | ip =>
      have hcheck := @check_other (checkIp ip operation rule.limit rule.window) c k hip
      simp only
      split
      · rename_i e c' heq
        rw [heq] at hcheck
        exact hcheck
      · rename_i c' heq
        rw [heq] at hcheck
        rw [hrest, hcheck]
    | email =>
      simp only
      split
      · exact hrest c
      · rename_i text htext
        have hcheck := @check_other (checkEmail u text operation rule.limit rule.window) c k
          (hemail rule List.mem_cons_self hdim text htext)
        split
        · rename_i e c' heq
          rw [heq] at hcheck
          exact hcheck
        · rename_i c' heq
          rw [heq] at hcheck
          rw [hrest, hcheck]
      · rfl

theorem emailKey_kept {email : Option Json} {rules : List Rule} {operation' address : String}
    {c c' : Counters} {v : Verdict} (h : applyRules u ip operation email rules c = (v, c'))
    (hlimited : operation ∈ limitedOperations) (hlimited' : operation' ∈ limitedOperations)
    (hother : ∀ text, orElse email none = some (.string text) →
      (operation', address) ≠ (operation, strip (u.lowerText text))) :
    c'.count (emailKey operation' address) = c.count (emailKey operation' address) := by
  have hkept := @applyRules_other u ip operation email (emailKey operation' address)
    (emailKey_ne_ipKey hlimited' hlimited _ _) rules ?_ c
  · rw [h] at hkept
    exact hkept
  · intro _ _ _ text htext he
    obtain ⟨rfl, rfl⟩ := (emailKey_eq_iff hlimited' hlimited).1 he
    exact hother text htext rfl

theorem applyRules_counted {email : Option Json} {text : String}
    (htext : orElse email none = some (.string text)) (hlimited : operation ∈ limitedOperations)
    {rules : List Rule} (hone : (rules.filter (fun r => r.dimension = .email)).length = 1)
    {c c' : Counters} (h : applyRules u ip operation email rules c = (.forwarded, c')) :
    c'.count.value (emailKey operation (strip (u.lowerText text))) =
      some ((c.count.value (emailKey operation (strip (u.lowerText text)))).getD 0 + 1) := by
  have hip := emailKey_ne_ipKey hlimited hlimited (strip (u.lowerText text)) ip
  induction rules generalizing c with
  | nil => cases hone
  | cons rule rules ih =>
    unfold applyRules at h
    cases hdim : rule.dimension with
    | ip =>
      simp only [hdim] at h
      have hcheck := @check_other (checkIp ip operation rule.limit rule.window) c _ hip
      split at h
      · cases h
      · rename_i c₁ heq
        rw [heq] at hcheck
        have hrest := ih (by simpa [hdim] using hone) h
        rwa [ExpiringMap.value, ExpiringMap.value, hcheck] at hrest
    | email =>
      simp only [hdim, htext] at h
      have hown := check_own (checkEmail u text operation rule.limit rule.window) c
      split at h
      · cases h
      · rename_i c₁ heq
        rw [heq] at hown
        have hnone : ∀ r ∈ rules, r.dimension ≠ .email := by
          simpa [hdim] using hone
        have hother := @applyRules_other u ip operation email _ hip rules
          (fun r hr he => absurd he (hnone r hr)) c₁
        rw [h] at hother
        rw [ExpiringMap.value, hother]
        exact hown

end Rules

/-! ## What a forwarded request did -/

section Requests
variable {u : Unicode} {word : Char → Bool} {p : Post} {c c' : Counters} {body : Variables}
  {operation : String}

theorem orElse_text {email : Option Json} {text : String} :
    orElse email none = some (.string text) ↔ email = some (.string text) ∧ text ≠ "" := by
  cases email with
  | none => simp [orElse]
  | some j =>
    by_cases h : truthy j = true
    · simp only [orElse, h, ↓reduceIte, Option.some.injEq]
      refine ⟨fun hj => ⟨hj, ?_⟩, And.left⟩
      rw [hj] at h
      simpa [truthy] using h
    · simp only [orElse, h]
      refine iff_of_false (by simp) ?_
      rintro ⟨hj, hne⟩
      rw [Option.some.inj hj] at h
      exact h (by simpa [truthy] using hne)

theorem orElse_dict {x : Option Json} {fields : Variables} :
    dictOr x = some fields ↔ orElse x (some (.object [])) = some (.object fields) := by
  cases x with
  | none => simp [dictOr, orElse]
  | some j =>
    cases j with
    | object fields' => cases fields' <;> simp [dictOr, orElse, truthy]
    | null => simp [dictOr, orElse, truthy]
    | bool b => cases b <;> simp [dictOr, orElse, truthy]
    | number n => by_cases h : truthy (.number n) = true <;> simp [dictOr, orElse, h]
    | string text => by_cases h : truthy (.string text) = true <;> simp [dictOr, orElse, h]
    | array items => by_cases h : truthy (.array items) = true <;> simp [dictOr, orElse, h]

theorem extractEmail_eq : extractEmail body = (dictOr (body.get "variables")).bind fun values =>
    (dictOr (Variables.get values "input")).map fun input =>
      orElse (Variables.get input "email") (Variables.get values "email") := by
  unfold extractEmail
  cases hv : dictOr (body.get "variables") with
  | none =>
    split
    · rename_i values h
      rw [orElse_dict.2 h] at hv
      cases hv
    · rfl
  | some values =>
    rw [orElse_dict.1 hv]
    simp only [Option.bind_some]
    cases hi : dictOr (Variables.get values "input") with
    | none =>
      split
      · rename_i input h
        rw [orElse_dict.2 h] at hi
        cases hi
      · rfl
    | some input =>
      rw [orElse_dict.1 hi]
      rfl

theorem supplies_iff {e : String} : Supplies u e body ↔ ∃ email text, extractEmail body = some email ∧
    orElse email none = some (.string text) ∧ strip (u.lowerText text) = strip (u.lowerText e) := by
  rw [extractEmail_eq]
  constructor
  · rintro ⟨values, input, text, hvalues, hinput, htext, hne, hsame⟩
    refine ⟨some (.string text), text, ?_, orElse_text.2 ⟨rfl, hne⟩, hsame⟩
    rw [hvalues, Option.bind_some, hinput, Option.map_some, htext]
  · rintro ⟨email, text, hemail, htext, hsame⟩
    obtain ⟨values, hvalues, hemail⟩ := Option.bind_eq_some_iff.1 hemail
    obtain ⟨input, hinput, rfl⟩ := Option.map_eq_some_iff.1 hemail
    obtain ⟨htext, hne⟩ := orElse_text.1 htext
    exact ⟨values, input, text, hvalues, hinput, htext, hne, hsame⟩

theorem forwarded_cases (hbody : p.body = some (.object body))
    (h : dispatch u word p c = (.forwarded, c')) :
    ∃ operation, extractOperation word body = some operation ∧
      (c' = c ∧ rulesOf operation = none ∨
        ∃ rules email, rulesOf operation = some rules ∧
          (operation ∈ emailOps → extractEmail body = some email) ∧
          (operation ∉ emailOps → email = none) ∧
          applyRules u p.ip operation email rules c = (.forwarded, c')) := by
  simp only [dispatch, hbody] at h
  cases hop : extractOperation word body with
  | none => simp [hop] at h
  | some operation =>
    refine ⟨operation, rfl, ?_⟩
    simp only [hop] at h
    cases hrules : rulesOf operation with
    | none =>
      simp only [hrules, Prod.mk.injEq, true_and] at h
      exact .inl ⟨h.symm, rfl⟩
    | some rules =>
      simp only [hrules] at h
      split_ifs at h with hmem
      · cases hemail : extractEmail body with
        | none => simp [hemail] at h
        | some email =>
          simp only [hemail] at h
          exact .inr ⟨rules, email, rfl, fun _ => rfl, fun hn => absurd hmem hn, h⟩
      · exact .inr ⟨rules, none, rfl, fun hm => absurd hm hmem, fun _ => rfl, h⟩

theorem CountsOnly.changed {address : String} (h : CountsOnly operation address c c') :
    c'.count (emailKey operation address) ≠ c.count (emailKey operation address) := by
  intro he
  have hcounted := h.counted
  rw [ExpiringMap.value, he] at hcounted
  cases hc : c.count (emailKey operation address) with
  | none => simp [hc] at hcounted
  | some entry => simp [hc, ExpiringMap.value] at hcounted

theorem one_email_rule (hop : operation = "login" ∨ operation = "requestPasswordReset") :
    operation ∈ emailOps ∧ ∃ rules, rulesOf operation = some rules ∧
      (rules.filter (fun r => r.dimension = .email)).length = 1 := by
  rcases hop with rfl | rfl
  · exact ⟨by decide, _, rfl, rfl⟩
  · exact ⟨by decide, _, rfl, rfl⟩

theorem counts_of_supplies (hop : operation = "login" ∨ operation = "requestPasswordReset")
    (hbody : p.body = some (.object body)) (h : dispatch u word p c = (.forwarded, c')) {e : String}
    (hread : extractOperation word body = some operation) (he : Supplies u e body) :
    CountsOnly operation (strip (u.lowerText e)) c c' := by
  obtain ⟨hmem, rules, hrules, hone⟩ := one_email_rule hop
  obtain ⟨email, text, hemail, htext, hsame⟩ := supplies_iff.1 he
  have hlimited := limited_of_rules hrules
  obtain ⟨operation', hread', hcase⟩ := forwarded_cases hbody h
  obtain rfl := Option.some.inj (hread.symm.trans hread')
  obtain ⟨-, hnone⟩ | ⟨rules', email', hrules', hemail', -, hrun⟩ := hcase
  · rw [hrules] at hnone
    cases hnone
  · obtain rfl := Option.some.inj (hrules.symm.trans hrules')
    obtain rfl := Option.some.inj (hemail.symm.trans (hemail' hmem))
    constructor
    · rw [← hsame]
      exact applyRules_counted htext hlimited hone hrun
    · intro operation' hlimited' address' hne
      refine emailKey_kept hrun hlimited hlimited' (fun text' htext' => ?_)
      rw [htext, Option.some.injEq, Json.string.injEq] at htext'
      rw [← htext', hsame]
      exact hne

theorem supplies_of_counts (hop : operation = "login" ∨ operation = "requestPasswordReset")
    (hbody : p.body = some (.object body)) (h : dispatch u word p c = (.forwarded, c')) {e : String}
    (he : CountsOnly operation (strip (u.lowerText e)) c c') :
    extractOperation word body = some operation ∧ Supplies u e body := by
  obtain ⟨hmem, rules, hrules, -⟩ := one_email_rule hop
  have hlimited := limited_of_rules hrules
  obtain ⟨operation', hread, hcase⟩ := forwarded_cases hbody h
  obtain ⟨rfl, -⟩ | ⟨rules', email, hrules', hemail, -, hrun⟩ := hcase
  · exact absurd rfl he.changed
  · by_contra hno
    refine he.changed (emailKey_kept hrun (limited_of_rules hrules') hlimited
      (fun text htext heq => ?_))
    obtain ⟨rfl, hsame⟩ := Prod.mk.inj heq
    exact hno ⟨hread, supplies_iff.2 ⟨email, text, hemail hmem, htext, hsame.symm⟩⟩

/-- For a request that is passed on and runs one of the two resolvers for `e`, the counter of
`e` and no other e-mail counter goes up exactly if the body is read as that operation and its
variables supply `e` where the middleware looks. -/
theorem email_counter_follows_iff {parse : String → Option Document}
    (hop : operation = "login" ∨ operation = "requestPasswordReset")
    (h : dispatch u word p c = (.forwarded, c')) :
    ∀ e, ActsOn parse operation e p →
      (CountsOnly operation (strip (u.lowerText e)) c c' ↔
        ∃ body, p.body = some (.object body) ∧ extractOperation word body = some operation ∧
          Supplies u e body) := by
  intro e hacts
  obtain ⟨body, hbody⟩ := hacts.object
  constructor
  · intro he
    exact ⟨body, hbody, supplies_of_counts hop hbody h he⟩
  · rintro ⟨body, hbody, hread, he⟩
    exact counts_of_supplies hop hbody h hread he

end Requests

/-- The document is one mutation with one field, whose `input` is written as `value`. -/
def Written (operation : String) (value : Value) (document : Document) : Prop :=
  ∃ name definitions responseName directives selections, document =
    [.operation .mutation name definitions
      [.field responseName operation [("input", value)] directives selections]]

section Written
variable {u : Unicode} {parse : String → Option Document} {p : Post} {body values : Variables}
  {operation query e : String} {document : Document} {value : Value}

theorem written_arguments (hwritten : Written operation value document) {name : Option String}
    {op : Operation} (hop : selectOperation document name values = some op) {f : RootField}
    (hf : op.rootFields = [f]) :
    ∃ definitions, f.arguments = resolveFields (withDefaults definitions values)
      [("input", value)] := by
  obtain ⟨name', definitions, responseName, directives, selections, rfl⟩ := hwritten
  refine ⟨definitions, ?_⟩
  have hselected : op = ⟨.mutation, resolveSelections (withDefaults definitions values)
      [.field responseName operation [("input", value)] directives selections], []⟩ := by
    unfold selectOperation at hop
    cases name with
    | none =>
      exact (Option.some.inj hop).symm
    | some name =>
      obtain ⟨x, hx, rfl⟩ := Option.map_eq_some_iff.1 hop
      have hmem := List.mem_of_find?_eq_some hx
      simp only [operationsOf, List.filterMap_cons, List.filterMap_nil, List.mem_singleton] at hmem
      rw [hmem]
      rfl
  rw [hselected] at hf
  simp only [Operation.rootFields, Operation.rootSelections, List.length_nil,
    collectRounds, resolveSelections, Selection.resolve, collectSelections, collectSelection] at hf
  split_ifs at hf with hinclude
  · simp only [List.nil_append, mergeFields, List.filter_nil, List.cons.injEq, and_true] at hf
    rw [← hf]
  · cases hf

theorem executed_arguments (hbody : p.body = some (.object body))
    (hquery : Variables.get body "query" = some (.string query)) (hparse : parse query = some document)
    (hvalues : Variables.get body "variables" = some (.object values))
    (hwritten : Written operation value document) {f : RootField}
    (hf : executedFields parse p = [f]) :
    ∃ definitions, f.arguments = resolveFields (withDefaults definitions values)
      [("input", value)] := by
  simp only [executedFields, hbody, hquery, hparse, hvalues] at hf
  split at hf
  · cases hf
  · rename_i op hop
    split_ifs at hf
    exact written_arguments hwritten hop hf

theorem input_variable_supplies (hbody : p.body = some (.object body))
    (hquery : Variables.get body "query" = some (.string query)) (hparse : parse query = some document)
    (hvalues : Variables.get body "variables" = some (.object values))
    (hwritten : Written operation (.variable "input") document)
    (hgiven : Variables.get values "input" ≠ none) (hacts : ActsOn parse operation e p) (he : e ≠ "") :
    Supplies u e body := by
  obtain ⟨f, hf, -, hemail⟩ := hacts
  obtain ⟨definitions, hargs⟩ := executed_arguments hbody hquery hparse hvalues hwritten hf
  obtain ⟨j, hj⟩ := Option.ne_none_iff_exists'.1 hgiven
  have hvar : Variables.get (withDefaults definitions values) "input" = some j := by
    unfold Variables.get at hj ⊢
    obtain ⟨x, hx, rfl⟩ := Option.map_eq_some_iff.1 hj
    rw [withDefaults, List.find?_append, hx]
    rfl
  have hargument : Variables.get f.arguments "input" = some j := by
    simp only [hargs, resolveFields, Value.resolve, hvar, insertField]
    rfl
  simp only [inputEmail, hargument] at hemail
  split at hemail
  · rename_i input hinput
    obtain rfl := Option.some.inj hinput
    split at hemail
    · rename_i text htext
      obtain rfl := Option.some.inj hemail
      refine ⟨values, input, text, by rw [hvalues]; rfl, by rw [hj]; rfl, ?_, he, rfl⟩
      rw [htext, orElse, if_pos (by simpa [truthy] using he)]
    · cases hemail
  · cases hemail

/-- Without `input` and `email` among the variables no e-mail counter moves, whatever address
the document spells out. -/
theorem unsupplied_not_counted {word : Char → Bool} {c c' : Counters}
    (hbody : p.body = some (.object body)) (hvalues : Variables.get body "variables" =
      some (.object values))
    (hinput : Variables.get values "input" = none) (hemail : Variables.get values "email" = none)
    (h : dispatch u word p c = (.forwarded, c')) :
    ∀ operation ∈ limitedOperations, ∀ address,
      c'.count (emailKey operation address) = c.count (emailKey operation address) := by
  intro operation hlimited address
  obtain ⟨operation', -, hcase⟩ := forwarded_cases hbody h
  obtain ⟨rfl, -⟩ | ⟨rules, email, hrules, hread, hnone, hrun⟩ := hcase
  · rfl
  · have habsent : email = none := by
      by_cases hmem : operation' ∈ emailOps
      · have hextract := hread hmem
        rw [extractEmail_eq, hvalues] at hextract
        simp only [dictOr, Option.bind_some, hinput, Option.map_some, hemail,
          Option.some.injEq] at hextract
        rw [← hextract]
        rfl
      · exact hnone hmem
    refine emailKey_kept hrun (limited_of_rules hrules) hlimited (fun text htext => ?_)
    rw [habsent] at htext
    cases htext

end Written

section Sample
open SampleContainer

def inputQuery : String := "mutation($input:LoginInput!)\x7blogin(input:$input)\x7bsessionId\x7d\x7d"

def inputDocument : Document :=
  [.operation .mutation none [⟨"input", none⟩]
    [.field none "login" [("input", .variable "input")] [] [.field none "sessionId" [] [] []]]]

def parseInput (query : String) : Option Document :=
  if query = inputQuery then some inputDocument else parseSample query

def inputValues : Variables :=
  [("input", .object [("email", .string "Alice@Example.com"), ("password", .string "Passw0rd1")])]

def inputBody : Variables := [("query", .string inputQuery), ("variables", .object inputValues)]

def inputPost : Post := ⟨some (.object inputBody), some "203.0.113.7", none⟩

theorem inputPost_acts : ActsOn parseInput "login" "Alice@Example.com" inputPost :=
  ⟨⟨"login", "login", [("input", .object [("email", .string "Alice@Example.com"),
    ("password", .string "Passw0rd1")])]⟩, rfl, rfl, rfl⟩

theorem email_counter_follows_input : ∃ c', dispatch asciiUnicode isWordChar inputPost
      (Counters.blank startTime) = (.forwarded, c') ∧
    CountsOnly "login" "alice@example.com" (Counters.blank startTime) c' := by
  have hforward : (dispatch asciiUnicode isWordChar inputPost (Counters.blank startTime)).1 =
      .forwarded := by decide +kernel
  refine ⟨(dispatch asciiUnicode isWordChar inputPost (Counters.blank startTime)).2,
    Prod.ext hforward rfl, ?_⟩
  have hsupplies : Supplies asciiUnicode "Alice@Example.com" inputBody :=
    input_variable_supplies rfl rfl rfl rfl ⟨_, _, _, _, _, rfl⟩ (by simp [inputValues, Variables.get])
      inputPost_acts (by decide)
  have hcounts := (email_counter_follows_iff (.inl rfl) (Prod.ext hforward rfl) _ inputPost_acts).2
    ⟨inputBody, rfl, by decide +kernel, hsupplies⟩
  have hnormal : strip (asciiUnicode.lowerText "Alice@Example.com") = "alice@example.com" := by
    decide +kernel
  rwa [hnormal] at hcounts

/-- A login with its input in `$i` is passed on, and no e-mail counter has moved. -/
theorem renamed_variable_not_counted : ∃ c', dispatch asciiUnicode isWordChar (postOf loginQuery)
      (Counters.blank startTime) = (.forwarded, c') ∧
    ActsOn parseSample "login" "alice@example.com" (postOf loginQuery) ∧
    ¬ CountsOnly "login" "alice@example.com" (Counters.blank startTime) c' := by
  have hforward : (dispatch asciiUnicode isWordChar (postOf loginQuery) (Counters.blank startTime)).1 =
      .forwarded := by decide +kernel
  refine ⟨(dispatch asciiUnicode isWordChar (postOf loginQuery) (Counters.blank startTime)).2,
    Prod.ext hforward rfl, ⟨_, rfl, rfl, rfl⟩, fun hcounts => ?_⟩
  exact hcounts.changed (unsupplied_not_counted (p := postOf loginQuery) rfl rfl rfl rfl
    (Prod.ext hforward rfl) "login" (by decide) _)

end Sample

end AuthService.EmailCounters
