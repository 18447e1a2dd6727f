import AuthService.TextBodies

set_option autoImplicit false

/-! The middleware on a body of any JSON type: which ones it answers or passes on, and which
ones make it raise. -/
namespace AuthService.RequestBodies
open PythonText JsonText ExpiringMaps RedisSessions RateLimiter TextBodies
open RateLimitMiddleware (Verdict Rule emailOps ipKey check check_eq_none loginQuery rateLimits
  isWordChar)

/-- `x or {}`, where that is a dictionary. -/
def dictOr : Option TextJson → Option TextFields
  | none => some []
  | some (.object fields) => some fields
  | some j => if j.truthy then none else some []

/-- A value that is true and gives no key: no text, which has no `lower`, or a text with a
surrogate, which cannot be encoded. -/
def NoKey (email : Option TextJson) : Prop :=
  ∃ j, email = some j ∧ j.truthy = true ∧ ∀ address : String, j ≠ .string (.ofString address)

/-- The value used as the e-mail gives a key, or is never used: a registration is not counted by
e-mail, and a login from an address at its limit is refused before. -/
def Harmless (ip operation : String) (c : Counters) (email : Option TextJson) : Prop :=
  NoKey email → operation = "register" ∨
    operation = "login" ∧ 5 ≤ (c.count.value (ipKey operation ip)).getD 0

/-- `variables` and `variables.input` are dictionaries or false, and the e-mail is harmless. -/
def ReadableVariables (ip operation : String) (c : Counters) (body : TextFields) : Prop :=
  ∃ values input, dictOr (body.get "variables") = some values ∧
    dictOr (TextFields.get values "input") = some input ∧
    Harmless ip operation c
      (TextJson.orElse (TextFields.get input "email") (TextFields.get values "email"))

/-- The body is a dictionary, its query is absent or a text, and the variables can be read
where the operation needs them. -/
def Readable (word : Char → Bool) (ip : String) (c : Counters) : TextJson → Prop
  | .object body =>
    (∀ j, TextFields.get body "query" = some j → ∃ text, j = .string text) ∧
      ∀ operation ∈ emailOps, extractOperation word body = some (.ofString operation) →
        ReadableVariables ip operation c body
  | _ => False

section Reading
variable {word : Char → Bool} {body : TextFields}

/-- Only a query that is no text makes `_extract_operation` raise. -/
theorem extractOperation_eq_none : extractOperation word body = none ↔
    ∃ j, TextFields.get body "query" = some j ∧ ∀ text, j ≠ .string text := by
  unfold extractOperation
  cases hq : TextFields.get body "query" with
  | none =>
    refine iff_of_false ?_ (by simp)
    simp only [Option.getD_none]
    split
    · split_ifs <;> simp
    · simp
  | some j =>
    cases j with
    | string query =>
      refine iff_of_false ?_ (by simp)
      simp only [Option.getD_some]
      split
      · split_ifs <;> simp
      · simp
    | null => simp
    | bool b => simp
    | number n => simp
    | array items => simp
    | object fields => simp

theorem orElse_dict {x : Option TextJson} {fields : TextFields} :
    dictOr x = some fields ↔ TextJson.orElse x (some (.object [])) = some (.object fields) := by
  cases x with
  | none => simp [dictOr, TextJson.orElse]
  | some j =>
    cases j with
    | object fields' => cases fields' <;> simp [dictOr, TextJson.orElse, TextJson.truthy]
    | null => simp [dictOr, TextJson.orElse, TextJson.truthy]
    | bool b => cases b <;> simp [dictOr, TextJson.orElse, TextJson.truthy]
    | number n =>
      by_cases h : (TextJson.number n).truthy = true <;> simp [dictOr, TextJson.orElse, h]
    | string text =>
      by_cases h : (TextJson.string text).truthy = true <;> simp [dictOr, TextJson.orElse, h]
    | array items =>
      by_cases h : (TextJson.array items).truthy = true <;> simp [dictOr, TextJson.orElse, h]

theorem extractEmail_eq : extractEmail body = (dictOr (body.get "variables")).bind fun values =>
    (dictOr (TextFields.get values "input")).map fun input =>
      TextJson.orElse (TextFields.get input "email") (TextFields.get values "email") := by
  unfold extractEmail
  cases hv : dictOr (body.get "variables") with
  | none =>
    split
    · rename_i values h
      rw [orElse_dict.2 h] at hv
      cases hv
    · rfl
  | some values =>
    rw [orElse_dict.1 hv]
    simp only [Option.bind_some]
    cases hi : dictOr (TextFields.get values "input") with
    | none =>
      split
      · rename_i input h
        rw [orElse_dict.2 h] at hi
        cases hi
      · rfl
    | some input =>
      rw [orElse_dict.1 hi]
      rfl

end Reading

section Rules
variable {u : Unicode} {ip operation : String}

theorem applyEmail_eq_none {address : Text} {rule : Rule} {c : Counters} :
    applyEmail u operation address rule c = none ↔ address.encode = none := by
  rw [applyEmail, Option.map_eq_none_iff, Text.encode_normalized]

theorem orElse_noKey {email : Option TextJson} {j : TextJson}
    (h : TextJson.orElse email none = some j) :
    (∃ address : String, j = .string (.ofString address)) ∨ NoKey email := by
  cases email with
  | none => cases h
  | some j' =>
    unfold TextJson.orElse at h
    simp only at h
    split_ifs at h with htruthy
    obtain rfl := Option.some.inj h
    by_cases htext : ∃ address : String, j' = .string (.ofString address)
    · exact .inl htext
    · exact .inr ⟨j', rfl, htruthy, fun address ht => htext ⟨address, ht⟩⟩

theorem applyRules_answers {email : Option TextJson} {rules : List Rule}
    (h : ∀ rule ∈ rules, rule.dimension = .email → ¬ NoKey email) (c : Counters) :
    (applyRules u ip operation email rules c).1 ≠ .crashed := by
  induction rules generalizing c with
  | nil => simp [applyRules]
  | cons rule rules ih =>
    have hrest := fun c => ih (fun r hr => h r (List.mem_cons_of_mem _ hr)) c
    unfold applyRules
    cases hdim : rule.dimension with
    | ip =>
      simp only
      split
      · simp
      · exact hrest _
    | email =>
      have hemail := h rule List.mem_cons_self hdim
      simp only
      cases he : TextJson.orElse email none with
      | none => exact hrest c
      | some j =>
        obtain ⟨address, rfl⟩ | hno := orElse_noKey he
        · simp only [applyEmail_ofString]
          split
          · simp
          · exact hrest _
          · rename_i hnone
            cases hnone
        · exact absurd hno hemail

theorem applyRules_noKey {email : Option TextJson} (h : NoKey email) {rule : Rule} {rules : List Rule}
    (hdim : rule.dimension = .email) (c : Counters) :
    (applyRules u ip operation email (rule :: rules) c).1 = .crashed := by
  obtain ⟨j, rfl, htruthy, htext⟩ := h
  unfold applyRules
  have hor : TextJson.orElse (some j) none = some j := by rw [TextJson.orElse, if_pos htruthy]
  simp only [hdim, hor]
  cases j with
  | string address =>
    have hnone : address.encode = none := by
      rw [Option.eq_none_iff_forall_ne_some]
      intro s hs
      exact htext s (by rw [Text.encode_eq_some.1 hs])
    simp only [applyEmail_eq_none.2 hnone]
  | null | bool b | number n | array items | object fields => rfl

theorem login_noKey {email : Option TextJson} (h : NoKey email) (c : Counters) :
    (applyRules u ip "login" email [⟨.ip, 5, 60⟩, ⟨.email, 10, 900⟩] c).1 ≠ .crashed ↔
      5 ≤ (c.count.value (ipKey "login" ip)).getD 0 := by
  have hpass : (check (checkIp ip "login" 5 60) c).1 = none ↔
      ((c.count.value (ipKey "login" ip)).getD 0 + 1 : ℤ) ≤ 5 := check_eq_none
  rw [applyRules]
  cases hc : check (checkIp ip "login" 5 60) c with
  | mk e c' =>
    rw [hc] at hpass
    cases e with
    | none =>
      have hwithin := hpass.1 rfl
      simp only
      rw [applyRules_noKey h rfl]
      simp only [ne_eq, not_true_eq_false, false_iff]
      omega
    | some e =>
      have hover : ¬ ((c.count.value (ipKey "login" ip)).getD 0 + 1 : ℤ) ≤ 5 := by
        rw [← hpass]
        simp
      simp only [ne_eq, reduceCtorEq, not_false_eq_true, true_iff]
      omega

/-- The rules of an operation that carries an e-mail do not raise exactly if that is harmless. -/
theorem rules_answer_iff {rules : List Rule} (hrules : rulesOf (.ofString operation) =
    some (operation, rules))
    (hop : operation ∈ emailOps) (email : Option TextJson) (c : Counters) :
    (applyRules u ip operation email rules c).1 ≠ .crashed ↔ Harmless ip operation c email := by
  by_cases hno : NoKey email
  · simp only [emailOps, List.mem_cons, List.not_mem_nil, or_false] at hop
    simp only [Harmless, hno, forall_const]
    rcases hop with rfl | rfl | rfl
    · obtain rfl := (Prod.mk.inj (Option.some.inj hrules)).2
      simpa using login_noKey hno c
    · obtain rfl := (Prod.mk.inj (Option.some.inj hrules)).2
      exact iff_of_true (applyRules_answers (by simp) c) (.inl rfl)
    · obtain rfl := (Prod.mk.inj (Option.some.inj hrules)).2
      refine iff_of_false ?_ (by simp)
      rw [not_not]
      exact applyRules_noKey hno rfl c
  · exact iff_of_true (applyRules_answers (fun _ _ _ => hno) c) (fun h => absurd h hno)

end Rules

theorem answered_iff {v : Verdict} :
    (v = .forwarded ∨ ∃ retryAfter, v = .tooManyRequests retryAfter) ↔ v ≠ .crashed := by
  cases v <;> simp

theorem rulesOf_eq {text : Text} {operation : String} {rules : List Rule}
    (h : rulesOf text = some (operation, rules)) : text = .ofString operation := by
  have hname := List.find?_some h
  exact (of_decide_eq_true hname).symm

theorem emailOps_limited : ∀ operation ∈ emailOps, rulesOf (.ofString operation) ≠ none := by decide

section Dispatch
variable {u : Unicode} {word : Char → Bool} {p : TextPost} {c : Counters} {body : TextFields}

theorem dispatch_object (hbody : p.body = some (.object body)) {text : Text}
    (hop : extractOperation word body = some text) :
    (dispatch u word p c).1 ≠ .crashed ↔
      ∀ operation ∈ emailOps, text = .ofString operation → ReadableVariables p.ip operation c body := by
  simp only [dispatch, hbody, hop]
  cases hrules : rulesOf text with
  | none =>
    refine iff_of_true (by simp) (fun operation hmem htext => ?_)
    exact absurd (htext ▸ hrules) (emailOps_limited operation hmem)
  | some x =>
    obtain ⟨operation, rules⟩ := x
    obtain rfl := rulesOf_eq hrules
    have honly : (∀ operation' ∈ emailOps, Text.ofString operation = .ofString operation' →
        ReadableVariables p.ip operation' c body) ↔
        (operation ∈ emailOps → ReadableVariables p.ip operation c body) := by
      refine ⟨fun h hmem => h operation hmem rfl, fun h operation' hmem htext => ?_⟩
      obtain rfl := Text.ofString_inj.1 htext
      exact h hmem
    rw [honly]
    simp only
    split_ifs with hmem
    · simp only [hmem, forall_const, ReadableVariables]
      rw [extractEmail_eq]
      cases dictOr (body.get "variables") with
      | none => simp
      | some values =>
        cases hi : dictOr (TextFields.get values "input") with
        | none => simp [hi]
        | some input =>
          simp only [Option.bind_some, hi, Option.map_some, Option.some.injEq, ↓existsAndEq, true_and]
          exact rules_answer_iff hrules hmem _ c
    · refine iff_of_true (applyRules_answers (fun _ _ _ => ?_) c) (fun h => absurd h hmem)
      rintro ⟨j, hj, -⟩
      cases hj

/-- A request is answered or passed on exactly if its body can be read. -/
theorem dispatch_answers_iff {j : TextJson} (hbody : p.body = some j) :
    ((dispatch u word p c).1 = .forwarded ∨
        ∃ retryAfter, (dispatch u word p c).1 = .tooManyRequests retryAfter) ↔
      Readable word p.ip c j := by
  rw [answered_iff]
  cases j with
  | object body =>
    cases hop : extractOperation word body with
    | none =>
      obtain ⟨j, hj, htext⟩ := extractOperation_eq_none.1 hop
      refine iff_of_false ?_ ?_
      · simp [dispatch, hbody, hop]
      · rintro ⟨hquery, -⟩
        obtain ⟨text, rfl⟩ := hquery j hj
        exact htext text rfl
    | some text =>
      rw [dispatch_object hbody hop]
      constructor
      · intro h
        refine ⟨fun j hj => ?_, fun operation hmem hop' => ?_⟩
        · by_contra htext
          rw [extractOperation_eq_none.2 ⟨j, hj, fun text ht => htext ⟨text, ht⟩⟩] at hop
          cases hop
        · exact h operation hmem (Option.some.inj (hop.symm.trans hop'))
      · rintro ⟨-, h⟩ operation hmem rfl
        exact h operation hmem hop
  | null => simp [dispatch, hbody, Readable]
  | bool b => simp [dispatch, hbody, Readable]
  | number n => simp [dispatch, hbody, Readable]
  | string text => simp [dispatch, hbody, Readable]
  | array items => simp [dispatch, hbody, Readable]

end Dispatch

section Sample
open SampleContainer

/-- A login with this value as its e-mail. -/
def loginPost (email : TextJson) : TextPost :=
  ⟨some (.object [(.ofString "query", .string (.ofString loginQuery)),
    (.ofString "variables", .object [(.ofString "input", .object [(.ofString "email", email)])])]),
    some "203.0.113.7", none⟩

def aliceLogin : TextPost := loginPost (.string (.ofString "alice@example.com"))

theorem dispatch_answers_login :
    (dispatch asciiUnicode isWordChar aliceLogin (Counters.blank startTime)).1 = .forwarded ∨
      ∃ retryAfter, (dispatch asciiUnicode isWordChar aliceLogin (Counters.blank startTime)).1 =
        .tooManyRequests retryAfter := by
  refine (dispatch_answers_iff (p := aliceLogin) rfl).2 ⟨?_, ?_⟩
  · intro j hj
    exact ⟨.ofString loginQuery, (Option.some.inj hj).symm⟩
  · intro operation hmem hop
    refine ⟨_, _, rfl, rfl, ?_⟩
    rintro ⟨j, hj, -, htext⟩
    exact absurd (Option.some.inj hj).symm (htext "alice@example.com")

def emptyArray : TextPost := ⟨some (.array []), some "203.0.113.7", none⟩

def surrogateLogin : TextPost := loginPost (.string [.surrogate 0])

/-- The body `[]` makes the middleware raise, and so does a login whose e-mail is `"\ud800"`. -/
theorem empty_array_crashes :
    ¬ ((dispatch asciiUnicode isWordChar emptyArray (Counters.blank startTime)).1 = .forwarded ∨
      ∃ retryAfter, (dispatch asciiUnicode isWordChar emptyArray (Counters.blank startTime)).1 =
        .tooManyRequests retryAfter) ∧
    ¬ ((dispatch asciiUnicode isWordChar surrogateLogin (Counters.blank startTime)).1 = .forwarded ∨
      ∃ retryAfter, (dispatch asciiUnicode isWordChar surrogateLogin (Counters.blank startTime)).1 =
        .tooManyRequests retryAfter) := by
  rw [answered_iff, not_not, answered_iff, not_not]
  exact ⟨rfl, by decide +kernel⟩

end Sample

end AuthService.RequestBodies
