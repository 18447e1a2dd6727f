import AuthService.BacktrackingSearch
import AuthService.GraphqlDocuments
import AuthService.RateLimiter
import AuthService.SampleContainer

set_option autoImplicit false

/-! The middleware in front of `/graphql`: how it classifies a request body, which counters
it moves, and how many executions of an operation get past it. -/
namespace AuthService.RateLimitMiddleware
open PythonText JsonText GraphqlDocuments BacktrackingSearch ExpiringMaps RedisSessions LabelledRuns
open ThreadPools RateLimiter

section Patterns
variable (word : Char → Bool)

/-- `[^{]*\{[^{]*?(\w+)\s*[\({]`. -/
def firstFieldPieces : List (Piece Char) :=
  [.greedy (fun c => c ≠ '{'), .one (fun c => c = '{'), .lazy (fun c => c ≠ '{'), .openGroup,
    .one word, .greedy word, .closeGroup, .greedy isSpace, .one (fun c => c = '(' || c = '{')]

/-- `_MUTATION_OP_RE`. -/
def mutationOpRe : List (Piece Char) :=
  literal "mutation".toList ++ .boundary :: firstFieldPieces word

/-- `_NAMED_MUTATION_OP_RE_TEMPLATE` with an escaped name put in. -/
def namedMutationOpRe (name : String) : List (Piece Char) :=
  literal "mutation".toList ++ .one isSpace :: .greedy isSpace :: literal name.toList ++
    .boundary :: firstFieldPieces word

/-- The group of the first match, or the empty text. -/
def scan (pieces : List (Piece Char)) (query : String) : String :=
  String.ofList ((search word pieces none query.toList).getD [])

end Patterns

/-- What Python takes for false. -/
def truthy : Json → Bool
  | .null => false
  | .bool b => b
  | .number n => n.text ≠ "0" && n.text ≠ "0.0" && n.text ≠ "-0.0"
  | .string s => s ≠ ""
  | .array items => !items.isEmpty
  | .object fields => !fields.isEmpty

/-- `x or y` for a value that may be absent. -/
def orElse (x y : Option Json) : Option Json :=
  match x with
  | none => y
  | some j => if truthy j then some j else y

/-- A POST to `/graphql`; a body that is not JSON is `none`. -/
structure Post where
  body : Option Json
  realIp : Option String
  clientHost : Option String

def Post.ip (p : Post) : String :=
  match p.realIp with
  | some ip => if ip ≠ "" then ip else (p.clientHost.filter (fun h => h ≠ "")).getD "unknown"
  | none => (p.clientHost.filter (fun h => h ≠ "")).getD "unknown"

/-- `_extract_operation`; a query that is no text raises. -/
def extractOperation (word : Char → Bool) (body : Variables) : Option String :=
  match (body.get "query").getD (.string "") with
  | .string query =>
    match orElse (body.get "operationName") (some (.string "")) with
    | some (.string name) =>
      if name ≠ "" then some (scan word (namedMutationOpRe word name) query)
      else some (scan word (mutationOpRe word) query)
    | _ => some (scan word (mutationOpRe word) query)
  | _ => none

/-- `_extract_email`; variables or an input that is no object raises. -/
def extractEmail (body : Variables) : Option (Option Json) :=
  match orElse (body.get "variables") (some (.object [])) with
  | some (.object values) =>
    match orElse (Variables.get values "input") (some (.object [])) with
    | some (.object input) => some (orElse (Variables.get input "email") (Variables.get values "email"))
    | _ => none
  | _ => none

inductive Dimension where
  | ip
  | email
  deriving DecidableEq

structure Rule where
  dimension : Dimension
  limit : ℤ
  window : ℕ
  deriving DecidableEq

/-- `_RATE_LIMITS`. -/
def rateLimits : List (String × List Rule) :=
  [("login", [⟨.ip, 5, 60⟩, ⟨.email, 10, 900⟩]),
    ("register", [⟨.ip, 5, 3600⟩]),
    ("requestPasswordReset", [⟨.email, 3, 3600⟩, ⟨.ip, 10, 3600⟩]),
    ("resetPassword", [⟨.ip, 10, 3600⟩]),
    ("refreshToken", [⟨.ip, 60, 3600⟩])]

def rulesOf (operation : String) : Option (List Rule) :=
  (rateLimits.find? (fun x => x.1 = operation)).map Prod.snd

/-- `_EMAIL_OPS`. -/
def emailOps : List String := ["login", "register", "requestPasswordReset"]

inductive Verdict where
  | forwarded
  | tooManyRequests (retryAfter : ℤ)
  | crashed
  deriving DecidableEq

/-- `RateLimiter.check` without interruption. -/
def check (call : Call) (c : Counters) : Option RateLimitExceededError × Counters :=
  let counted := incr call.redisKey (setNx call.redisKey call.windowSeconds c)
  (if call.limit < counted.1 then some ⟨retryAfter call counted.2, call.key⟩ else none, counted.2)

def applyRules (u : Unicode) (ip operation : String) (email : Option Json) :
    List Rule → Counters → Verdict × Counters
  | [], c => (.forwarded, c)
  | rule :: rules, c =>
    match rule.dimension with
    | .ip =>
      match check (checkIp ip operation rule.limit rule.window) c with
      | (some e, c') => (.tooManyRequests e.retryAfter, c')
      | (none, c') => applyRules u ip operation email rules c'
    | .email =>
      match orElse email none with
      | none => applyRules u ip operation email rules c
      | some (.string address) =>
        match check (checkEmail u address operation rule.limit rule.window) c with
        | (some e, c') => (.tooManyRequests e.retryAfter, c')
        | (none, c') => applyRules u ip operation email rules c'
      | some _ => (.crashed, c)

/-- `dispatch` up to the call of the application. -/
def dispatch (u : Unicode) (word : Char → Bool) (p : Post) (c : Counters) : Verdict × Counters :=
  match p.body with
  | none => (.forwarded, c)
  | some (.object body) =>
    match extractOperation word body with
    | none => (.crashed, c)
    | some operation =>
      match rulesOf operation with
      | none => (.forwarded, c)
      | some rules =>
        if operation ∈ emailOps then
          match extractEmail body with
          | none => (.crashed, c)
          | some email => applyRules u p.ip operation email rules c
        else applyRules u p.ip operation none rules c
  | some _ => (.crashed, c)

/-- How often the executor runs the resolver of an operation; `parse` gives the documents that
parse and validate. -/
def executions (parse : String → Option Document) (operation : String) (p : Post) : ℕ :=
  match p.body with
  | some (.object body) =>
    match Variables.get body "query" with
    | some (.string query) =>
      match parse query with
      | none => 0
      | some document =>
        match selectOperation document
            (match Variables.get body "operationName" with
              | some (.string name) => some name
              | _ => none)
            (match Variables.get body "variables" with
              | some (.object values) => values
              | _ => []) with
        | none => 0
        | some op =>
          if op.type = .mutation then (op.rootFields.filter (fun f => f.name = operation)).length else 0
    | _ => 0
  | _ => 0

/-- The counters, and how often the operation was executed for one address. -/
structure Gateway where
  counters : Counters
  executed : ℕ

inductive Arrival where
  | wait (d : ℕ)
  | post (p : Post)

section Gateway
variable (u : Unicode) (word : Char → Bool) (parse : String → Option Document)
  (operation ip : String)

def Gateway.post (p : Post) (s : Gateway) : Gateway :=
  match dispatch u word p s.counters with
  | (.forwarded, c) =>
    ⟨c, if p.ip = ip then s.executed + executions parse operation p else s.executed⟩
  | (_, c) => ⟨c, s.executed⟩

inductive GatewayStep : Gateway → Arrival → Gateway → Prop where
  | wait (s : Gateway) (d : ℕ) : GatewayStep s (.wait d) ⟨s.counters.advance d, s.executed⟩
  | post (s : Gateway) (p : Post) : GatewayStep s (.post p) (s.post u word parse operation ip p)

/-- `rl:{op}:ip:{ip}`. -/
def ipKey : String := "rl:" ++ (operation ++ ":ip:" ++ ip)

def Opening (s : Gateway) : Prop := s.counters.count (ipKey operation ip) = none ∧ s.executed = 0

def gateway : System Gateway Arrival where
  init := Opening operation ip
  step := GatewayStep u word parse operation ip

/-- Within one lifetime of the counter. -/
def Lasting (s : Gateway) : Arrival → Prop
  | .wait d => s.counters.count (ipKey operation ip) ≠ none →
      (s.counters.advance d).count (ipKey operation ip) ≠ none
  | .post _ => True

/-- The operation is executed at most once, and only if the body was classified as it. -/
def Classified (p : Post) : Prop :=
  executions parse operation p ≤ 1 ∧ (executions parse operation p ≠ 0 →
    ∃ body, p.body = some (.object body) ∧ extractOperation word body = some operation)

def ClassifiedPosts (_ : Gateway) : Arrival → Prop
  | .wait _ => True
  | .post p => p.ip = ip → Classified word parse operation p

end Gateway

section Counting
variable {u : Unicode} {word : Char → Bool} {parse : String → Option Document}
  {operation ip : String}

structure Grows (k : String) (c c' : Counters) : Prop where
  kept : c.count k ≠ none → c'.count k ≠ none
  le : (c.count.value k).getD 0 ≤ (c'.count.value k).getD 0

theorem Grows.refl (k : String) (c : Counters) : Grows k c c := ⟨id, le_rfl⟩

theorem Grows.trans {k : String} {c c' c'' : Counters} (h : Grows k c c') (h' : Grows k c' c'') :
    Grows k c c'' :=
  ⟨fun hc => h'.kept (h.kept hc), h.le.trans h'.le⟩

theorem setNx_value (key k : String) (window : ℕ) (c : Counters) :
    ((setNx key window c).count.value k).getD 0 = (c.count.value k).getD 0 := by
  cases hc : c.count key with
  | some e => rw [setNx_present hc]
  | none =>
    simp only [ExpiringMap.value, setNx_absent hc]
    split_ifs with hk
    · rw [hk, hc]
      rfl
    · rfl

theorem setNx_kept {key k : String} {window : ℕ} {c : Counters} (h : c.count k ≠ none) :
    (setNx key window c).count k ≠ none := by
  cases hc : c.count key with
  | some e =>
    rw [setNx_present hc]
    exact h
  | none =>
    rw [setNx_absent hc]
    split_ifs
    · simp
    · exact h

theorem check_other {call : Call} {c : Counters} {k : String} (h : k ≠ call.redisKey) :
    (check call c).2.count k = c.count k := by
  simp only [check, incr_count, if_neg h, setNx_other h]

theorem check_own (call : Call) (c : Counters) : (check call c).2.count.value call.redisKey =
    some ((c.count.value call.redisKey).getD 0 + 1) := by
  have hset := setNx_value call.redisKey call.redisKey call.windowSeconds c
  simp only [check, ExpiringMap.value, incr_count, ↓reduceIte, Option.map_some]
  simp only [ExpiringMap.value] at hset
  rw [hset]

theorem check_value (call : Call) (c : Counters) (k : String) :
    ((check call c).2.count.value k).getD 0 =
      (c.count.value k).getD 0 + if k = call.redisKey then 1 else 0 := by
  split_ifs with hk
  · rw [hk, check_own]
    rfl
  · rw [ExpiringMap.value, check_other hk]
    rfl

theorem check_grows (call : Call) (c : Counters) (k : String) : Grows k c (check call c).2 := by
  refine ⟨fun h => ?_, by rw [check_value]; exact Nat.le_add_right _ _⟩
  simp only [check, incr_count]
  split_ifs
  · simp
  · exact setNx_kept h

theorem check_counted (call : Call) (c : Counters) : (check call c).2.count call.redisKey ≠ none := by
  simp [check, incr_count]

theorem check_eq_none {call : Call} {c : Counters} : (check call c).1 = none ↔
    ((c.count.value call.redisKey).getD 0 + 1 : ℤ) ≤ call.limit := by
  have hset := setNx_value call.redisKey call.redisKey call.windowSeconds c
  simp only [check, incr_fst, hset]
  split_ifs with hlt
  · simp only [false_iff]
    push_cast at hlt
    omega
  · simp only [true_iff]
    push_cast at hlt
    omega

theorem check_alone (call : Call) (c : Counters) :
    (∃ n, (check call c).1 = none ∧ Alone (fun c t => Check.step c t) c (.start call)
      (check call c).2 (.returned call n)) ∨
    ∃ e, (check call c).1 = some e ∧ Alone (fun c t => Check.step c t) c (.start call)
      (check call c).2 (.raised call e) := by
  have hset : Check.step c (.start call) =
      some (setNx call.redisKey call.windowSeconds c, .counting call) := rfl
  by_cases hlt : call.limit < (incr call.redisKey (setNx call.redisKey call.windowSeconds c)).1
  · have hincr : Check.step (setNx call.redisKey call.windowSeconds c) (.counting call) =
        some ((check call c).2, .exceeded call
          (incr call.redisKey (setNx call.redisKey call.windowSeconds c)).1) := by
      rw [Check.step, Check.afterIncr, if_pos hlt]
      rfl
    refine .inr ⟨⟨retryAfter call (check call c).2, call.key⟩, by simp only [check, if_pos hlt], ?_⟩
    exact .next hset (.next hincr (.next rfl (.refl _ _)))
  · have hincr : Check.step (setNx call.redisKey call.windowSeconds c) (.counting call) =
        some ((check call c).2, .returned call
          (incr call.redisKey (setNx call.redisKey call.windowSeconds c)).1) := by
      rw [Check.step, Check.afterIncr, if_neg hlt]
      rfl
    refine .inl ⟨(incr call.redisKey (setNx call.redisKey call.windowSeconds c)).1,
      by simp only [check, if_neg hlt], ?_⟩
    exact .next hset (.next hincr (.refl _ _))

theorem applyRules_grows (email : Option Json) (k : String) (rules : List Rule) (c : Counters) :
    Grows k c (applyRules u ip operation email rules c).2 := by
  induction rules generalizing c with
  | nil => exact Grows.refl k c
  | cons rule rules ih =>
    unfold applyRules
    split
    · have hg := check_grows (checkIp ip operation rule.limit rule.window) c k
      split
      · rename_i heq
        rw [heq] at hg
        exact hg
      · rename_i heq
        rw [heq] at hg
        exact hg.trans (ih _)
    · split
      · exact ih c
      · rename_i address _
        have hg := check_grows (checkEmail u address operation rule.limit rule.window) c k
        split
        · rename_i heq
          rw [heq] at hg
          exact hg
        · rename_i heq
          rw [heq] at hg
          exact hg.trans (ih _)
      · exact Grows.refl k c

theorem applyRules_forwarded {email : Option Json} {rules : List Rule} {rule : Rule}
    (hmem : rule ∈ rules) (hip : rule.dimension = .ip) {c c' : Counters}
    (h : applyRules u ip operation email rules c = (.forwarded, c')) :
    ((c.count.value (ipKey operation ip)).getD 0 + 1 : ℤ) ≤ rule.limit ∧
      (c.count.value (ipKey operation ip)).getD 0 + 1 ≤ (c'.count.value (ipKey operation ip)).getD 0 ∧
      c'.count (ipKey operation ip) ≠ none := by
  have hkey : ∀ r : Rule, (checkIp ip operation r.limit r.window).redisKey = ipKey operation ip :=
    fun _ => rfl
  induction rules generalizing c with
  | nil => simp at hmem
  | cons first rules ih =>
    -- what the first rule leaves, when the others let the request through
    have hrest : ∀ c'', Grows (ipKey operation ip) c c'' → rule ∈ rules →
        applyRules u ip operation email rules c'' = (.forwarded, c') →
        ((c.count.value (ipKey operation ip)).getD 0 + 1 : ℤ) ≤ rule.limit ∧
          (c.count.value (ipKey operation ip)).getD 0 + 1 ≤
            (c'.count.value (ipKey operation ip)).getD 0 ∧ c'.count (ipKey operation ip) ≠ none := by
      intro c'' hg hin hrun
      obtain ⟨hlimit, hle, hne⟩ := ih hin hrun
      have hgle := hg.le
      refine ⟨?_, by omega, hne⟩
      omega
    unfold applyRules at h
    cases hdim : first.dimension with
    | ip =>
      simp only [hdim] at h
      cases hc : check (checkIp ip operation first.limit first.window) c with
      | mk e c'' =>
        have hg := check_grows (checkIp ip operation first.limit first.window) c (ipKey operation ip)
        have hval := check_value (checkIp ip operation first.limit first.window) c (ipKey operation ip)
        have hcount := check_counted (checkIp ip operation first.limit first.window) c
        rw [hkey, hc] at hcount
        rw [hkey, if_pos rfl, hc] at hval
        rw [hc] at hg
        cases e with
        | some e => simp [hc] at h
        | none =>
          simp only [hc] at h
          rcases List.mem_cons.1 hmem with rfl | hin
          · have hpass := check_eq_none.1 (congrArg Prod.fst hc)
            rw [hkey] at hpass
            have hlater := @applyRules_grows u operation ip email (ipKey operation ip) rules c''
            rw [h] at hlater
            have hle := hlater.le
            exact ⟨hpass, by simp only at hval hle; omega, hlater.kept hcount⟩
          · exact hrest c'' hg hin h
    | email =>
      simp only [hdim] at h
      have hin : rule ∈ rules := by
        rcases List.mem_cons.1 hmem with rfl | hin
        · rw [hdim] at hip
          cases hip
        · exact hin
      split at h
      · exact hrest c (Grows.refl _ _) hin h
      · rename_i address _
        have hg := check_grows (checkEmail u address operation first.limit first.window) c
          (ipKey operation ip)
        split at h
        · cases h
        · rename_i heq
          rw [heq] at hg
          exact hrest _ hg hin h
      · cases h

theorem dispatch_grows (p : Post) (k : String) (c : Counters) :
    Grows k c (dispatch u word p c).2 := by
  unfold dispatch
  split
  · exact Grows.refl k c
  · split
    · exact Grows.refl k c
    · split
      · exact Grows.refl k c
      · split_ifs
        · split
          · exact Grows.refl k c
          · exact applyRules_grows _ _ _ _
        · exact applyRules_grows _ _ _ _
  · exact Grows.refl k c

theorem dispatch_forwarded {p : Post} {c c' : Counters} (h : dispatch u word p c = (.forwarded, c'))
    {body : Variables} (hbody : p.body = some (.object body))
    (hop : extractOperation word body = some operation) {rules : List Rule}
    (hrules : rulesOf operation = some rules) {rule : Rule} (hmem : rule ∈ rules)
    (hip : rule.dimension = .ip) :
    ((c.count.value (ipKey operation p.ip)).getD 0 + 1 : ℤ) ≤ rule.limit ∧
      (c.count.value (ipKey operation p.ip)).getD 0 + 1 ≤
        (c'.count.value (ipKey operation p.ip)).getD 0 ∧
      c'.count (ipKey operation p.ip) ≠ none := by
  simp only [dispatch, hbody, hop, hrules] at h
  split_ifs at h
  · cases hemail : extractEmail body with
    | none => simp [hemail] at h
    | some email =>
      simp only [hemail] at h
      exact applyRules_forwarded hmem hip h
  · exact applyRules_forwarded hmem hip h

/-- The counter is ahead of the executions, and these stay within the limit. -/
structure Bounded (operation ip : String) (limit : ℤ) (s : Gateway) : Prop where
  idle : s.counters.count (ipKey operation ip) = none → s.executed = 0
  counted : s.executed ≤ (s.counters.count.value (ipKey operation ip)).getD 0
  within : (s.executed : ℤ) ≤ limit

theorem bounded_step {rules : List Rule} (hrules : rulesOf operation = some rules) {rule : Rule}
    (hmem : rule ∈ rules) (hip : rule.dimension = .ip) {s s' : Gateway} {l : Arrival}
    (h : Bounded operation ip rule.limit s) (hlast : Lasting operation ip s l)
    (hclass : ClassifiedPosts word parse operation ip s l)
    (hs : GatewayStep u word parse operation ip s l s') : Bounded operation ip rule.limit s' := by
  cases hs with
  | wait d =>
    refine ⟨fun hnone => ?_, ?_, h.within⟩
    · refine h.idle ?_
      by_contra hne
      exact hlast hne hnone
    · cases hc : s.counters.count (ipKey operation ip) with
      | none => exact (h.idle hc).le.trans (Nat.zero_le _)
      | some e =>
        obtain ⟨e', he'⟩ := Option.ne_none_iff_exists'.1 (hlast (by rw [hc]; simp))
        have hsame := (advance_count.1 he').1
        rw [hc, Option.some.injEq] at hsame
        have hle := h.counted
        rw [ExpiringMap.value, hc] at hle
        rw [ExpiringMap.value, he', ← hsame]
        exact hle
  | post p =>
    have hg : Grows (ipKey operation ip) s.counters (dispatch u word p s.counters).2 :=
      dispatch_grows p _ _
    cases hd : dispatch u word p s.counters with
    | mk verdict c' =>
      rw [hd] at hg
      have hidle : ∀ n, n = s.executed → Bounded operation ip rule.limit ⟨c', n⟩ := by
        rintro n rfl
        refine ⟨fun hnone => h.idle ?_, h.counted.trans hg.le, h.within⟩
        by_contra hne
        exact hg.kept hne hnone
      cases verdict with
      | tooManyRequests retryAfter =>
        simp only [Gateway.post, hd]
        exact hidle _ rfl
      | crashed =>
        simp only [Gateway.post, hd]
        exact hidle _ rfl
      | forwarded =>
        simp only [Gateway.post, hd]
        split_ifs with hp
        · obtain ⟨hone, hop⟩ := hclass hp
          by_cases hzero : executions parse operation p = 0
          · exact hidle _ (by rw [hzero, Nat.add_zero])
          · obtain ⟨body, hbody, hextract⟩ := hop hzero
            obtain ⟨hlimit, hle, hne⟩ := dispatch_forwarded hd hbody hextract hrules hmem hip
            rw [hp] at hlimit hle hne
            have hex : executions parse operation p = 1 := by omega
            have hcounted := h.counted
            rw [hex]
            refine ⟨fun hnone => absurd hnone hne, ?_, ?_⟩
            · simp only
              omega
            · simp only
              push_cast
              omega
        · exact hidle _ rfl

/-- Within one lifetime of the counter, the operation is executed at most as often as the
rule for addresses allows. -/
theorem executions_within_limit {rules : List Rule} (hrules : rulesOf operation = some rules)
    {rule : Rule} (hmem : rule ∈ rules) (hip : rule.dimension = .ip) {s s' : Gateway}
    {p : List (Gateway × Arrival)} (hs : Opening operation ip s)
    (h : Runs (gateway u word parse operation ip) s p s') (hlast : Meets (Lasting operation ip) p)
    (hclass : Meets (ClassifiedPosts word parse operation ip) p) :
    (s'.executed : ℤ) ≤ rule.limit := by
  have hpos : 0 ≤ rule.limit := by
    have hall : ∀ x ∈ rateLimits, ∀ r ∈ x.2, (0 : ℤ) ≤ r.limit := by decide
    obtain ⟨x, hx, rfl⟩ := Option.map_eq_some_iff.1 hrules
    exact hall x (List.mem_of_find?_eq_some hx) rule hmem
  have hbounded : Bounded operation ip rule.limit s' := by
    refine h.invariant_of_meets (Bounded operation ip rule.limit)
      (fun s l => Lasting operation ip s l ∧ ClassifiedPosts word parse operation ip s l) ?_
      (fun x hx => ⟨hlast x hx, hclass x hx⟩) ?_
    · intro s l u hI hC hs
      exact bounded_step hrules hmem hip hI hC.1 hC.2 hs
    · refine ⟨fun _ => hs.2, ?_, ?_⟩
      · rw [hs.2]
        exact Nat.zero_le _
      · rw [hs.2]
        simpa using hpos
  exact hbounded.within

end Counting

section Sample
open SampleContainer

def isWordChar (c : Char) : Bool := c.isAlphanum || c = '_'

def loginQuery : String := "mutation($i:LoginInput!)\x7blogin(input:$i)\x7bsessionId\x7d\x7d"

def aliasedQuery : String :=
  "mutation($i:LoginInput!)\x7ba:login(input:$i)\x7bsessionId\x7db:login(input:$i)\x7bsessionId\x7dc:login(input:$i)\x7bsessionId\x7dd:login(input:$i)\x7bsessionId\x7de:login(input:$i)\x7bsessionId\x7df:login(input:$i)\x7bsessionId\x7d\x7d"

def loginField (responseName : Option String) : Selection Value :=
  .field responseName "login" [("input", .variable "i")] [] [.field none "sessionId" [] [] []]

def parseSample (query : String) : Option Document :=
  if query = loginQuery then
    some [.operation .mutation none [⟨"i", none⟩] [loginField none]]
  else if query = aliasedQuery then
    some [.operation .mutation none [⟨"i", none⟩]
      (["a", "b", "c", "d", "e", "f"].map fun name => loginField (some name))]
  else none

def bodyOf (query : String) : Variables :=
  [("query", .string query), ("variables", .object
    [("i", .object [("email", .string "alice@example.com"),
    ("password", .string "Passw0rd1")])])]

def postOf (query : String) : Post := ⟨some (.object (bodyOf query)), some "203.0.113.7", none⟩

def quietGateway : Gateway := ⟨Counters.blank startTime, 0⟩

abbrev loginGateway : System Gateway Arrival :=
  gateway asciiUnicode isWordChar parseSample "login" "203.0.113.7"

theorem post_runs (query : String) :
    Runs loginGateway quietGateway [(quietGateway, .post (postOf query))]
      (quietGateway.post asciiUnicode isWordChar parseSample "login" "203.0.113.7" (postOf query)) :=
  .single (GatewayStep.post _ _)

theorem executions_within_limit_login : ∃ p s', Runs loginGateway quietGateway p s' ∧
    (s'.executed : ℤ) ≤ 5 := by
  refine ⟨_, _, post_runs loginQuery, ?_⟩
  refine @executions_within_limit asciiUnicode isWordChar parseSample "login" "203.0.113.7"
    [⟨.ip, 5, 60⟩, ⟨.email, 10, 900⟩] rfl ⟨.ip, 5, 60⟩ (by simp) rfl quietGateway _ _ ⟨rfl, rfl⟩
    (post_runs loginQuery) (meets_cons.2 ⟨trivial, meets_nil _⟩) (meets_cons.2 ⟨?_, meets_nil _⟩)
  intro _
  refine ⟨by decide +kernel, fun _ => ⟨_, rfl, ?_⟩⟩
  decide +kernel

/-- One request of six aliased logins is counted once and executed six times. -/
theorem aliased_logins_exceed_limit : ∃ p s', Opening "login" "203.0.113.7" quietGateway ∧
    Runs loginGateway quietGateway p s' ∧ Meets (Lasting "login" "203.0.113.7") p ∧
    rulesOf "login" = some [⟨.ip, 5, 60⟩, ⟨.email, 10, 900⟩] ∧ s'.executed = 6 := by
  refine ⟨_, _, ⟨rfl, rfl⟩, post_runs aliasedQuery, meets_cons.2 ⟨trivial, meets_nil _⟩, rfl, ?_⟩
  decide +kernel

end Sample

end AuthService.RateLimitMiddleware
