import AuthService.AccountIntegrity
import AuthService.EmailForms

set_option autoImplicit false

/-! How often the whole application acts on one address: what the limiter admits, and the mails
that come of it. -/
namespace AuthService.AddressLimits
open PythonText DomainModel AccountTables FallibleState Fallible FallibleTriples ExpiringMaps JsonText
open GraphqlDocuments RedisSessions RequestPorts CommandHandlers GraphqlResolvers RateLimiter
open RateLimitMiddleware RedisKeyspace IdempotencyExtension EmailCounters EmailForms RequestTriples
open HttpService VisitTriples AccountIntegrity LabelledRuns

/-- The root field runs the operation for the address. -/
def actsFor (u : Unicode) (operation address : String) (f : RootField) : Bool :=
  f.name = operation && (inputEmail f).any (fun e => strip (u.lowerText e) = address)

section Admitted
variable (g : GlobalContainer) (word : Char → Bool) (parse : String → Option Document)
  (operation address : String)

def admitted : HttpState × HttpEvent → ℕ
  | (_, .wait _) => 0
  | (s, .visit v) =>
    if (dispatch g.unicode word v.request.post s.limiter).1 = .forwarded then
      (executedFields parse v.request.post).countP (actsFor g.unicode operation address)
    else 0

def admittedIn (p : List (HttpState × HttpEvent)) : ℕ :=
  (p.map (admitted g word parse operation address)).sum

/-- Within one lifetime of the e-mail counter. -/
def Lasting (s : HttpState) : HttpEvent → Prop
  | .wait d => s.counters (emailKey operation address) ≠ none →
      (s.advance d).counters (emailKey operation address) ≠ none
  | .visit _ => True

/-- A visit that acts for the address does nothing else, its body is read as this operation, and
its variables supply the address where the middleware looks. -/
def CountedVisits (_ : HttpState) : HttpEvent → Prop
  | .wait _ => True
  | .visit v =>
    (executedFields parse v.request.post).countP (actsFor g.unicode operation address) ≠ 0 →
      ∃ e body, ActsOn parse operation e v.request.post ∧ v.request.post.body = some (.object body) ∧
        extractOperation word body = some operation ∧ Supplies g.unicode e body

end Admitted

section Limits
variable {u : Unicode} {ip operation : String}

theorem applyRules_emailLimit {email : Option Json} {text : String}
    (htext : orElse email none = some (.string text)) {rules : List Rule} {rule : Rule}
    (hmem : rule ∈ rules) (hdim : rule.dimension = .email) {c c' : Counters}
    (h : applyRules u ip operation email rules c = (.forwarded, c')) :
    ((c.count.value (emailKey operation (strip (u.lowerText text)))).getD 0 + 1 : ℤ) ≤ rule.limit := by
  induction rules generalizing c with
  | nil => simp at hmem
  | cons first rules ih =>
    have hrest : ∀ c'', Grows (emailKey operation (strip (u.lowerText text))) c c'' → rule ∈ rules →
        applyRules u ip operation email rules c'' = (.forwarded, c') →
        ((c.count.value (emailKey operation (strip (u.lowerText text)))).getD 0 + 1 : ℤ) ≤
          rule.limit := by
      intro c'' hg hin hrun
      have hle := hg.le
      have hlimit := ih hin hrun
      omega
    unfold applyRules at h
    cases hfirst : first.dimension with
    | ip =>
      simp only [hfirst] at h
      have hg := check_grows (checkIp ip operation first.limit first.window) c
        (emailKey operation (strip (u.lowerText text)))
      have hin : rule ∈ rules := by
        rcases List.mem_cons.1 hmem with rfl | hin
        · rw [hfirst] at hdim
          cases hdim
        · exact hin
      split at h
      · cases h
      · rename_i heq
        rw [heq] at hg
        exact hrest _ hg hin h
    | email =>
      simp only [hfirst, htext] at h
      have hg := check_grows (checkEmail u text operation first.limit first.window) c
        (emailKey operation (strip (u.lowerText text)))
      split at h
      · cases h
      · rename_i heq
        rw [heq] at hg
        rcases List.mem_cons.1 hmem with rfl | hin
        · have hpass := check_eq_none.1 (congrArg Prod.fst heq)
          rwa [checkEmail_redisKey] at hpass
        · exact hrest _ hg hin h

theorem dispatch_emailLimit {word : Char → Bool} {p : Post} {c c' : Counters} {body : Variables}
    {e : String} (h : dispatch u word p c = (.forwarded, c')) (hbody : p.body = some (.object body))
    (hread : extractOperation word body = some operation) (hemailOp : operation ∈ emailOps)
    (he : Supplies u e body) {rules : List Rule} (hrules : rulesOf operation = some rules) {rule : Rule}
    (hmem : rule ∈ rules) (hdim : rule.dimension = .email) :
    ((c.count.value (emailKey operation (strip (u.lowerText e)))).getD 0 + 1 : ℤ) ≤ rule.limit := by
  obtain ⟨email, text, hemail, htext, hsame⟩ := supplies_iff.1 he
  obtain ⟨operation', hread', hcase⟩ := forwarded_cases hbody h
  obtain rfl := Option.some.inj (hread.symm.trans hread')
  obtain ⟨-, hnone⟩ | ⟨rules', email', hrules', hemail', -, hrun⟩ := hcase
  · rw [hrules] at hnone
    cases hnone
  · obtain rfl := Option.some.inj (hrules.symm.trans hrules')
    obtain rfl := Option.some.inj (hemail.symm.trans (hemail' hemailOp))
    rw [← hsame]
    exact applyRules_emailLimit htext hmem hdim hrun

end Limits

section Runs
variable {g : GlobalContainer} {word : Char → Bool} {parse : String → Option Document}
  {operation address : String}

theorem visit_counters (v : Visit) (s : HttpState) :
    (visit g word parse v s).2.counters = (dispatch g.unicode word v.request.post
      s.limiter).2.count := by
  unfold visit
  simp only
  split
  · rfl
  · rfl
  · unfold route
    split
    · rfl
    · unfold graphql
      split <;> rfl

/-- The counter is ahead of the `n` root fields admitted, and these stay within the limit. -/
structure Bounded (operation address : String) (limit : ℤ) (n : ℕ) (s : HttpState) : Prop where
  idle : s.counters (emailKey operation address) = none → n = 0
  counted : n ≤ (s.counters.value (emailKey operation address)).getD 0
  within : (n : ℤ) ≤ limit

theorem Bounded.wait {limit : ℤ} {n d : ℕ} {s : HttpState} (h : Bounded operation address limit n s)
    (hlast : Lasting operation address s (.wait d)) :
    Bounded operation address limit n (s.advance d) := by
  refine ⟨fun hnone => h.idle ?_, ?_, h.within⟩
  · by_contra hne
    exact hlast hne hnone
  · cases hc : s.counters (emailKey operation address) with
    | none => exact (h.idle hc).le.trans (Nat.zero_le _)
    | some e =>
      obtain ⟨e', he'⟩ := Option.ne_none_iff_exists'.1 (hlast (by rw [hc]; simp))
      have hsame : s.counters (emailKey operation address) = some e' := (advance_count.1 he').1
      have hle := h.counted
      rw [ExpiringMap.value, hsame] at hle
      rw [ExpiringMap.value, he']
      exact hle

theorem Bounded.grows {limit : ℤ} {n : ℕ} {s s' : HttpState} (h : Bounded operation address limit n s)
    (hg : Grows (emailKey operation address) s.limiter s'.limiter) :
    Bounded operation address limit n s' := by
  refine ⟨fun hnone => h.idle ?_, h.counted.trans hg.le, h.within⟩
  by_contra hne
  exact hg.kept hne hnone

theorem Bounded.visit {limit : ℤ} {n : ℕ} {s : HttpState} {v : Visit}
    (hop : operation = "login" ∨ operation = "requestPasswordReset")
    (h : Bounded operation address limit n s) {rules : List Rule}
    (hrules : rulesOf operation = some rules)
    {rule : Rule} (hmem : rule ∈ rules) (hdim : rule.dimension = .email) (hlimit : rule.limit = limit)
    (hcounted : CountedVisits g word parse operation address s (.visit v)) :
    Bounded operation address limit (admitted g word parse operation address (s, .visit v) + n)
      (visit g word parse v s).2 := by
  cases hd : dispatch g.unicode word v.request.post s.limiter with
  | mk verdict c' =>
    have hcounters : (HttpService.visit g word parse v s).2.counters = c'.count := by
      rw [visit_counters, hd]
    have hg := @dispatch_grows g.unicode word v.request.post (emailKey operation address) s.limiter
    rw [hd] at hg
    have hidle : Bounded operation address limit n (HttpService.visit g word parse v s).2 := by
      refine h.grows ⟨?_, ?_⟩
      · change _ → (HttpService.visit g word parse v s).2.counters _ ≠ none
        rw [hcounters]
        exact hg.kept
      · change _ ≤ (Option.getD ((HttpService.visit g word parse v s).2.counters.value _) 0)
        rw [hcounters]
        exact hg.le
    unfold admitted
    simp only [hd]
    split_ifs with hforwarded
    · subst hforwarded
      by_cases hzero : (executedFields parse v.request.post).countP
        (actsFor g.unicode operation address) = 0
      · rwa [hzero, Nat.zero_add]
      -- the one field of the visit, and its address as the middleware reads it
      obtain ⟨e, body, ⟨f, hf, hname, hinput⟩, hbody, hread, hsupplies⟩ := hcounted hzero
      have hone : (executedFields parse v.request.post).countP
        (actsFor g.unicode operation address) = 1 := by
        rw [hf] at hzero ⊢
        rw [List.countP_singleton] at hzero ⊢
        split_ifs at hzero ⊢ with hacts
        · rfl
        · exact absurd rfl hzero
      have haddress : strip (g.unicode.lowerText e) = address := by
        rw [hf, List.countP_singleton] at hone
        split_ifs at hone with hacts
        simpa [actsFor, hname, hinput] using hacts
      have hwithin := dispatch_emailLimit hd hbody hread (one_email_rule hop).1 hsupplies hrules
        hmem hdim
      have hvalue := (counts_of_supplies hop hbody hd hread hsupplies).counted
      rw [haddress] at hwithin hvalue
      have hle := h.counted
      rw [hone]
      change n ≤ (Option.getD (s.limiter.count.value (emailKey operation address)) 0) at hle
      refine ⟨fun hnone => ?_, ?_, ?_⟩
      · rw [hcounters] at hnone
        rw [ExpiringMap.value, hnone] at hvalue
        cases hvalue
      · rw [hcounters, hvalue]
        simp only [Option.getD_some]
        omega
      · push_cast
        omega
    · rwa [Nat.zero_add]

theorem bounded_runs (hop : operation = "login" ∨ operation = "requestPasswordReset")
    {rules : List Rule}
    (hrules : rulesOf operation = some rules) {rule : Rule} (hmem : rule ∈ rules)
    (hdim : rule.dimension = .email) {s s' : HttpState} {p : List (HttpState × HttpEvent)}
    (hs : s.counters (emailKey operation address) = none) (h : Runs (http g word parse) s p s')
    (hlast : Meets (Lasting operation address) p)
    (hcounted : Meets (CountedVisits g word parse operation address) p) :
    Bounded operation address rule.limit (admittedIn g word parse operation address p) s' := by
  induction h with
  | refl =>
    refine ⟨fun _ => rfl, Nat.zero_le _, ?_⟩
    rcases hop with rfl | rfl <;> obtain rfl := Option.some.inj hrules <;> simp at hmem <;>
      rcases hmem with rfl | rfl <;> simp [admittedIn]
  | next front hstep ih =>
    obtain ⟨hlast₀, hlast⟩ := meets_cons.1 hlast
    obtain ⟨hcounted₀, hcounted⟩ := meets_cons.1 hcounted
    have hb := ih hlast hcounted
    cases hstep with
    | wait d =>
      have hw := hb.wait hlast₀
      simpa [admittedIn, admitted] using hw
    | visit v fresh => exact hb.visit hop hrules hmem hdim rfl hcounted₀

end Runs

def mailsTo (address : String) (w : World) : ℕ := w.sentEmails.countP (fun mail => mail.1 = address)

def Mailed (address : String) (k : ℕ) (w : World) : Prop := mailsTo address w ≤ k

/-- The mails that a request may send to the address. -/
def mailCost (u : Unicode) (address : String) : Request → ℕ
  | .requestPasswordReset email _ _ => if strip (u.lowerText email) = address then 1 else 0
  | _ => 0

section Mails
variable {g : GlobalContainer} {faults : Faults} {address : String} {k : ℕ}

theorem Mailed.mono {k' : ℕ} (hk : k ≤ k') (w : World) (h : Mailed address k w) : Mailed address k' w :=
  le_trans h hk

theorem mailed_unwritten (address : String) (k : ℕ) : Unwritten (Mailed address k) where
  rollback := fun _ h => h
  event := fun _ _ h => h
  sheds := fun _ _ _ h _ => h
  dummy := fun _ _ h => h
  flush := fun _ _ h => h

theorem mailed_steady (address : String) (k : ℕ) : Steady (Mailed address k) where
  rollback := fun _ h => h
  event := fun _ _ h => h
  redis := fun _ _ _ h _ => h
  signed := fun _ _ h => h
  dummy := fun _ _ h => h

theorem sendResetEmail_mailed {recipient token : String} :
    Triple (Mailed address k) (sendResetEmail faults recipient token)
      (fun _ => Mailed address (k + if recipient = address then 1 else 0))
      (fun _ => Mailed address (k + if recipient = address then 1 else 0)) := by
  refine ⟨fun w hw => ?_⟩
  unfold sendResetEmail
  cases faults .sendResetEmail with
  | some _ => exact Mailed.mono (Nat.le_add_right _ _) w hw
  | none =>
    change List.countP _ (w.sentEmails ++ [(recipient, token)]) ≤ _
    rw [List.countP_append, List.countP_singleton]
    simp only [decide_eq_true_eq]
    exact Nat.add_le_add_right hw _

theorem requestReset_mailed (email : String) (ip : Option String) (d : RequestResetDraws) :
    Triple (Mailed address k) (requestReset g faults email ip d)
      (fun _ => Mailed address (k + if strip (g.unicode.lowerText email) = address then 1 else 0))
      (fun _ => Mailed address (k + if strip (g.unicode.lowerText email) = address then 1 else 0)) := by
  refine triple_requestReset (mailed_unwritten address k) (mailed_unwritten address _)
    (Mailed.mono (Nat.le_add_right _ _)) (fun recipient hrecipient => ?_)
  rw [strip_lower_eq_value hrecipient]
  exact sendResetEmail_mailed

theorem resolve_mailed (r : Request) :
    Triple (Mailed address k) (resolve g faults r)
      (fun _ => Mailed address (k + mailCost g.unicode address r))
      (fun _ => Mailed address (k + mailCost g.unicode address r)) := by
  have hI := mailed_unwritten address k
  cases r with
  | register email password d => exact stays_register hI _ _ _
  | login email password device ip d => exact stays_login (mailed_steady address k) _ _ _ _ _
  | refreshToken token ip d => exact stays_refresh (mailed_steady address k) _ _ _
  | revokeSession header sessionId ip d => exact stays_revoke hI.toSettled _ _ _ _
  | requestPasswordReset email ip d => exact requestReset_mailed email ip d
  | resetPassword token newPassword ip d => exact stays_reset hI _ _ _ _
  | me header => exact stays_bind (stays_me hI.toSettled.readable _) (fun _ => stays_pure _)

theorem inputOf_eq_some {names : List String} {f : RootField} {input : Variables}
    (h : inputOf names f = some input) :
    Variables.get f.arguments "input" = some (.object input) := by
  unfold inputOf at h
  split at h
  · rename_i input' hget
    split_ifs at h
    rw [hget, Option.some.inj h]
  · cases h

theorem text_eq_some {input : Variables} {name s : String} (h : text input name = some s) :
    Variables.get input name = some (.string s) := by
  unfold text at h
  split at h
  · rename_i s' hs
    rw [hs, Option.some.inj h]
  · cases h

theorem requestReset_field {h : HttpRequest} {x : Chance} {f : RootField} {email : String}
    {ip : Option String} {d : RequestResetDraws}
    (hr : mutationRequest h x f = some (.requestPasswordReset email ip d)) :
    f.name = "requestPasswordReset" ∧ inputEmail f = some email := by
  unfold mutationRequest at hr
  simp only [Option.bind_eq_bind] at hr
  split at hr
  all_goals simp only [Option.bind_eq_some_iff, Option.some.injEq, reduceCtorEq, and_false,
    exists_false] at hr
  rename_i hname
  obtain ⟨input, hinput, email', hemail, he⟩ := hr
  obtain rfl : email' = email := by injection he
  refine ⟨hname, ?_⟩
  simp only [inputEmail, inputOf_eq_some hinput, text_eq_some hemail]

theorem mailCost_le {h : HttpRequest} {x : Chance} {f : RootField} {r : Request}
    (hr : mutationRequest h x f = some r) :
    mailCost g.unicode address r ≤ [f].countP (actsFor g.unicode "requestPasswordReset" address) := by
  cases r with
  | requestPasswordReset email ip d =>
    obtain ⟨hname, hinput⟩ := requestReset_field hr
    simp [mailCost, actsFor, hname, hinput, List.countP_singleton]
  | register | login | refreshToken | revokeSession | resetPassword | me => exact Nat.zero_le _

theorem along_mailed {parse : String → Option Document} (v : Visit) :
    Along g parse v (fun i => Mailed address (k + ((executedFields parse v.request.post).take i).countP
      (actsFor g.unicode "requestPasswordReset" address))) where
  mono := by
    intro i
    refine Mailed.mono ?_
    rw [List.take_add_one, List.countP_append]
    omega
  resolves := by
    rintro i r faults ⟨f, hf, hr⟩
    have hcost := @mailCost_le g address _ _ _ _ hr
    refine (resolve_mailed r).consequence (fun _ => id) (fun _ => Mailed.mono ?_)
      (fun _ => Mailed.mono ?_) <;>
    · rw [List.take_add_one, hf, Option.toList_some, List.countP_append]
      omega

end Mails

section Runs
variable {g : GlobalContainer} {word : Char → Bool} {parse : String → Option Document}
  {address : String}

theorem executed_mailed {v : Visit} {c : ExecutionContext} (hc : contextOf parse v.request = some c)
    (w : World) : mailsTo address (executed g v c w).2 ≤ mailsTo address w +
      (executedFields parse v.request.post).countP
        (actsFor g.unicode "requestPasswordReset" address) := by
  obtain ⟨w', hmailed, heq⟩ := executed_along (along_mailed (k := mailsTo address w) v)
    (mailed_unwritten address _).toSettled.readable hc (w := w) (le_refl (mailsTo address w))
  rw [heq]
  rwa [List.take_length] at hmailed

theorem visit_mailed (v : Visit) (s : HttpState) :
    mailsTo address (visit g word parse v s).2.world ≤ mailsTo address s.world +
      admitted g word parse "requestPasswordReset" address (s, .visit v) := by
  by_cases hforwarded : (dispatch g.unicode word v.request.post s.limiter).1 = .forwarded
  · rw [admitted, if_pos hforwarded]
    rcases visit_cases g word parse v s with hsame | ⟨c, hc, heq⟩
    · rw [hsame]
      exact Nat.le_add_right _ _
    · rw [heq]
      exact executed_mailed hc s.world
  · rw [visit_refused hforwarded]
    exact Nat.le_add_right _ _

theorem mails_runs {s s' : HttpState} {p : List (HttpState × HttpEvent)}
    (h : Runs (http g word parse) s p s') : mailsTo address s'.world ≤
      mailsTo address s.world + admittedIn g word parse "requestPasswordReset" address p := by
  induction h with
  | refl => exact Nat.le_add_right _ _
  | next front hstep ih =>
    simp only [admittedIn, List.map_cons, List.sum_cons] at ih ⊢
    cases hstep with
    | wait d => exact ih.trans (by omega)
    | visit v fresh =>
      have hvisit := @visit_mailed g word parse address v
      exact (hvisit _).trans (by omega)

theorem admitted_within_limit {operation : String}
    (hop : operation = "login" ∨ operation = "requestPasswordReset") {rules : List Rule}
    (hrules : rulesOf operation = some rules) {rule : Rule} (hmem : rule ∈ rules)
    (hdim : rule.dimension = .email) {s s' : HttpState} {p : List (HttpState × HttpEvent)}
    (hs : s.counters (emailKey operation address) = none) (h : Runs (http g word parse) s p s')
    (hlast : Meets (Lasting operation address) p)
    (hcounted : Meets (CountedVisits g word parse operation address) p) :
    (admittedIn g word parse operation address p : ℤ) ≤ rule.limit :=
  (bounded_runs hop hrules hmem hdim hs h hlast hcounted).within

theorem mails_within_limit {s s' : HttpState} {p : List (HttpState × HttpEvent)}
    (hs : s.counters (emailKey "requestPasswordReset" address) = none)
    (h : Runs (http g word parse) s p s') (hlast : Meets (Lasting "requestPasswordReset" address) p)
    (hcounted : Meets (CountedVisits g word parse "requestPasswordReset" address) p) :
    mailsTo address s'.world ≤ mailsTo address s.world + 3 := by
  have hadmitted := (bounded_runs (.inr rfl) rfl (List.mem_cons_self ..) rfl hs h hlast hcounted).within
  have hmails := @mails_runs g word parse address _ _ _ h
  simp only at hadmitted
  omega

end Runs

section Sample
open SampleContainer

def askInputQuery : String :=
  "mutation($input:RequestResetInput!)\x7brequestPasswordReset(input:$input)\x7bsuccess\x7d\x7d"

def parseAsk (query : String) : Option Document :=
  if query = askInputQuery then
    some [.operation .mutation none [⟨"input", none⟩]
      [.field none "requestPasswordReset" [("input", .variable "input")] []
        [.field none "success" [] [] []]]]
  else none

def askInputBody : Variables :=
  [("query", .string askInputQuery),
    ("variables", .object [("input", .object [("email", .string "Alice@Example.com")])])]

def askInputVisit : Visit :=
  ⟨⟨⟨some (.object askInputBody), some "203.0.113.7", none⟩, none, none⟩, chanceWith resetDraws, true⟩

theorem askInputVisit_acts :
    ActsOn parseAsk "requestPasswordReset" "Alice@Example.com" askInputVisit.request.post :=
  ⟨⟨"requestPasswordReset", "requestPasswordReset",
    [("input", .object [("email", .string "Alice@Example.com")])]⟩, rfl, rfl, rfl⟩

theorem askInputVisit_counted : CountedVisits sample isWordChar parseAsk "requestPasswordReset"
    "alice@example.com" sampleHttp (.visit askInputVisit) := by
  intro _
  refine ⟨_, askInputBody, askInputVisit_acts, rfl, by decide +kernel, ?_⟩
  exact input_variable_supplies rfl rfl rfl rfl ⟨_, _, _, _, _, rfl⟩ (by simp [Variables.get])
    askInputVisit_acts (by decide)

theorem askInputVisit_runs : Runs (http sample isWordChar parseAsk) sampleHttp
    [(sampleHttp, .visit askInputVisit)] (visit sample isWordChar parseAsk askInputVisit
      sampleHttp).2 := by
  refine .single (HttpStep.visit _ _ (freshIds_one rfl (fun m hm => ?_)
    (fun r hr => absurd hr List.not_mem_nil)))
  rw [List.mem_singleton.1 hm]
  decide

theorem admitted_within_limit_ask : (admittedIn sample isWordChar parseAsk "requestPasswordReset"
    "alice@example.com" [(sampleHttp, .visit askInputVisit)] : ℤ) ≤ 3 :=
  admitted_within_limit (.inr rfl) rfl (List.mem_cons_self ..) rfl rfl askInputVisit_runs
    (meets_cons.2 ⟨trivial, meets_nil _⟩) (meets_cons.2 ⟨askInputVisit_counted, meets_nil _⟩)

theorem mails_within_limit_ask :
    mailsTo "alice@example.com" (visit sample isWordChar parseAsk askInputVisit sampleHttp).2.world ≤
      mailsTo "alice@example.com" sampleHttp.world + 3 :=
  mails_within_limit rfl askInputVisit_runs (meets_cons.2 ⟨trivial, meets_nil _⟩)
    (meets_cons.2 ⟨askInputVisit_counted, meets_nil _⟩)

end Sample

end AuthService.AddressLimits
