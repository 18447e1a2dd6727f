import AuthService.RateLimiter

set_option autoImplicit false

/-! Lifetimes of the counters: when they carry an expiry, and how many calls get through. -/
namespace AuthService.RateWindows
open ExpiringMaps RedisSessions LabelledRuns ThreadPools RateLimiter

section Pool
variable {ι : Type} [DecidableEq ι]

/-- Every counter expires within the window of some call on its key. -/
def Expiring (v : Pool ι Counters Check) : Prop :=
  ∀ k e, v.shared.count k = some e → ∃ d i, e.deadline = some d ∧
    (v.thread i).call.redisKey = k ∧ d ≤ v.shared.now + seconds (v.thread i).call.windowSeconds

/-- INCR finds the key that the SET before it has made sure of. -/
def IncrFinds (v : Pool ι Counters Check) (l : Turn ι) : Prop :=
  ∀ i, l = .run i → ∀ call, v.thread i = .counting call → v.shared.count call.redisKey ≠ none

omit [DecidableEq ι] in
theorem expiring_launch {c : Pool ι Counters Check} (h : Launch c) : Expiring c := by
  obtain ⟨now, hb⟩ := h.blank
  intro k e he
  rw [hb] at he
  simp [Counters.blank, ExpiringMap.empty] at he

theorem Expiring.of_step {v w : Pool ι Counters Check} {l : Turn ι} (hs : (checkPool ι).step v l w)
    (h : ∀ k e, w.shared.count k = some e → ∃ d i, e.deadline = some d ∧
      (v.thread i).call.redisKey = k ∧
      d ≤ w.shared.now + seconds (v.thread i).call.windowSeconds) : Expiring w := by
  intro k e he
  obtain ⟨d, i, hd, hk, hle⟩ := h k e he
  refine ⟨d, i, hd, ?_, ?_⟩
  · rw [step_calls hs i, hk]
  · rw [step_calls hs i]
    exact hle

theorem expiring_step {v w : Pool ι Counters Check} {l : Turn ι} (h : Expiring v)
    (hC : IncrFinds v l) (hs : (checkPool ι).step v l w) : Expiring w := by
  refine Expiring.of_step hs ?_
  cases hs with
  | @run s t i hstep =>
    rcases Check.step_cases hstep with ⟨call, ht, hc, -⟩ | ⟨call, ht, hc, -⟩ | ⟨call, n, ht, hc, -⟩
    · subst hc
      intro k e he
      cases hk : v.shared.count call.redisKey with
      | some e' =>
        rw [setNx_present hk] at he ⊢
        exact h k e he
      | none =>
        rw [setNx_absent hk] at he
        rw [setNx_now]
        split_ifs at he with hkey
        · obtain rfl := Option.some.inj he
          refine ⟨_, i, rfl, ?_, ?_⟩
          · rw [ht, hkey]
            rfl
          · rw [ht]
            exact le_rfl
        · exact h k e he
    · subst hc
      intro k e he
      rw [incr_count] at he
      split_ifs at he with hkey
      · obtain ⟨e', he'⟩ := Option.ne_none_iff_exists'.1 (hC i rfl call ht)
        obtain ⟨d, j, hd, hj, hle⟩ := h _ _ he'
        obtain rfl := Option.some.inj he
        refine ⟨d, j, ?_, hj.trans hkey.symm, hle⟩
        rw [he']
        exact hd
      · exact h k e he
    · subst hc
      exact h
  | @env s henv =>
    obtain ⟨d, rfl⟩ := henv
    intro k e he
    obtain ⟨d', j, hd, hj, hle⟩ := h k e (advance_count.1 he).1
    refine ⟨d', j, hd, hj, hle.trans ?_⟩
    exact Nat.add_le_add_right (Nat.le_add_right _ _) _

/-- An INCR that finds no key leaves one that never expires. -/
theorem not_expiring_of_lost {v w : Pool ι Counters Check} {l : Turn ι} (hC : ¬ IncrFinds v l)
    (hs : (checkPool ι).step v l w) : ¬ Expiring w := by
  intro hw
  simp only [IncrFinds, not_forall] at hC
  obtain ⟨i, rfl, call, ht, hlost⟩ := hC
  rw [not_not] at hlost
  cases hs with
  | @run s t _ hstep =>
    rw [ht] at hstep
    cases hstep
    have he : (incr call.redisKey v.shared).2.count call.redisKey =
        some ⟨(v.shared.count.value call.redisKey).getD 0 + 1, none⟩ := by
      rw [incr_count, if_pos rfl, hlost]
      rfl
    obtain ⟨d, -, hd, -⟩ := hw _ _ he
    simp at hd

/-- The counters always expire exactly in the runs in which no key vanishes between the
SET and the INCR of one call. -/
theorem counters_expire_iff {s u : Pool ι Counters Check}
    {p : List (Pool ι Counters Check × Turn ι)} (hs : Launch s) (h : Runs (checkPool ι) s p u) :
    (∀ v ∈ Visited p u, Expiring v) ↔ Meets IncrFinds p := by
  constructor
  · intro hv x hx
    obtain ⟨w, hw, hstep⟩ := h.step_of_mem hx
    by_contra hC
    exact not_expiring_of_lost hC hstep (hv w hw)
  · intro hC
    exact h.visited_of_meets Expiring IncrFinds (fun _ _ _ hI hx hstep => expiring_step hI hx hstep)
      hC (expiring_launch hs)

end Pool

def loginCall : Call := checkIp "203.0.113.7" "login" 5 60

def twoCalls : Pool Bool Counters Check := ⟨Counters.blank 0, fun _ => .start loginCall⟩

/-- The second call sends its SET just before the window of the first ends. -/
def lateCall : List (Move Bool Counters) :=
  [.run false, .run false, .env (Counters.advance 59999), .run true, .env (Counters.advance 1),
    .run true]

theorem twoCalls_launch : Launch twoCalls := ⟨⟨0, rfl⟩, fun _ => ⟨loginCall, rfl, by decide⟩⟩

theorem lateCall_runs {d : Pool Bool Counters Check}
    (h : play (fun _ => Check.step) lateCall twoCalls = some d) :
    ∃ p, Runs (checkPool Bool) twoCalls p d := by
  refine play_runs (fun _ _ _ _ _ hs => hs) ?_ h
  intro f hf c
  simp only [lateCall, List.mem_cons, reduceCtorEq, false_or, Move.env.injEq, List.not_mem_nil,
    or_false] at hf
  rcases hf with rfl | rfl
  · exact ⟨59999, rfl⟩
  · exact ⟨1, rfl⟩

theorem lateCall_counter {d : Pool Bool Counters Check}
    (h : play (fun _ => Check.step) lateCall twoCalls = some d) :
    d.shared.count "rl:login:ip:203.0.113.7" = some ⟨1, none⟩ ∧ ¬ Expiring d := by
  have hcount : (play (fun _ => Check.step) lateCall twoCalls).map
      (fun d => d.shared.count "rl:login:ip:203.0.113.7") = some (some ⟨1, none⟩) := by
    decide +kernel
  rw [h, Option.map_some, Option.some.injEq] at hcount
  refine ⟨hcount, fun hexpiring => ?_⟩
  obtain ⟨t, -, ht, -⟩ := hexpiring _ _ hcount
  simp at ht

theorem counters_expire_iff_late_call :
    ∃ p d, Runs (checkPool Bool) twoCalls p d ∧ ¬ Meets IncrFinds p := by
  obtain ⟨d, hd⟩ : ∃ d, play (fun _ => Check.step) lateCall twoCalls = some d := ⟨_, rfl⟩
  obtain ⟨p, hp⟩ := lateCall_runs hd
  refine ⟨p, d, hp, fun hfinds => (lateCall_counter hd).2 ?_⟩
  exact (counters_expire_iff twoCalls_launch hp).2 hfinds d List.mem_cons_self

/-- The key vanishes between the SET and the INCR of the second call, and INCR leaves it
without an expiry. -/
theorem late_call_leaves_counter : ∃ p d, Runs (checkPool Bool) twoCalls p d ∧
    d.shared.count "rl:login:ip:203.0.113.7" = some ⟨1, none⟩ ∧ ¬ Expiring d := by
  obtain ⟨d, hd⟩ : ∃ d, play (fun _ => Check.step) lateCall twoCalls = some d := ⟨_, rfl⟩
  obtain ⟨p, hp⟩ := lateCall_runs hd
  exact ⟨p, d, hp, lateCall_counter hd⟩

/-- What one step does to the counter of a key whose calls share a limit and a window,
and whether it lets a call return. -/
inductive KeyStep (limit : ℤ) (window : ℕ) :
    ℕ → Option (Entry ℕ) → ℕ → Option (Entry ℕ) → Bool → Prop where
  | same (now : ℕ) (e : Option (Entry ℕ)) : KeyStep limit window now e now e false
  | opened (now : ℕ) :
      KeyStep limit window now none now (some ⟨0, some (now + seconds window)⟩) false
  | counted (now : ℕ) (e : Option (Entry ℕ)) (r : Bool)
      (within : r = true → (((e.map Entry.value).getD 0 + 1 : ℕ) : ℤ) ≤ limit) :
      KeyStep limit window now e now
        (some ⟨(e.map Entry.value).getD 0 + 1, e.bind Entry.deadline⟩) r
  | waited (now d : ℕ) (e : Option (Entry ℕ)) :
      KeyStep limit window now e (now + d) (e.filter (fun e => e.aliveAt (now + d))) false

def endsBefore (b : ℕ) (e : Entry ℕ) : Bool :=
  match e.deadline with
  | none => false
  | some d => decide (d < b)

/-- The calls that returned between `a` and `b`, seen from the counter: a lifetime that
ends before `b` is the first one met, any other the last. -/
structure Burst (limit : ℤ) (a b now : ℕ) (e : Option (Entry ℕ)) (n : ℕ) : Prop where
  early : now < a → n = 0
  total : (n : ℤ) ≤ 2 * limit
  between : now < b → e = none → (n : ℤ) ≤ limit
  first : now < b → ∀ x, e = some x → endsBefore b x = true → (n : ℤ) ≤ x.value ∧ (n : ℤ) ≤ limit
  last : now < b → ∀ x, e = some x → endsBefore b x = false → (n : ℤ) ≤ limit + x.value

theorem burst_zero {limit : ℤ} (h : 0 ≤ limit) (a b now : ℕ) : Burst limit a b now none 0 where
  early _ := rfl
  total := by simpa using h
  between _ _ := by simpa using h
  first _ x hx := by simp at hx
  last _ x hx := by simp at hx

def inside (a b now : ℕ) : Bool := decide (a ≤ now ∧ now < b)

theorem Burst.counted {limit : ℤ} {a b now n : ℕ} {e : Option (Entry ℕ)} (h : Burst limit a b now e n)
    (hb : now < b) :
    (endsBefore b ⟨(e.map Entry.value).getD 0 + 1, e.bind Entry.deadline⟩ = true ∧
        (n : ℤ) ≤ (e.map Entry.value).getD 0 ∧ (n : ℤ) ≤ limit) ∨
      (endsBefore b ⟨(e.map Entry.value).getD 0 + 1, e.bind Entry.deadline⟩ = false ∧
        (n : ℤ) ≤ limit + (e.map Entry.value).getD 0) := by
  cases e with
  | none => exact .inr ⟨rfl, by simpa using h.between hb rfl⟩
  | some x =>
    cases hx : endsBefore b x with
    | true => exact .inl ⟨hx, h.first hb x rfl hx⟩
    | false => exact .inr ⟨hx, h.last hb x rfl hx⟩

theorem Burst.step {limit : ℤ} {a window now now' n : ℕ} {e e' : Option (Entry ℕ)} {r : Bool}
    (hlim : 0 ≤ limit) (h : Burst limit a (a + seconds window) now e n)
    (hs : KeyStep limit window now e now' e' r) :
    Burst limit a (a + seconds window) now' e'
      (n + if r && inside a (a + seconds window) now then 1 else 0) := by
  cases hs with
  | same => simpa using h
  | opened =>
    simp only [Bool.false_and, Bool.false_eq_true, ↓reduceIte, Nat.add_zero]
    refine ⟨h.early, h.total, by simp, ?_, ?_⟩
    · rintro hb x hx hend
      obtain rfl := Option.some.inj hx
      simp only [endsBefore, decide_eq_true_eq] at hend
      have hn := h.early (by omega)
      subst hn
      simpa using hlim
    · rintro hb x hx -
      obtain rfl := Option.some.inj hx
      simpa using h.between hb rfl
  | counted _ _ within =>
    by_cases hr : (r && inside a (a + seconds window) now) = true
    · rw [if_pos hr]
      obtain ⟨hret, hin⟩ := Bool.and_eq_true _ _ |>.mp hr
      obtain ⟨ha, hb⟩ := of_decide_eq_true hin
      have hle := within hret
      push_cast at hle
      refine ⟨fun hlt => absurd hlt (by omega), ?_, by simp, ?_, ?_⟩
      · rcases h.counted hb with ⟨-, hv, -⟩ | ⟨-, hv⟩ <;> push_cast <;> omega
      · rintro - x hx hend
        obtain rfl := Option.some.inj hx
        rcases h.counted hb with ⟨-, hv, -⟩ | ⟨hend', -⟩
        · push_cast
          omega
        · rw [hend'] at hend
          simp at hend
      · rintro - x hx -
        obtain rfl := Option.some.inj hx
        rcases h.counted hb with ⟨-, hv, -⟩ | ⟨-, hv⟩ <;> push_cast <;> omega
    · rw [if_neg hr, Nat.add_zero]
      refine ⟨h.early, h.total, by simp, ?_, ?_⟩
      · rintro hb x hx hend
        obtain rfl := Option.some.inj hx
        rcases h.counted hb with ⟨-, hv, hl⟩ | ⟨hend', -⟩
        · push_cast
          omega
        · rw [hend'] at hend
          simp at hend
      · rintro hb x hx -
        obtain rfl := Option.some.inj hx
        rcases h.counted hb with ⟨-, hv, -⟩ | ⟨-, hv⟩ <;> push_cast <;> omega
  | waited d _ =>
    simp only [Bool.false_and, Bool.false_eq_true, ↓reduceIte, Nat.add_zero]
    refine ⟨fun ha => h.early (by omega), h.total, ?_, ?_, ?_⟩
    · intro hb hnone
      cases e with
      | none => exact h.between (by omega) rfl
      | some x =>
        have hend : endsBefore (a + seconds window) x = true := by
          have hdead := Option.filter_eq_none_iff.1 hnone x rfl
          unfold endsBefore
          unfold Entry.aliveAt at hdead
          cases hd : x.deadline with
          | none => simp [hd] at hdead
          | some t =>
            simp only [hd, decide_eq_true_eq] at hdead ⊢
            omega
        exact (h.first (by omega) x rfl hend).2
    · rintro hb x hx hend
      exact h.first (by omega) x (Option.filter_eq_some_iff.1 hx).1 hend
    · rintro hb x hx hend
      exact h.last (by omega) x (Option.filter_eq_some_iff.1 hx).1 hend

section Admission
variable {ι : Type} [DecidableEq ι] {k : String} {limit : ℤ} {window : ℕ}

def returnedOn (k : String) : Check → Bool
  | .returned call _ => decide (call.key = k)
  | _ => false

def returns (k : String) (x : Pool ι Counters Check × Turn ι) : Bool :=
  match x.2 with
  | .env => false
  | .run i => ((x.1.thread i).step x.1.shared).any (fun y => returnedOn k y.2)

def Uniform (k : String) (limit : ℤ) (window : ℕ) (v : Pool ι Counters Check) : Prop :=
  ∀ i, (v.thread i).call.key = k →
    (v.thread i).call.limit = limit ∧ (v.thread i).call.windowSeconds = window

theorem uniform_runs {s v : Pool ι Counters Check} {p : List (Pool ι Counters Check × Turn ι)}
    (h : Runs (checkPool ι) s p v) (hu : Uniform k limit window s) : Uniform k limit window v := by
  intro i hi
  rw [runs_calls h i] at hi ⊢
  exact hu i hi

theorem key_step {v w : Pool ι Counters Check} {l : Turn ι} (hu : Uniform k limit window v)
    (hs : (checkPool ι).step v l w) :
    KeyStep limit window v.shared.now (v.shared.count ("rl:" ++ k)) w.shared.now
      (w.shared.count ("rl:" ++ k)) (returns k (v, l)) := by
  cases hs with
  | @env s h =>
    obtain ⟨d, rfl⟩ := h
    exact .waited _ d _
  | @run s t i h =>
    have hret : returns k (v, .run i) = returnedOn k t := by
      have hstep : (v.thread i).step v.shared = some (s, t) := h
      simp only [returns, hstep, Option.any_some]
    rw [hret]
    rcases Check.step_cases h with ⟨call, ht, rfl, rfl⟩ | ⟨call, ht, rfl, rfl⟩ |
      ⟨call, n, ht, rfl, e, rfl⟩
    · have hw : call.key = k → call.limit = limit ∧ call.windowSeconds = window := by
        simpa only [ht, Check.call] using hu i
      simp only [setNx_now]
      by_cases hk : "rl:" ++ k = call.redisKey
      · cases hc : v.shared.count call.redisKey with
        | some e =>
          rw [setNx_present hc]
          exact .same _ _
        | none =>
          rw [setNx_absent hc, if_pos hk, hk, hc, (hw (redisKey_eq.1 hk.symm)).2]
          exact .opened _
      · rw [setNx_other hk]
        exact .same _ _
    · have hw : call.key = k → call.limit = limit ∧ call.windowSeconds = window := by
        simpa only [ht, Check.call] using hu i
      simp only [incr_now, incr_count]
      by_cases hk : "rl:" ++ k = call.redisKey
      · rw [if_pos hk, hk]
        refine .counted _ _ _ ?_
        intro hr
        unfold Check.afterIncr at hr
        split_ifs at hr with hlt
        · simp [returnedOn] at hr
        · rw [← (hw (redisKey_eq.1 hk.symm)).1]
          exact not_lt.1 hlt
      · have hne : call.key ≠ k := fun he => hk (redisKey_eq.2 he).symm
        rw [if_neg hk]
        have hfalse : returnedOn k (Check.afterIncr call (incr call.redisKey v.shared).1) = false := by
          unfold Check.afterIncr
          split_ifs <;> simp [returnedOn, hne]
        rw [hfalse]
        exact .same _ _
    · exact .same _ _

def returnsBetween (k : String) (a b : ℕ) (x : Pool ι Counters Check × Turn ι) : Bool :=
  returns k x && inside a b x.1.shared.now

theorem burst_runs {s v : Pool ι Counters Check} {p : List (Pool ι Counters Check × Turn ι)}
    (hlim : 0 ≤ limit) (hs : Launch s) (hu : Uniform k limit window s)
    (h : Runs (checkPool ι) s p v) (a : ℕ) :
    Burst limit a (a + seconds window) v.shared.now (v.shared.count ("rl:" ++ k))
      (p.countP (returnsBetween k a (a + seconds window))) := by
  induction h with
  | refl =>
    obtain ⟨now, hb⟩ := hs.blank
    rw [hb]
    exact burst_zero hlim _ _ _
  | next front hstep ih =>
    rw [List.countP_cons]
    exact ih.step hlim (key_step (uniform_runs front hu) hstep)

theorem KeyStep.lifetime {now now' n : ℕ} {e e' : Option (Entry ℕ)} {r : Bool}
    (hs : KeyStep limit window now e now' e' r) (he : n ≤ (e.map Entry.value).getD 0)
    (hn : (n : ℤ) ≤ limit) (hlive : e' ≠ none) :
    (n + if r then 1 else 0) ≤ (e'.map Entry.value).getD 0 ∧
      ((n + if r then 1 else 0 : ℕ) : ℤ) ≤ limit := by
  cases hs with
  | same => simpa using ⟨he, hn⟩
  | opened => exact ⟨by simpa using he, by simpa using hn⟩
  | counted _ _ within =>
    simp only [Option.map_some, Option.getD_some]
    cases r with
    | false =>
      simp only [Bool.false_eq_true, ↓reduceIte, Nat.add_zero]
      omega
    | true =>
      have hle := within rfl
      push_cast at hle
      simp only [↓reduceIte]
      push_cast
      omega
  | waited d _ =>
    obtain ⟨x, hx⟩ := Option.ne_none_iff_exists'.1 hlive
    rw [hx]
    rw [(Option.filter_eq_some_iff.1 hx).1] at he
    simpa using ⟨he, hn⟩

theorem lifetime_runs {t v : Pool ι Counters Check} {q : List (Pool ι Counters Check × Turn ι)}
    (h : Runs (checkPool ι) t q v) (hu : Uniform k limit window t) {n : ℕ}
    (ht : n ≤ ((t.shared.count ("rl:" ++ k)).map Entry.value).getD 0) (hn : (n : ℤ) ≤ limit)
    (hlive : ∀ w ∈ Visited q v, w.shared.count ("rl:" ++ k) ≠ none) :
    n + q.countP (returns k) ≤ ((v.shared.count ("rl:" ++ k)).map Entry.value).getD 0 ∧
      ((n + q.countP (returns k) : ℕ) : ℤ) ≤ limit := by
  induction h with
  | refl => exact ⟨by simpa using ht, by simpa using hn⟩
  | next front hstep ih =>
    obtain ⟨h1, h2⟩ := ih (fun w hw => hlive w (List.mem_cons_of_mem _ (by simpa [Visited] using hw)))
    rw [List.countP_cons, ← Nat.add_assoc]
    exact (key_step (uniform_runs front hu) hstep).lifetime h1 h2 (hlive _ (by simp [Visited]))

/-- In every interval of one window at most twice the limit get through, and in a lifetime of
the key, from the step that opens it on, at most the limit. -/
theorem calls_within_window {s u : Pool ι Counters Check}
    {p : List (Pool ι Counters Check × Turn ι)} (hlim : 0 ≤ limit)
    (hs : Launch s) (hu : ∀ i call, s.thread i = .start call → call.key = k →
      call.limit = limit ∧ call.windowSeconds = window)
    (h : Runs (checkPool ι) s p u) :
    (∀ a, (p.countP (returnsBetween k a (a + seconds window)) : ℤ) ≤ 2 * limit) ∧
      ∀ older t l t' q v, Runs (checkPool ι) s older t → (checkPool ι).step t l t' →
        Runs (checkPool ι) t' q v → (∀ w ∈ Visited q v, w.shared.count ("rl:" ++ k) ≠ none) →
        ((q ++ [(t, l)]).countP (returns k) : ℤ) ≤ limit := by
  have huniform : Uniform k limit window s := by
    intro i hi
    obtain ⟨call, hc, -⟩ := hs.start i
    rw [hc] at hi ⊢
    exact hu i call hc hi
  refine ⟨fun a => (burst_runs hlim hs huniform h a).total, ?_⟩
  intro older t l t' q v hbefore hstep hrest hlive
  have ht := uniform_runs hbefore huniform
  have hfirst := (key_step ht hstep).lifetime (n := 0) (by simp) (by simpa using hlim)
    (hlive t' (hrest.start_mem))
  have ht' := uniform_runs (hbefore.trans (.single hstep)) huniform
  have hcount := (lifetime_runs hrest ht' hfirst.1 hfirst.2 hlive).2
  rw [List.countP_append, List.countP_singleton]
  simpa [Nat.add_comm] using hcount

end Admission

theorem calls_within_window_late_call : ∃ p d, Runs (checkPool Bool) twoCalls p d ∧
    (p.countP (returnsBetween "login:ip:203.0.113.7" 1 (1 + seconds 60)) : ℤ) ≤ 2 * 5 := by
  obtain ⟨d, hd⟩ : ∃ d, play (fun _ => Check.step) lateCall twoCalls = some d := ⟨_, rfl⟩
  obtain ⟨p, hp⟩ := lateCall_runs hd
  refine ⟨p, d, hp, (calls_within_window (by decide) twoCalls_launch ?_ hp).1 1⟩
  rintro i call hc -
  obtain rfl := Check.start.inj hc
  exact ⟨rfl, rfl⟩

end AuthService.RateWindows
