import AuthService.RateWindows

set_option autoImplicit false

/-! Why a call is refused: the INCRs of the last window. -/
namespace AuthService.RefusalWindows
open ExpiringMaps RedisSessions LabelledRuns ThreadPools RateLimiter RateWindows

section Pool
variable {ι : Type} {k : String} {limit : ℤ} {window : ℕ}

def counts (k : String) (x : Pool ι Counters Check × Turn ι) : Bool :=
  match x.2 with
  | .env => false
  | .run i =>
    match x.1.thread i with
    | .counting call => decide (call.key = k)
    | _ => false

def countsUntil (k : String) (window d : ℕ) (x : Pool ι Counters Check × Turn ι) : Bool :=
  counts k x && decide (d ≤ x.1.shared.now + seconds window)

/-- A counter is alive, ends within the window, and shows INCRs that lie within it. -/
structure Accounted (k : String) (window : ℕ) (p : List (Pool ι Counters Check × Turn ι))
    (now : ℕ) (e : Entry ℕ) (d : ℕ) : Prop where
  deadline : e.deadline = some d
  alive : now < d
  within : d ≤ now + seconds window
  value : e.value ≤ p.countP (countsUntil k window d)

def AccountedFor (k : String) (window : ℕ) (p : List (Pool ι Counters Check × Turn ι))
    (c : Counters) : Prop :=
  ∀ e, c.count ("rl:" ++ k) = some e → ∃ d, Accounted k window p c.now e d

theorem Accounted.cons {p : List (Pool ι Counters Check × Turn ι)} {now d : ℕ} {e : Entry ℕ}
    (h : Accounted k window p now e d) (x : Pool ι Counters Check × Turn ι) :
    Accounted k window (x :: p) now e d :=
  ⟨h.deadline, h.alive, h.within, h.value.trans (by rw [List.countP_cons]; exact Nat.le_add_right _ _)⟩

theorem Accounted.count {p : List (Pool ι Counters Check × Turn ι)} {d : ℕ} {e : Entry ℕ}
    {x : Pool ι Counters Check × Turn ι} (h : Accounted k window p x.1.shared.now e d)
    (hx : counts k x = true) :
    Accounted k window (x :: p) x.1.shared.now ⟨e.value + 1, e.deadline⟩ d := by
  refine ⟨h.deadline, h.alive, h.within, ?_⟩
  have hcounts : countsUntil k window d x = true := by
    simp [countsUntil, hx, h.within]
  rw [List.countP_cons, if_pos hcounts]
  exact Nat.add_le_add_right h.value 1

theorem counts_run {v : Pool ι Counters Check} {i : ι} {call : Call}
    (ht : v.thread i = .counting call) :
    counts call.key (v, .run i) = true := by
  simp [counts, ht]

/-- The INCR of the thread found the limit used up by the INCRs of its window, its own among them. -/
def UsedUp (i : ι) (call : Call) (p : List (Pool ι Counters Check × Turn ι)) : Prop :=
  ∃ newer v older, p = newer ++ (v, .run i) :: older ∧ v.thread i = .counting call ∧
    call.limit < (((v, .run i) :: older).countP (fun x =>
      counts call.key x && decide (v.shared.now < x.1.shared.now + seconds call.windowSeconds)) : ℕ)

theorem UsedUp.cons {i : ι} {call : Call} {p : List (Pool ι Counters Check × Turn ι)}
    (h : UsedUp i call p) (x : Pool ι Counters Check × Turn ι) : UsedUp i call (x :: p) := by
  obtain ⟨newer, v, older, rfl, hrest⟩ := h
  exact ⟨x :: newer, v, older, rfl, hrest⟩

variable [DecidableEq ι]

theorem accountedFor_step (hw : 0 < window) {p : List (Pool ι Counters Check × Turn ι)}
    {v w : Pool ι Counters Check} {l : Turn ι} (hu : Uniform k limit window v)
    (h : AccountedFor k window p v.shared) (hC : IncrFinds v l) (hs : (checkPool ι).step v l w) :
    AccountedFor k window ((v, l) :: p) w.shared := by
  cases hs with
  | @env s henv =>
    obtain ⟨d, rfl⟩ := henv
    intro e he
    obtain ⟨hold, halive⟩ := advance_count.1 he
    obtain ⟨d', hd⟩ := h e hold
    refine ⟨d', hd.deadline, ?_, ?_, (hd.cons _).value⟩
    · rw [show e = ⟨e.value, some d'⟩ by rw [← hd.deadline]] at halive
      exact Entry.aliveAt_some.1 halive
    · exact hd.within.trans (by simp only [Counters.advance]; omega)
  | @run s t i hstep =>
    have hkept : ∀ e, v.shared.count ("rl:" ++ k) = some e →
        ∃ d, Accounted k window ((v, .run i) :: p) v.shared.now e d := fun e he => by
      obtain ⟨d, hd⟩ := h e he
      exact ⟨d, hd.cons _⟩
    intro e he
    rcases Check.step_cases hstep with ⟨call, ht, hc, -⟩ | ⟨call, ht, hc, -⟩ | ⟨call, n, ht, hc, -⟩
    · subst hc
      change (setNx call.redisKey call.windowSeconds v.shared).count ("rl:" ++ k) = some e at he
      simp only [setNx_now]
      cases hold : v.shared.count call.redisKey with
      | some e' =>
        rw [setNx_present hold] at he
        exact hkept e he
      | none =>
        rw [setNx_absent hold] at he
        split_ifs at he with hkey
        · -- the SET opens the counter
          obtain ⟨-, hwindow⟩ := hu i (by rw [ht]; exact redisKey_eq.1 hkey.symm)
          rw [ht] at hwindow
          obtain rfl := Option.some.inj he
          refine ⟨_, rfl, ?_, ?_, Nat.zero_le _⟩
          · have := seconds_pos hw
            rw [show call.windowSeconds = window from hwindow]
            omega
          · rw [show call.windowSeconds = window from hwindow]
        · exact hkept e he
    · subst hc
      change (incr call.redisKey v.shared).2.count ("rl:" ++ k) = some e at he
      rw [incr_count] at he
      simp only [incr_now]
      split_ifs at he with hkey
      · obtain ⟨e', he'⟩ := Option.ne_none_iff_exists'.1 (hC i rfl call ht)
        obtain ⟨d, hd⟩ := h e' (hkey ▸ he')
        obtain rfl := redisKey_eq.1 hkey.symm
        obtain rfl := Option.some.inj he
        refine ⟨d, ?_⟩
        rw [ExpiringMap.value, he']
        exact hd.count (x := (v, .run i)) (counts_run ht)
      · exact hkept e he
    · subst hc
      exact hkept e he

def OverLimit : Check → Bool
  | .exceeded _ _ => true
  | .raised _ _ => true
  | _ => false

def Agreeing (v : Pool ι Counters Check) : Prop :=
  ∀ i j, (v.thread i).call.key = (v.thread j).call.key → (v.thread i).call = (v.thread j).call

omit [DecidableEq ι] in
theorem Agreeing.uniform {v : Pool ι Counters Check} (h : Agreeing v) (i : ι) :
    Uniform (v.thread i).call.key (v.thread i).call.limit (v.thread i).call.windowSeconds v := by
  intro j hj
  rw [h j i hj]
  exact ⟨rfl, rfl⟩

theorem accountedFor_runs (hw : 0 < window) {s v : Pool ι Counters Check}
    {p : List (Pool ι Counters Check × Turn ι)} (hs : Launch s) (hu : Uniform k limit window s)
    (h : Runs (checkPool ι) s p v) (hC : Meets IncrFinds p) : AccountedFor k window p v.shared := by
  induction h with
  | refl =>
    obtain ⟨now, hb⟩ := hs.blank
    intro e he
    rw [hb] at he
    simp [Counters.blank, ExpiringMap.empty] at he
  | next front hstep ih =>
    obtain ⟨hx, hp⟩ := meets_cons.1 hC
    exact accountedFor_step hw (uniform_runs front hu) (ih hp) hx hstep

omit [DecidableEq ι] in
theorem usedUp_of_incr {i : ι} {call : Call} {p : List (Pool ι Counters Check × Turn ι)}
    {v : Pool ι Counters Check} (ht : v.thread i = .counting call)
    (h : AccountedFor call.key call.windowSeconds p v.shared) (hC : IncrFinds v (.run i))
    (hover : call.limit < (incr call.redisKey v.shared).1) : UsedUp i call ((v, .run i) :: p) := by
  obtain ⟨e, he⟩ := Option.ne_none_iff_exists'.1 (hC i rfl call ht)
  obtain ⟨d, hd⟩ := h e he
  have hvalue := (hd.count (x := (v, .run i)) (counts_run ht)).value
  refine ⟨[], v, p, rfl, ht, ?_⟩
  rw [incr_fst, ExpiringMap.value, he] at hover
  refine lt_of_lt_of_le hover ?_
  refine Int.ofNat_le.2 (hvalue.trans (List.countP_mono_left fun x _ hx => ?_))
  simp only [countsUntil, Bool.and_eq_true, decide_eq_true_eq] at hx ⊢
  exact ⟨hx.1, hd.alive.trans_le hx.2⟩

/-- Whenever every INCR finds its key, a call is refused only if more INCRs on its key than its
limit, its own among them, lie within the window behind its INCR. -/
theorem refused_used_up {s u : Pool ι Counters Check} {p : List (Pool ι Counters Check × Turn ι)}
    (hs : Launch s) (hagree : Agreeing s) (h : Runs (checkPool ι) s p u)
    (hC : Meets IncrFinds p) (i : ι)
    (hover : OverLimit (u.thread i) = true) : UsedUp i (s.thread i).call p := by
  induction h with
  | refl =>
    obtain ⟨call, ht, -⟩ := hs.start i
    rw [ht] at hover
    cases hover
  | @next v w p l front hstep ih =>
    obtain ⟨hx, hp⟩ := meets_cons.1 hC
    by_cases hbefore : OverLimit (v.thread i) = true
    · exact (ih hp hbefore).cons _
    · cases hstep with
      | env henv => exact absurd hover hbefore
      | @run s' t j hrun =>
        by_cases hj : i = j
        · subst hj
          simp only [Function.update_self] at hover
          obtain ⟨call₀, hstart, hw⟩ := hs.start i
          rcases Check.step_cases hrun with ⟨call, ht, -, rfl⟩ | ⟨call, ht, -, rfl⟩ | ⟨call, n, ht, -⟩
          · cases hover
          · have hcall : (s.thread i).call = call := by
              rw [← runs_calls front i, ht]
              rfl
            have hwindow : 0 < call.windowSeconds := by
              rw [← hcall, hstart]
              exact hw
            have hacc := accountedFor_runs hwindow hs (hcall ▸ hagree.uniform i) front hp
            rw [hcall]
            refine usedUp_of_incr ht hacc hx ?_
            by_contra hle
            rw [Check.afterIncr, if_neg hle] at hover
            cases hover
          · rw [ht] at hbefore
            exact absurd rfl hbefore
        · simp only [Function.update_of_ne hj] at hover
          exact absurd hover hbefore

end Pool

section Sample

def singleCall : Call := checkIp "203.0.113.7" "login" 1 60

def twoSingles : Pool Bool Counters Check := ⟨Counters.blank 0, fun _ => .start singleCall⟩

def moved (v : Pool Bool Counters Check) (i : Bool) : Pool Bool Counters Check :=
  ⟨(((v.thread i).step v.shared).map Prod.fst).getD v.shared,
    Function.update v.thread i ((((v.thread i).step v.shared).map Prod.snd).getD (v.thread i))⟩

theorem moved_runs {s v : Pool Bool Counters Check} {p : List (Pool Bool Counters Check × Turn Bool)}
    (h : Runs (checkPool Bool) s p v) {i : Bool} (hmoves : ((v.thread i).step v.shared).isSome = true) :
    Runs (checkPool Bool) s ((v, .run i) :: p) (moved v i) := by
  obtain ⟨x, hx⟩ := Option.isSome_iff_exists.1 hmoves
  have hstep : (checkPool Bool).step v (.run i)
      ⟨x.1, Function.update v.thread i x.2⟩ := PoolStep.run i hx
  unfold moved
  rw [hx]
  exact h.next hstep

theorem refused_used_up_login : UsedUp true singleCall
    [(moved (moved (moved twoSingles false) false) true, .run true),
      (moved (moved twoSingles false) false, .run true), (moved twoSingles false, .run false),
      (twoSingles, .run false)] := by
  have hruns := moved_runs (moved_runs (moved_runs (moved_runs (Runs.refl twoSingles) (i := false) rfl)
    (i := false) rfl) (i := true) rfl) (i := true) rfl
  refine refused_used_up ⟨⟨0, rfl⟩, fun _ => ⟨singleCall,
    rfl, by decide⟩⟩ (fun _ _ _ => rfl) hruns ?_ true rfl
  refine meets_cons.2 ⟨?_, meets_cons.2 ⟨?_, meets_cons.2 ⟨?_, meets_cons.2 ⟨?_, meets_nil _⟩⟩⟩⟩
  all_goals
    intro i hi call ht
    obtain rfl := Turn.run.inj hi
    cases ht
  · decide
  · decide

end Sample

end AuthService.RefusalWindows
