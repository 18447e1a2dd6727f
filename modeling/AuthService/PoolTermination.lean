import AuthService.ThreadPools
import Mathlib.Data.DFinsupp.WellFounded
import Mathlib.Data.Fintype.Lattice
import Mathlib.Data.Set.Finite.Lattice
import Mathlib.Order.OrderIsoNat

set_option autoImplicit false

/-! Pools in which every step of a thread brings it nearer to its end, and pools in which
threads wait for locks. -/
namespace AuthService.PoolTermination
open LabelledRuns ThreadPools

variable {σ τ ι α : Type} [DecidableEq ι]

section Measure
variable [Preorder α] {P : Program ι σ τ} {measure : τ → α}

def Descends (P : Program ι σ τ) (measure : τ → α) : Prop :=
  ∀ i s t s' t', P.step i s t s' t' → measure t' < measure t

theorem measure_env {c d : Pool ι σ τ} (h : PoolStep P c .env d) : d.thread = c.thread := by
  cases h
  rfl

theorem measure_other {c d : Pool ι σ τ} {i j : ι} (h : PoolStep P c (.run i) d) (hj : j ≠ i) :
    d.thread j = c.thread j := by
  cases h
  simp only [Function.update_of_ne hj]

theorem measure_run (hP : Descends P measure) {c d : Pool ι σ τ} {i : ι} (h : PoolStep P c (.run i) d) :
    measure (d.thread i) < measure (c.thread i) := by
  cases h with
  | run i h => simpa only [Function.update_self] using hP _ _ _ _ _ h

theorem measure_le (hP : Descends P measure) {c d : Pool ι σ τ} {l : Turn ι} (h : PoolStep P c l d)
    (j : ι) : measure (d.thread j) ≤ measure (c.thread j) := by
  cases l with
  | env => rw [measure_env h]
  | run i =>
    by_cases hj : j = i
    · rw [hj]
      exact (measure_run hP h).le
    · rw [measure_other h hj]

end Measure

section Infinite
variable [PartialOrder α] [WellFoundedLT α] {P : Program ι σ τ} {measure : τ → α}

theorem finitely_many_steps (hP : Descends P measure) {run : ℕ → Pool ι σ τ} {turn : ℕ → Turn ι}
    (h : ∀ n, PoolStep P (run n) (turn n) (run (n + 1))) (i : ι) : {n | turn n = .run i}.Finite := by
  have hanti : Antitone fun n => measure ((run n).thread i) :=
    antitone_nat_of_succ_le fun n => measure_le hP (h n) i
  obtain ⟨N, hN⟩ := WellFoundedGT.monotone_chain_condition
    (⟨fun n => OrderDual.toDual (measure ((run n).thread i)), hanti.dual_right⟩ : ℕ →o αᵒᵈ)
  refine (Set.finite_lt_nat N).subset fun n hn => ?_
  by_contra hle
  have hle : N ≤ n := by simpa using hle
  have hsame : measure ((run N).thread i) = measure ((run n).thread i) := hN n hle
  have hsame' : measure ((run N).thread i) = measure ((run (n + 1)).thread i) := hN (n + 1) (by omega)
  have hturn : PoolStep P (run n) (.run i) (run (n + 1)) := hn ▸ h n
  have hlt := measure_run hP hturn
  rw [← hsame, ← hsame'] at hlt
  exact lt_irrefl _ hlt

/-- In an endless run the threads of a finite pool take only finitely many steps. -/
theorem finitely_many_turns [Finite ι] (hP : Descends P measure) {run : ℕ → Pool ι σ τ}
    {turn : ℕ → Turn ι} (h : ∀ n, PoolStep P (run n) (turn n) (run (n + 1))) :
    {n | turn n ≠ .env}.Finite := by
  refine (Set.finite_iUnion fun i => finitely_many_steps hP h i).subset fun n hn => ?_
  cases ht : turn n with
  | env => exact absurd ht hn
  | run i => exact Set.mem_iUnion.2 ⟨i, ht⟩

/-- As long as some thread can move, moving threads brings a finite pool to an end. -/
theorem comes_to_rest [Finite ι] (hP : Descends P measure) (I : Pool ι σ τ → Prop)
    (hI : ∀ c i d, I c → PoolStep P c (.run i) d → I d) (done : τ → Prop)
    (hmoves : ∀ c, I c → (∃ i, ¬ done (c.thread i)) → ∃ i d, PoolStep P c (.run i) d)
    (init : Pool ι σ τ → Prop) {c : Pool ι σ τ} (hc : I c) :
    ∃ p d, Runs (P.system init) c p d ∧ (∀ x ∈ p, x.2 ≠ .env) ∧ ∀ i, done (d.thread i) := by
  induction hm : (fun i => measure (c.thread i)) using WellFoundedLT.induction generalizing c with
  | ind m ih =>
    subst hm
    by_cases hall : ∀ i, done (c.thread i)
    · exact ⟨[], c, .refl c, by simp, hall⟩
    · obtain ⟨i, d, hstep⟩ := hmoves c hc (not_forall.1 hall)
      have hlt : (fun j => measure (d.thread j)) < fun j => measure (c.thread j) :=
        Pi.lt_def.2 ⟨measure_le hP hstep, i, measure_run hP hstep⟩
      obtain ⟨p, e, hruns, hturns, hdone⟩ := ih _ hlt (hI c i d hc hstep) rfl
      refine ⟨p ++ [(c, .run i)], e, (Runs.single hstep).trans hruns, ?_, hdone⟩
      intro x hx
      rcases List.mem_append.1 hx with hx | hx
      · exact hturns x hx
      · rw [List.mem_singleton.1 hx]
        simp

end Infinite

omit [DecidableEq ι] in
/-- Who holds which lock, and which lock a thread waits for. If a waiting thread only holds
locks below the one it waits for, and only busy threads hold locks, some busy thread can go on. -/
theorem some_unblocked [Finite ι] {ρ : Type} [LinearOrder α] (busy : ι → Prop) (held : ρ → Option ι)
    (wants : ι → Option ρ) (rank : ρ → α) (hbusy : ∀ k i, held k = some i → busy i)
    (horder : ∀ i k, wants i = some k → ∀ l, held l = some i → rank l < rank k) {i₀ : ι}
    (hi₀ : busy i₀) :
    ∃ i, busy i ∧ ∀ k, wants i = some k → ∀ j, held k = some j → j = i := by
  by_contra hnone
  push Not at hnone
  -- every busy thread waits for a lock that another busy thread holds
  choose want hwant owner howner hne using hnone
  have : Nonempty {i // busy i} := ⟨⟨i₀, hi₀⟩⟩
  obtain ⟨⟨i, hi⟩, hmax⟩ := Finite.exists_max fun i : {i // busy i} => rank (want i.1 i.2)
  have hj : busy (owner i hi) := hbusy _ _ (howner i hi)
  have hlt : rank (want i hi) < rank (want (owner i hi) hj) :=
    horder (owner i hi) _ (hwant _ hj) _ (howner i hi)
  exact absurd (hmax ⟨owner i hi, hj⟩) (not_le.2 hlt)

end AuthService.PoolTermination
