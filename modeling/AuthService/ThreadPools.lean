import Mathlib.Logic.Function.Basic
import AuthService.LabelledRuns

set_option autoImplicit false

/-! Threads share a state of type `σ`; a pool interleaves their atomic steps with
steps of the environment. `τ` is the local state of a thread, `ι` names threads. -/
namespace AuthService.ThreadPools
open LabelledRuns

variable {σ τ ι : Type} [DecidableEq ι]

structure Program (ι σ τ : Type) where
  step : ι → σ → τ → σ → τ → Prop
  env : σ → σ → Prop

structure Pool (ι σ τ : Type) where
  shared : σ
  thread : ι → τ

inductive Turn (ι : Type) where
  | run (i : ι)
  | env
  deriving DecidableEq

inductive PoolStep (P : Program ι σ τ) : Pool ι σ τ → Turn ι → Pool ι σ τ → Prop where
  | run {c : Pool ι σ τ} {s : σ} {t : τ} (i : ι) (h : P.step i c.shared (c.thread i) s t) :
      PoolStep P c (.run i) ⟨s, Function.update c.thread i t⟩
  | env {c : Pool ι σ τ} {s : σ} (h : P.env c.shared s) :
      PoolStep P c .env ⟨s, c.thread⟩

def Program.system (P : Program ι σ τ) (init : Pool ι σ τ → Prop) :
    System (Pool ι σ τ) (Turn ι) where
  init := init
  step := PoolStep P

/-- An assertion about the shared state, one about each thread and one about each
pair of different threads; the assertions may mention the shared state. -/
structure Assertion (σ τ : Type) where
  shared : σ → Prop
  thread : σ → τ → Prop
  pair : τ → τ → Prop

def Assertion.Holds (A : Assertion σ τ) (c : Pool ι σ τ) : Prop :=
  A.shared c.shared ∧ (∀ i, A.thread c.shared (c.thread i)) ∧
    ∀ i j, i ≠ j → A.pair (c.thread i) (c.thread j)

/-- Owicki–Gries: a step keeps its own assertion and interferes with no other. -/
structure Assertion.Stable (A : Assertion σ τ) (P : Program ι σ τ)
    (C : Pool ι σ τ → Turn ι → Prop) : Prop where
  own : ∀ (c : Pool ι σ τ) (i : ι) (s : σ) (t : τ), A.Holds c → C c (.run i) →
    P.step i c.shared (c.thread i) s t → A.shared s ∧ A.thread s t
  others : ∀ (c : Pool ι σ τ) (i j : ι) (s : σ) (t : τ), A.Holds c → C c (.run i) →
    P.step i c.shared (c.thread i) s t → i ≠ j →
      A.thread s (c.thread j) ∧ A.pair t (c.thread j) ∧ A.pair (c.thread j) t
  env : ∀ (c : Pool ι σ τ) (s : σ), A.Holds c → P.env c.shared s →
    A.shared s ∧ ∀ i, A.thread s (c.thread i)

theorem Assertion.Stable.step {A : Assertion σ τ} {P : Program ι σ τ}
    {C : Pool ι σ τ → Turn ι → Prop} (hA : A.Stable P C) {c d : Pool ι σ τ} {l : Turn ι}
    (h : A.Holds c) (hC : C c l) (hs : PoolStep P c l d) : A.Holds d := by
  cases hs with
  | @run s t i hs =>
    obtain ⟨hsh, hown⟩ := hA.own c i s t h hC hs
    have hot := fun j (hj : i ≠ j) => hA.others c i j s t h hC hs hj
    refine ⟨hsh, ?_, ?_⟩
    · intro k
      by_cases hk : k = i
      · subst hk; simpa using hown
      · simpa [Function.update_of_ne hk] using (hot k (Ne.symm hk)).1
    · intro j k hjk
      by_cases hj : j = i
      · subst hj
        simpa [Function.update_of_ne (Ne.symm hjk)] using (hot k hjk).2.1
      · by_cases hk : k = i
        · subst hk
          simpa [Function.update_of_ne hj] using (hot j (Ne.symm hj)).2.2
        · simpa [Function.update_of_ne hj, Function.update_of_ne hk] using h.2.2 j k hjk
  | @env s hs =>
    obtain ⟨hsh, hth⟩ := hA.env c s h hs
    exact ⟨hsh, hth, h.2.2⟩

/-- A stable assertion holds in every state of a run whose steps meet the condition. -/
theorem Assertion.Stable.visited {A : Assertion σ τ} {P : Program ι σ τ}
    {C : Pool ι σ τ → Turn ι → Prop} (hA : A.Stable P C) {init : Pool ι σ τ → Prop}
    {c d : Pool ι σ τ} {p : List (Pool ι σ τ × Turn ι)}
    (h : Runs (P.system init) c p d) (hC : Meets C p) (hc : A.Holds c) :
    ∀ v ∈ Visited p d, A.Holds v :=
  h.visited_of_meets A.Holds C (fun _ _ _ hI hx hs => hA.step hI hx hs) hC hc

theorem Assertion.Stable.runs {A : Assertion σ τ} {P : Program ι σ τ}
    (hA : A.Stable P (fun _ _ => True)) {init : Pool ι σ τ → Prop}
    {c d : Pool ι σ τ} {p : List (Pool ι σ τ × Turn ι)}
    (h : Runs (P.system init) c p d) (hc : A.Holds c) : A.Holds d :=
  h.invariant A.Holds (fun _ _ _ hI hs => hA.step hI trivial hs) hc

inductive Alone (step : σ → τ → Option (σ × τ)) : σ → τ → σ → τ → Prop where
  | refl (s : σ) (t : τ) : Alone step s t s t
  | next {s s' s'' : σ} {t t' t'' : τ} (h : step s t = some (s', t'))
      (tail : Alone step s' t' s'' t'') : Alone step s t s'' t''

theorem Alone.trans {step : σ → τ → Option (σ × τ)} {s s' s'' : σ} {t t' t'' : τ}
    (h : Alone step s t s' t') (h' : Alone step s' t' s'' t'') : Alone step s t s'' t'' := by
  induction h with
  | refl => exact h'
  | next hs _ ih => exact .next hs (ih h')

/-- Who moves next: a thread, or the environment in a given way. -/
inductive Move (ι σ : Type) where
  | run (i : ι)
  | env (f : σ → σ)

def play (step : ι → σ → τ → Option (σ × τ)) : List (Move ι σ) → Pool ι σ τ → Option (Pool ι σ τ)
  | [], c => some c
  | .run i :: moves, c =>
    match step i c.shared (c.thread i) with
    | none => none
    | some (s, t) => play step moves ⟨s, Function.update c.thread i t⟩
  | .env f :: moves, c => play step moves ⟨f c.shared, c.thread⟩

theorem play_runs {P : Program ι σ τ} {init : Pool ι σ τ → Prop}
    {step : ι → σ → τ → Option (σ × τ)}
    (hstep : ∀ i s t s' t', step i s t = some (s', t') → P.step i s t s' t')
    {moves : List (Move ι σ)} (henv : ∀ f, .env f ∈ moves → ∀ s, P.env s (f s))
    {c d : Pool ι σ τ} (h : play step moves c = some d) :
    ∃ p, Runs (P.system init) c p d := by
  induction moves generalizing c with
  | nil =>
    cases h
    exact ⟨[], .refl _⟩
  | cons m moves ih =>
    have hrest : ∀ f, .env f ∈ moves → ∀ s, P.env s (f s) := fun f hf => henv f (by simp [hf])
    cases m with
    | run i =>
      simp only [play] at h
      split at h
      · cases h
      · rename_i s t hs
        obtain ⟨p, hp⟩ := ih hrest h
        exact ⟨_, (Runs.single (PoolStep.run i (hstep _ _ _ _ _ hs))).trans hp⟩
    | env f =>
      obtain ⟨p, hp⟩ := ih hrest h
      exact ⟨_, (Runs.single (PoolStep.env (henv f (by simp) _))).trans hp⟩

/-- The same schedule, given up as soon as a step misses a condition. -/
def playMeeting (C : Pool ι σ τ → Turn ι → Prop) [∀ c l, Decidable (C c l)]
    (step : ι → σ → τ → Option (σ × τ)) : List (Move ι σ) → Pool ι σ τ → Option (Pool ι σ τ)
  | [], c => some c
  | .run i :: moves, c =>
    if C c (.run i) then
      match step i c.shared (c.thread i) with
      | none => none
      | some (s, t) => playMeeting C step moves ⟨s, Function.update c.thread i t⟩
    else none
  | .env f :: moves, c =>
    if C c .env then playMeeting C step moves ⟨f c.shared, c.thread⟩ else none

theorem playMeeting_runs {P : Program ι σ τ} {init : Pool ι σ τ → Prop}
    {C : Pool ι σ τ → Turn ι → Prop} [∀ c l, Decidable (C c l)] {step : ι → σ → τ → Option (σ × τ)}
    (hstep : ∀ i s t s' t', step i s t = some (s', t') → P.step i s t s' t')
    {moves : List (Move ι σ)} (henv : ∀ f, .env f ∈ moves → ∀ s, P.env s (f s))
    {c d : Pool ι σ τ} (h : playMeeting C step moves c = some d) :
    ∃ p, Runs (P.system init) c p d ∧ Meets C p := by
  induction moves generalizing c with
  | nil =>
    cases h
    exact ⟨[], .refl _, meets_nil _⟩
  | cons m moves ih =>
    have hrest : ∀ f, .env f ∈ moves → ∀ s, P.env s (f s) := fun f hf => henv f (by simp [hf])
    cases m with
    | run i =>
      simp only [playMeeting] at h
      split_ifs at h with hC
      split at h
      · cases h
      · rename_i s t hs
        obtain ⟨p, hp, hmeets⟩ := ih hrest h
        refine ⟨_, (Runs.single (PoolStep.run i (hstep _ _ _ _ _ hs))).trans hp, ?_⟩
        exact meets_append.2 ⟨hmeets, meets_cons.2 ⟨hC, meets_nil _⟩⟩
    | env f =>
      simp only [playMeeting] at h
      split_ifs at h with hC
      obtain ⟨p, hp, hmeets⟩ := ih hrest h
      refine ⟨_, (Runs.single (PoolStep.env (henv f (by simp) _))).trans hp, ?_⟩
      exact meets_append.2 ⟨hmeets, meets_cons.2 ⟨hC, meets_nil _⟩⟩

end AuthService.ThreadPools
