import Mathlib.Data.List.Basic

set_option autoImplicit false

/-!
# Labelled transition systems and their finite runs

A run remembers, newest first, every state it left together with the label of
the step that left it. Histories, visited states and conditions on single steps
are all read off that path.
-/
namespace AuthService.LabelledRuns

structure System (σ ℓ : Type) where
  init : σ → Prop
  step : σ → ℓ → σ → Prop

variable {σ ℓ : Type}

inductive Runs (S : System σ ℓ) : σ → List (σ × ℓ) → σ → Prop where
  | refl (s : σ) : Runs S s [] s
  | next {s t u : σ} {p : List (σ × ℓ)} {l : ℓ} (front : Runs S s p t) (h : S.step t l u) :
      Runs S s ((t, l) :: p) u

def Reachable (S : System σ ℓ) (u : σ) : Prop := ∃ s p, S.init s ∧ Runs S s p u

/-- The steps of a path all meet a condition on the state before and the label. -/
def Meets (C : σ → ℓ → Prop) (p : List (σ × ℓ)) : Prop := ∀ x ∈ p, C x.1 x.2

def Visited (p : List (σ × ℓ)) (u : σ) : List σ := u :: p.map Prod.fst

theorem meets_cons {C : σ → ℓ → Prop} {x : σ × ℓ} {p : List (σ × ℓ)} :
    Meets C (x :: p) ↔ C x.1 x.2 ∧ Meets C p := by
  simp [Meets]

theorem meets_nil (C : σ → ℓ → Prop) : Meets C ([] : List (σ × ℓ)) := by
  simp [Meets]

theorem meets_append {C : σ → ℓ → Prop} {p q : List (σ × ℓ)} :
    Meets C (p ++ q) ↔ Meets C p ∧ Meets C q := by
  simp only [Meets, List.mem_append, or_imp, forall_and]

theorem Runs.trans {S : System σ ℓ} {s t u : σ} {p q : List (σ × ℓ)}
    (h : Runs S s p t) (h' : Runs S t q u) : Runs S s (q ++ p) u := by
  induction h' with
  | refl => exact h
  | next _ hs ih => exact .next ih hs

theorem Runs.single {S : System σ ℓ} {s u : σ} {l : ℓ} (h : S.step s l u) :
    Runs S s [(s, l)] u :=
  .next (.refl s) h

theorem Runs.split {S : System σ ℓ} {s t u : σ} {newer older : List (σ × ℓ)} {l : ℓ}
    (h : Runs S s (newer ++ (t, l) :: older) u) :
    ∃ v, Runs S s older t ∧ S.step t l v ∧ Runs S v newer u := by
  induction newer generalizing u with
  | nil =>
    cases h with
    | next front hs => exact ⟨u, front, hs, .refl u⟩
  | cons x newer ih =>
    cases h with
    | next front hs =>
      obtain ⟨v, hfront, hstep, hrest⟩ := ih front
      exact ⟨v, hfront, hstep, .next hrest hs⟩

theorem Runs.step_of_mem {S : System σ ℓ} {s u : σ} {p : List (σ × ℓ)} (h : Runs S s p u)
    {x : σ × ℓ} (hx : x ∈ p) : ∃ v ∈ Visited p u, S.step x.1 x.2 v := by
  induction h with
  | refl => simp at hx
  | @next t u p l front hs ih =>
    rcases List.mem_cons.1 hx with rfl | hx
    · exact ⟨u, by simp [Visited], hs⟩
    · obtain ⟨v, hv, hstep⟩ := ih hx
      refine ⟨v, List.mem_cons_of_mem _ ?_, hstep⟩
      simpa [Visited] using hv

theorem Runs.start_mem {S : System σ ℓ} {s u : σ} {p : List (σ × ℓ)} (h : Runs S s p u) :
    s ∈ Visited p u := by
  induction h with
  | refl => simp [Visited]
  | next front hs ih => exact List.mem_cons_of_mem _ (by simpa [Visited] using ih)

theorem Runs.front {S : System σ ℓ} {s u v : σ} {p : List (σ × ℓ)}
    (h : Runs S s p u) (hv : v ∈ Visited p u) :
    ∃ q, Runs S s q v ∧ q <:+ p := by
  induction h with
  | refl =>
    simp only [Visited, List.map_nil, List.mem_singleton] at hv
    subst hv
    exact ⟨[], .refl _, List.suffix_refl _⟩
  | @next t u p l front hs ih =>
    rcases List.mem_cons.1 hv with rfl | hv
    · exact ⟨_, .next front hs, List.suffix_refl _⟩
    · obtain ⟨q, hq, hsub⟩ := ih (by simpa [Visited] using hv)
      exact ⟨q, hq, hsub.trans (List.suffix_cons _ _)⟩

theorem Meets.of_suffix {C : σ → ℓ → Prop} {p q : List (σ × ℓ)} (h : Meets C p)
    (hq : q <:+ p) : Meets C q :=
  fun x hx => h x (hq.subset hx)

/-- What a step keeps, a run keeps. -/
theorem Runs.invariant {S : System σ ℓ} (I : σ → Prop)
    (hstep : ∀ s l u, I s → S.step s l u → I u)
    {s u : σ} {p : List (σ × ℓ)} (h : Runs S s p u) (hs : I s) : I u := by
  induction h with
  | refl => exact hs
  | next _ hl ih => exact hstep _ _ _ ih hl

theorem Runs.invariant_of_meets {S : System σ ℓ} (I : σ → Prop) (C : σ → ℓ → Prop)
    (hstep : ∀ s l u, I s → C s l → S.step s l u → I u)
    {s u : σ} {p : List (σ × ℓ)} (h : Runs S s p u) (hC : Meets C p) (hs : I s) : I u := by
  induction h with
  | refl => exact hs
  | next _ hl ih =>
    obtain ⟨hx, hp⟩ := meets_cons.1 hC
    exact hstep _ _ _ (ih hp) hx hl

theorem Runs.visited_of_meets {S : System σ ℓ} (I : σ → Prop) (C : σ → ℓ → Prop)
    (hstep : ∀ s l u, I s → C s l → S.step s l u → I u)
    {s u : σ} {p : List (σ × ℓ)} (h : Runs S s p u) (hC : Meets C p) (hs : I s) :
    ∀ v ∈ Visited p u, I v := by
  intro v hv
  obtain ⟨q, hq, hsub⟩ := h.front hv
  exact hq.invariant_of_meets I C hstep (hC.of_suffix hsub) hs

theorem Runs.history {S : System σ ℓ} (I : List (σ × ℓ) → σ → Prop)
    (hstep : ∀ p s l u, I p s → S.step s l u → I ((s, l) :: p) u)
    {s u : σ} {p : List (σ × ℓ)} (h : Runs S s p u) (hs : I [] s) : I p u := by
  induction h with
  | refl => exact hs
  | next _ hl ih => exact hstep _ _ _ _ ih hl

theorem Reachable.invariant {S : System σ ℓ} (I : σ → Prop) (hinit : ∀ s, S.init s → I s)
    (hstep : ∀ s l u, I s → S.step s l u → I u) {u : σ} (h : Reachable S u) : I u := by
  obtain ⟨s, p, hs, hr⟩ := h
  exact hr.invariant I hstep (hinit s hs)

/-- Steps that cannot be seen through `f` may be left out: what is left is a run. -/
theorem Runs.erase {S : System σ ℓ} (keep : ℓ → Bool) (f : σ → σ) (I : σ → Prop) (C : σ → ℓ → Prop)
    (hstep : ∀ s l u, I s → C s l → S.step s l u → I u)
    (hsilent : ∀ s l u, I s → C s l → keep l = false → S.step s l u → f u = f s)
    (hvisible : ∀ s l u, I s → C s l → keep l = true → S.step s l u → S.step (f s) l (f u))
    {s u : σ} {p : List (σ × ℓ)} (h : Runs S s p u) (hC : Meets C p) (hs : I s) :
    Runs S (f s) ((p.filter (fun x => keep x.2)).map (fun x => (f x.1, x.2))) (f u) := by
  induction h with
  | refl => exact .refl _
  | @next t u p l front hl ih =>
    obtain ⟨hx, hp⟩ := meets_cons.1 hC
    have ht : I t := front.invariant_of_meets I C hstep hp hs
    cases hk : keep l with
    | false =>
      rw [List.filter_cons_of_neg (by simp [hk]), hsilent t l u ht hx hk hl]
      exact ih hp
    | true =>
      rw [List.filter_cons_of_pos (by simp [hk])]
      exact .next (ih hp) (hvisible t l u ht hx hk hl)

/-- Something on the path satisfies `A`, and everything after it satisfies `B`. -/
def Since {α : Type} (A B : α → Prop) (p : List α) : Prop :=
  ∃ newer x older, p = newer ++ x :: older ∧ A x ∧ ∀ y ∈ newer, B y

section Since
variable {α : Type} {A B A' B' : α → Prop} {x : α} {p : List α}

theorem since_nil : ¬ Since A B [] := by
  rintro ⟨newer, x, older, h, -⟩
  simp at h

theorem since_cons : Since A B (x :: p) ↔ A x ∨ (B x ∧ Since A B p) := by
  constructor
  · rintro ⟨newer, y, older, h, hA, hB⟩
    cases newer with
    | nil =>
      simp only [List.nil_append, List.cons.injEq] at h
      exact .inl (h.1 ▸ hA)
    | cons z newer =>
      simp only [List.cons_append, List.cons.injEq] at h
      obtain ⟨rfl, rfl⟩ := h
      exact .inr ⟨hB x (by simp), newer, y, older, rfl, hA, fun w hw => hB w (by simp [hw])⟩
  · rintro (hA | ⟨hB, newer, y, older, rfl, hA, hn⟩)
    · exact ⟨[], x, p, rfl, hA, by simp⟩
    · refine ⟨x :: newer, y, older, rfl, hA, ?_⟩
      intro w hw
      rcases List.mem_cons.1 hw with rfl | hw
      · exact hB
      · exact hn w hw

theorem Since.mem (h : Since A B p) : ∃ x ∈ p, A x := by
  obtain ⟨newer, x, older, rfl, hA, -⟩ := h
  exact ⟨x, by simp, hA⟩

/-- The witness of `A` may be described in other words, with what holds along the path. -/
theorem Since.imp (h : Since A B p) (hA : ∀ x ∈ p, A x → A' x) (hB : ∀ x ∈ p, B x → B' x) :
    Since A' B' p := by
  obtain ⟨newer, x, older, rfl, hx, hn⟩ := h
  exact ⟨newer, x, older, rfl, hA x (by simp) hx, fun y hy => hB y (by simp [hy]) (hn y hy)⟩

end Since

end AuthService.LabelledRuns
