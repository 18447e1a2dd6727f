import AuthService.LabelledRuns

set_option autoImplicit false

/-! Forward simulation: the runs of one system as runs of another. -/
namespace AuthService.RunSimulations
open LabelledRuns

variable {σ τ ℓ m : Type}

/-- A step is a step of the other system, or it cannot be seen there. -/
def Matches (T : System τ m) (R : τ → Prop) (t : τ) : Option m → Prop
  | none => R t
  | some l => ∃ u, T.step t l u ∧ R u

/-- If every step is matched, every run is. The relation may look at the history, and the steps
need to be matched only as long as the history meets a condition. -/
theorem Runs.simulates {S : System σ ℓ} {T : System τ m} (R : List (σ × ℓ) → σ → τ → Prop)
    (visible : σ × ℓ → Option m) (C : List (σ × ℓ) → Prop) (hC : ∀ x p, C (x :: p) → C p)
    (hstep : ∀ p s l u t, C ((s, l) :: p) → R p s t → S.step s l u →
      Matches T (R ((s, l) :: p) u) t (visible (s, l)))
    {s u : σ} {p : List (σ × ℓ)} (h : Runs S s p u) (hp : C p) {t : τ} (ht : R [] s t) :
    ∃ q v, Runs T t q v ∧ q.map Prod.snd = p.filterMap visible ∧ R p u v := by
  induction h with
  | refl => exact ⟨[], t, .refl t, rfl, ht⟩
  | @next w u p l front hs ih =>
    obtain ⟨q, v, hq, hlabels, hR⟩ := ih (hC _ _ hp)
    have hmatch := hstep p w l u v hp hR hs
    cases hl : visible (w, l) with
    | none =>
      rw [hl] at hmatch
      refine ⟨q, v, hq, ?_, hmatch⟩
      simp only [List.filterMap_cons, hl, hlabels]
    | some l' =>
      rw [hl] at hmatch
      obtain ⟨v', hstep', hR'⟩ := hmatch
      refine ⟨_, v', .next hq hstep', ?_, hR'⟩
      simp only [List.filterMap_cons, hl, List.map_cons, hlabels]

end AuthService.RunSimulations
