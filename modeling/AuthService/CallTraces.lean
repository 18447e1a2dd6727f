import AuthService.FallibleState

set_option autoImplicit false

/-! Computations that also write down the calls they make, and what is left of them when the
record is erased. -/
namespace AuthService.FallibleState

variable {σ κ ε α β : Type}

namespace Fallible

def lift (m : Fallible σ ε α) : Fallible (σ × List κ) ε α := fun s => ((m s.1).1, (m s.1).2, s.2)

def note (k : κ) : Fallible (σ × List κ) ε Unit := fun s => (.ok (), s.1, s.2 ++ [k])

@[simp] theorem note_run (k : κ) (s : σ) (calls : List κ) :
    (note k : Fallible (σ × List κ) ε Unit) (s, calls) = (.ok (), s, calls ++ [k]) := rfl

theorem lift_run {m : Fallible σ ε α} {s s' : σ} {x : Except ε α} (calls : List κ)
    (h : m s = (x, s')) : lift m (s, calls) = (x, s', calls) := by
  simp only [lift, h]

/-- Without its record, the first computation is the second. -/
def Erases (m : Fallible (σ × List κ) ε α) (m' : Fallible σ ε α) : Prop :=
  ∀ s calls, (m (s, calls)).1 = (m' s).1 ∧ (m (s, calls)).2.1 = (m' s).2

theorem Erases.lift (m : Fallible σ ε α) : Erases (lift m : Fallible (σ × List κ) ε α) m :=
  fun _ _ => ⟨rfl, rfl⟩

theorem Erases.note {k : κ} {m : Fallible (σ × List κ) ε α} {m' : Fallible σ ε α} (h : Erases m m') :
    Erases (note k >>= fun _ => m) m' :=
  fun s calls => h s (calls ++ [k])

theorem Erases.bind {m : Fallible (σ × List κ) ε α} {m' : Fallible σ ε α}
    {f : α → Fallible (σ × List κ) ε β} {f' : α → Fallible σ ε β} (h : Erases m m')
    (hf : ∀ a, Erases (f a) (f' a)) : Erases (m >>= f) (m' >>= f') := by
  intro s calls
  obtain ⟨h1, h2⟩ := h s calls
  rw [bind_run, bind_run]
  cases hm : m (s, calls) with
  | mk x t =>
    cases hm' : m' s with
    | mk x' t' =>
      rw [hm, hm'] at h1 h2
      simp only at h1 h2
      subst h1 h2
      cases x with
      | ok a => exact hf a t.1 t.2
      | error e => exact ⟨rfl, rfl⟩

end Fallible

end AuthService.FallibleState
