import AuthService.FallibleState

set_option autoImplicit false

/-! Pre- and postconditions of computations that may raise; the state in which an exception
leaves a computation has an assertion of its own. -/
namespace AuthService.FallibleTriples
open FallibleState Fallible

variable {σ ε α β : Type}

/-- Run where `P` holds, the computation returns with `Q` or raises with `E`. -/
structure Triple (P : σ → Prop) (m : Fallible σ ε α) (Q : α → σ → Prop) (E : ε → σ → Prop) : Prop where
  run : ∀ s, P s → match m s with
    | (.ok a, s') => Q a s'
    | (.error e, s') => E e s'

variable {P P' : σ → Prop} {Q Q' : α → σ → Prop} {E E' : ε → σ → Prop} {m : Fallible σ ε α}

theorem Triple.ok (h : Triple P m Q E) {s s' : σ} {a : α} (hs : P s) (hm : m s = (.ok a, s')) :
    Q a s' := by
  have hq := h.run s hs
  rw [hm] at hq
  exact hq

theorem Triple.error (h : Triple P m Q E) {s s' : σ} {e : ε} (hs : P s) (hm : m s = (.error e, s')) :
    E e s' := by
  have hq := h.run s hs
  rw [hm] at hq
  exact hq

theorem Triple.intro (h : ∀ s a s', P s → m s = (.ok a, s') → Q a s')
    (h' : ∀ s e s', P s → m s = (.error e, s') → E e s') : Triple P m Q E := by
  refine ⟨fun s hs => ?_⟩
  cases hm : m s with
  | mk x s' =>
    cases x with
    | ok a => exact h s a s' hs hm
    | error e => exact h' s e s' hs hm

theorem Triple.consequence (h : Triple P m Q E) (hP : ∀ s, P' s → P s) (hQ : ∀ a s, Q a s → Q' a s)
    (hE : ∀ e s, E e s → E' e s) : Triple P' m Q' E' :=
  .intro (fun s a s' hs hm => hQ a s' (h.ok (hP s hs) hm))
    (fun s e s' hs hm => hE e s' (h.error (hP s hs) hm))

theorem Triple.pre (h : Triple P m Q E) (hP : ∀ s, P' s → P s) : Triple P' m Q E :=
  h.consequence hP (fun _ _ => id) (fun _ _ => id)

theorem Triple.post (h : Triple P m Q E) (hQ : ∀ a s, Q a s → Q' a s) : Triple P m Q' E :=
  h.consequence (fun _ => id) hQ (fun _ _ => id)

theorem Triple.pure (a : α) (h : ∀ s, P s → Q a s) : Triple P (pure a : Fallible σ ε α) Q E :=
  ⟨fun s hs => h s hs⟩

theorem Triple.raise (e : ε) (h : ∀ s, P s → E e s) : Triple P (raise e : Fallible σ ε α) Q E :=
  ⟨fun s hs => h s hs⟩

theorem Triple.bind {f : α → Fallible σ ε β} {R : β → σ → Prop} (hm : Triple P m Q E)
    (hf : ∀ a, Triple (Q a) (f a) R E) : Triple P (m >>= f) R E := by
  refine ⟨fun s hs => ?_⟩
  cases hr : m s with
  | mk x s' =>
    cases x with
    | ok a =>
      rw [bind_ok hr]
      exact (hf a).run s' (hm.ok hs hr)
    | error e =>
      rw [bind_error hr]
      exact hm.error hs hr

theorem Triple.handle {h : ε → Fallible σ ε α} (hm : Triple P m Q E)
    (hh : ∀ e, Triple (E e) (h e) Q E') : Triple P (handle m h) Q E' := by
  refine ⟨fun s hs => ?_⟩
  cases hr : m s with
  | mk x s' =>
    cases x with
    | ok a =>
      rw [handle_ok hr]
      exact hm.ok hs hr
    | error e =>
      rw [handle_error hr]
      exact (hh e).run s' (hm.error hs hr)

theorem Triple.ofExcept {x : Except ε α} (h : ∀ a s, x = .ok a → P s → Q a s)
    (h' : ∀ e s, x = .error e → P s → E e s) : Triple P (ofExcept x : Fallible σ ε α) Q E := by
  refine ⟨fun s hs => ?_⟩
  cases x with
  | ok a => exact h a s rfl hs
  | error e => exact h' e s rfl hs

theorem Triple.trivial : Triple P m (fun _ _ => True) (fun _ _ => True) :=
  .intro (fun _ _ _ _ _ => True.intro) (fun _ _ _ _ _ => True.intro)

theorem Triple.and {P' : σ → Prop} {Q' : α → σ → Prop} {E' : ε → σ → Prop} (h : Triple P m Q E)
    (h' : Triple P' m Q' E') :
    Triple (fun s => P s ∧ P' s) m (fun a s => Q a s ∧ Q' a s) (fun e s => E e s ∧ E' e s) :=
  .intro (fun _ _ _ hs hr => ⟨h.ok hs.1 hr, h'.ok hs.2 hr⟩)
    (fun _ _ _ hs hr => ⟨h.error hs.1 hr, h'.error hs.2 hr⟩)

/-- A fact that does not speak about the state comes out of the precondition. -/
theorem Triple.of_fact {p : Prop} (h : p → Triple P m Q E) : Triple (fun s => p ∧ P s) m Q E :=
  ⟨fun s hs => (h hs.1).run s hs.2⟩

end AuthService.FallibleTriples
