import Mathlib.Logic.Basic
import Mathlib.Data.Nat.Notation

set_option autoImplicit false

/-! Computations that change a state and may raise. Raising keeps the state
reached so far: effects on the outside world are not undone. -/
namespace AuthService.FallibleState

def Fallible (σ ε α : Type) := σ → Except ε α × σ

variable {σ ε α β : Type}

namespace Fallible

def raise (e : ε) : Fallible σ ε α := fun s => (.error e, s)

def andThen (m : Fallible σ ε α) (f : α → Fallible σ ε β) : Fallible σ ε β := fun s =>
  match m s with
  | (.ok a, s') => f a s'
  | (.error e, s') => (.error e, s')

/-- `try: m except: h`. -/
def handle (m : Fallible σ ε α) (h : ε → Fallible σ ε α) : Fallible σ ε α := fun s =>
  match m s with
  | (.ok a, s') => (.ok a, s')
  | (.error e, s') => h e s'

def get : Fallible σ ε σ := fun s => (.ok s, s)

def update (f : σ → σ) : Fallible σ ε Unit := fun s => (.ok (), f s)

def ofExcept (x : Except ε α) : Fallible σ ε α := fun s => (x, s)

instance : Monad (Fallible σ ε) where
  pure a := fun s => (.ok a, s)
  bind := andThen

@[simp] theorem pure_run (a : α) (s : σ) : (pure a : Fallible σ ε α) s = (.ok a, s) := rfl

@[simp] theorem raise_run (e : ε) (s : σ) : (raise e : Fallible σ ε α) s = (.error e, s) := rfl

@[simp] theorem get_run (s : σ) : (get : Fallible σ ε σ) s = (.ok s, s) := rfl

@[simp] theorem update_run (f : σ → σ) (s : σ) :
    (update f : Fallible σ ε Unit) s = (.ok (), f s) := rfl

@[simp] theorem ofExcept_run (x : Except ε α) (s : σ) :
    (ofExcept x : Fallible σ ε α) s = (x, s) := rfl

theorem bind_ok {m : Fallible σ ε α} {f : α → Fallible σ ε β} {s s' : σ} {a : α}
    (h : m s = (.ok a, s')) : (m >>= f) s = f a s' := by
  change andThen m f s = _
  simp only [andThen, h]

theorem bind_error {m : Fallible σ ε α} {f : α → Fallible σ ε β} {s s' : σ} {e : ε}
    (h : m s = (.error e, s')) : (m >>= f) s = (.error e, s') := by
  change andThen m f s = _
  simp only [andThen, h]

theorem bind_run (m : Fallible σ ε α) (f : α → Fallible σ ε β) (s : σ) :
    (m >>= f) s = match m s with
      | (.ok a, s') => f a s'
      | (.error e, s') => (.error e, s') := rfl

theorem bind_eq_ok {m : Fallible σ ε α} {f : α → Fallible σ ε β} {s s' : σ} {b : β}
    (h : (m >>= f) s = (.ok b, s')) : ∃ a t, m s = (.ok a, t) ∧ f a t = (.ok b, s') := by
  cases hm : m s with
  | mk x t =>
    cases x with
    | ok a => exact ⟨a, t, rfl, (bind_ok hm).symm.trans h⟩
    | error e =>
      rw [bind_error hm] at h
      simp at h

theorem handle_ok {m : Fallible σ ε α} {h : ε → Fallible σ ε α} {s s' : σ} {a : α}
    (hm : m s = (.ok a, s')) : handle m h s = (.ok a, s') := by
  simp only [handle, hm]

theorem handle_error {m : Fallible σ ε α} {h : ε → Fallible σ ε α} {s s' : σ} {e : ε}
    (hm : m s = (.error e, s')) : handle m h s = h e s' := by
  simp only [handle, hm]

theorem bind_pure_eq_error {m : Fallible σ ε α} {f : α → β} {s s' : σ} {e : ε}
    (h : (m >>= fun a => pure (f a)) s = (.error e, s')) : m s = (.error e, s') := by
  cases hm : m s with
  | mk x t =>
    cases x with
    | ok a => cases (bind_ok hm).symm.trans h
    | error e' =>
      cases (bind_error hm).symm.trans h
      rfl

theorem handle_eq_ok {m : Fallible σ ε α} {h : ε → Fallible σ ε α} {s s' : σ} {a : α}
    (hr : handle m h s = (.ok a, s')) :
    m s = (.ok a, s') ∨ ∃ e t, m s = (.error e, t) ∧ h e t = (.ok a, s') := by
  cases hm : m s with
  | mk x t =>
    cases x with
    | ok b => exact .inl ((handle_ok hm).symm.trans hr)
    | error e => exact .inr ⟨e, t, rfl, (handle_error hm).symm.trans hr⟩

def Keeps (R : σ → σ → Prop) (m : Fallible σ ε α) : Prop := ∀ s, R s (m s).2

section Keeps
variable {R : σ → σ → Prop}

theorem Keeps.pure (hr : ∀ s, R s s) (a : α) : Keeps R (pure a : Fallible σ ε α) :=
  fun s => hr s

theorem Keeps.raise (hr : ∀ s, R s s) (e : ε) : Keeps R (raise e : Fallible σ ε α) :=
  fun s => hr s

theorem Keeps.get (hr : ∀ s, R s s) : Keeps R (get : Fallible σ ε σ) := fun s => hr s

theorem Keeps.ofExcept (hr : ∀ s, R s s) (x : Except ε α) :
    Keeps R (ofExcept x : Fallible σ ε α) :=
  fun s => hr s

theorem Keeps.bind (ht : ∀ s t u, R s t → R t u → R s u) {m : Fallible σ ε α}
    {f : α → Fallible σ ε β} (hm : Keeps R m) (hf : ∀ a, Keeps R (f a)) :
    Keeps R (m >>= f) := by
  intro s
  have h := hm s
  rw [bind_run]
  cases hms : m s with
  | mk r s' =>
    rw [hms] at h
    cases r with
    | error e => exact h
    | ok a => exact ht _ _ _ h (hf a s')

theorem Keeps.handle (ht : ∀ s t u, R s t → R t u → R s u) {m : Fallible σ ε α}
    {f : ε → Fallible σ ε α} (hm : Keeps R m) (hf : ∀ e, Keeps R (f e)) :
    Keeps R (handle m f) := by
  intro s
  have h := hm s
  cases hms : m s with
  | mk r s' =>
    rw [hms] at h
    cases r with
    | ok a => rw [handle_ok hms]; exact h
    | error e => rw [handle_error hms]; exact ht _ _ _ h (hf e s')

end Keeps

/-- Computations that cannot be told apart by their results and by what `V` shows. -/
def Agree {ν : Type} (V : σ → ν) (m m' : Fallible σ ε α) : Prop :=
  ∀ s, (m s).1 = (m' s).1 ∧ V (m s).2 = V (m' s).2

/-- A computation that only depends on what `V` shows. -/
def Blind {ν : Type} (V : σ → ν) (m : Fallible σ ε α) : Prop :=
  ∀ s t, V s = V t → (m s).1 = (m t).1 ∧ V (m s).2 = V (m t).2

section Agree
variable {ν : Type} {V : σ → ν}

theorem Agree.refl (m : Fallible σ ε α) : Agree V m m := fun _ => ⟨rfl, rfl⟩

theorem Blind.pure (a : α) : Blind V (pure a : Fallible σ ε α) := fun _ _ h => ⟨rfl, h⟩

theorem Blind.raise (e : ε) : Blind V (raise e : Fallible σ ε α) := fun _ _ h => ⟨rfl, h⟩

/-- The same computation first, then computations that agree. -/
theorem Agree.after {m : Fallible σ ε α} {f f' : α → Fallible σ ε β} (hf : ∀ a, Agree V (f a) (f' a)) :
    Agree V (m >>= f) (m >>= f') := by
  intro s
  rw [bind_run, bind_run]
  cases m s with
  | mk x t =>
    cases x with
    | ok a => exact hf a t
    | error e => exact ⟨rfl, rfl⟩

theorem Agree.bind {m m' : Fallible σ ε α} {f : α → Fallible σ ε β} (h : Agree V m m')
    (hf : ∀ a, Blind V (f a)) : Agree V (m >>= f) (m' >>= f) := by
  intro s
  obtain ⟨h1, h2⟩ := h s
  rw [bind_run, bind_run]
  cases hm : m s with
  | mk x t =>
    cases hm' : m' s with
    | mk x' t' =>
      rw [hm, hm'] at h1 h2
      simp only at h1 h2
      subst h1
      cases x with
      | ok a => exact hf a t t' h2
      | error e => exact ⟨rfl, h2⟩

theorem Agree.handle {m m' : Fallible σ ε α} {f : ε → Fallible σ ε α} (h : Agree V m m')
    (hf : ∀ e, Blind V (f e)) : Agree V (handle m f) (handle m' f) := by
  intro s
  obtain ⟨h1, h2⟩ := h s
  cases hm : m s with
  | mk x t =>
    cases hm' : m' s with
    | mk x' t' =>
      rw [hm, hm'] at h1 h2
      simp only at h1 h2
      subst h1
      cases x with
      | ok a =>
        rw [handle_ok hm, handle_ok hm']
        exact ⟨rfl, h2⟩
      | error e =>
        rw [handle_error hm, handle_error hm']
        exact hf e t t' h2

end Agree

end Fallible

end AuthService.FallibleState
