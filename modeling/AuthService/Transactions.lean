import Mathlib.Logic.Function.Basic
import Mathlib.Data.List.Basic

set_option autoImplicit false

/-! A database session over tables `T` changed by statements `W`. The session sees
its own flushed statements; others see them from the commit on. -/
namespace AuthService.Transactions

variable {T W : Type}

def replay (apply : W → T → T) (log : List W) (t : T) : T := log.foldl (fun t w => apply w t) t

structure Session (T W : Type) where
  committed : T
  flushed : List W
  aborted : Bool

namespace Session
variable (apply : W → T → T)

def view (s : Session T W) : T := replay apply s.flushed s.committed

def flush (ws : List W) (s : Session T W) : Session T W := { s with flushed := s.flushed ++ ws }

def rollback (s : Session T W) : Session T W := { s with flushed := [], aborted := true }

/-- Leaving the transaction normally commits what was flushed, unless it was rolled back. -/
def commit (s : Session T W) : Session T W :=
  ⟨if s.aborted then s.committed else s.view apply, [], false⟩

/-- Leaving the transaction by an exception. -/
def discard (s : Session T W) : Session T W := ⟨s.committed, [], false⟩

def Fresh (s : Session T W) : Prop := s.flushed = [] ∧ s.aborted = false

@[simp] theorem replay_nil (t : T) : replay apply [] t = t := rfl

@[simp] theorem replay_cons (w : W) (ws : List W) (t : T) :
    replay apply (w :: ws) t = replay apply ws (apply w t) := rfl

theorem replay_append (ws vs : List W) (t : T) :
    replay apply (ws ++ vs) t = replay apply vs (replay apply ws t) := by
  simp [replay, List.foldl_append]

@[simp] theorem view_flush (ws : List W) (s : Session T W) :
    (s.flush ws).view apply = replay apply ws (s.view apply) := by
  simp only [view, flush, replay_append]

@[simp] theorem flush_aborted (ws : List W) (s : Session T W) :
    (s.flush ws).aborted = s.aborted := rfl

@[simp] theorem flush_committed (ws : List W) (s : Session T W) :
    (s.flush ws).committed = s.committed := rfl

@[simp] theorem rollback_committed (s : Session T W) : s.rollback.committed = s.committed := rfl
@[simp] theorem rollback_aborted (s : Session T W) : s.rollback.aborted = true := rfl

theorem commit_fresh (s : Session T W) : (s.commit apply).Fresh := ⟨rfl, rfl⟩

theorem commit_committed (s : Session T W) (h : s.aborted = false) :
    (s.commit apply).committed = s.view apply := by
  simp [commit, h]

@[simp] theorem commit_rollback (s : Session T W) :
    (s.rollback.commit apply).committed = s.committed := rfl

theorem view_fresh {s : Session T W} (h : s.Fresh) : s.view apply = s.committed := by
  rw [view, h.1, replay_nil]

/-- A session that only flushed statements of a kind, or was rolled back on the way. -/
def Extends (P : W → Prop) (s s' : Session T W) : Prop :=
  s'.committed = s.committed ∧
    (s'.aborted = true ∨
      (s'.aborted = s.aborted ∧ ∃ ws, (∀ w ∈ ws, P w) ∧ s'.flushed = s.flushed ++ ws))

theorem Extends.refl (P : W → Prop) (s : Session T W) : Extends P s s :=
  ⟨rfl, .inr ⟨rfl, [], by simp, by simp⟩⟩

theorem Extends.trans {P : W → Prop} {s s' s'' : Session T W} (h : Extends P s s')
    (h' : Extends P s' s'') : Extends P s s'' := by
  refine ⟨h'.1.trans h.1, ?_⟩
  rcases h'.2 with ha' | ⟨ha', ws', hp', hf'⟩
  · exact .inl ha'
  · rcases h.2 with ha | ⟨ha, ws, hp, hf⟩
    · exact .inl (ha'.trans ha)
    · refine .inr ⟨ha'.trans ha, ws ++ ws', ?_, by rw [hf', hf, List.append_assoc]⟩
      intro w hw
      rcases List.mem_append.1 hw with hw | hw
      · exact hp w hw
      · exact hp' w hw

theorem Extends.rollback (P : W → Prop) (s : Session T W) : Extends P s s.rollback :=
  ⟨rfl, .inl rfl⟩

theorem Extends.flush {P : W → Prop} {w : W} (hw : P w) (s : Session T W) :
    Extends P s (s.flush [w]) :=
  ⟨rfl, .inr ⟨rfl, [w], by simpa using hw, rfl⟩⟩

theorem Extends.after_commit {P : W → Prop} {Q : T → T → Prop} (hrefl : ∀ t, Q t t)
    (htrans : ∀ t t' t'', Q t t' → Q t' t'' → Q t t'') (happ : ∀ w t, P w → Q (apply w t) t)
    {s s' : Session T W} (hs : s.Fresh) (h : Extends P s s') :
    Q (s'.commit apply).committed s.committed := by
  have hreplay : ∀ (ws : List W) (t : T), (∀ w ∈ ws, P w) → Q (replay apply ws t) t := by
    intro ws
    induction ws with
    | nil => intro t _; exact hrefl t
    | cons w ws ih =>
      intro t hp
      exact htrans _ _ _ (ih (apply w t) (fun v hv => hp v (by simp [hv]))) (happ w t (hp w (by simp)))
  obtain ⟨hc, ha | ⟨ha, ws, hp, hf⟩⟩ := h
  · have hcommit : (s'.commit apply).committed = s.committed := by simp [commit, ha, hc]
    rw [hcommit]
    exact hrefl _
  · rw [hs.1, List.nil_append] at hf
    rw [commit_committed apply s' (ha.trans hs.2), view, hf, hc]
    exact hreplay ws _ hp

theorem commit_of_fresh {s : Session T W} (h : s.Fresh) : s.commit apply = s := by
  obtain ⟨c, f, a⟩ := s
  obtain ⟨h1, h2⟩ := h
  simp only at h1 h2
  subst h1 h2
  rfl

end Session

/-!
## Row locks

A statement that changes a row waits until no other transaction holds its lock.
-/

abbrev Locks (ρ ι : Type) := ρ → Option ι

namespace Locks
variable {ρ ι : Type} [DecidableEq ρ] [DecidableEq ι]

def Free (l : Locks ρ ι) (i : ι) (r : ρ) : Prop := l r = none ∨ l r = some i

instance (l : Locks ρ ι) (i : ι) (r : ρ) : Decidable (l.Free i r) :=
  inferInstanceAs (Decidable (l r = none ∨ l r = some i))

def acquire (i : ι) (r : ρ) (l : Locks ρ ι) : Locks ρ ι := Function.update l r (some i)

def release (i : ι) (l : Locks ρ ι) : Locks ρ ι := fun r => if l r = some i then none else l r

end Locks

end AuthService.Transactions
