import Mathlib.Data.Nat.Notation
import Mathlib.Logic.Function.Basic

set_option autoImplicit false

/-! Key-value maps whose entries may carry a deadline. A key vanishes at the very
instant of its deadline, so an entry that is present is live. -/
namespace AuthService.ExpiringMaps

structure Entry (β : Type) where
  value : β
  deadline : Option ℕ
  deriving DecidableEq, Repr

def Entry.aliveAt {β : Type} (e : Entry β) (now : ℕ) : Bool :=
  match e.deadline with
  | none => true
  | some d => decide (now < d)

abbrev ExpiringMap (κ β : Type) := κ → Option (Entry β)

namespace ExpiringMap
variable {κ β : Type}

def empty : ExpiringMap κ β := fun _ => none

def value (m : ExpiringMap κ β) (k : κ) : Option β := (m k).map Entry.value

/-- The entries left once the clock shows `now`. -/
def purge (now : ℕ) (m : ExpiringMap κ β) : ExpiringMap κ β :=
  fun k => (m k).filter (fun e => e.aliveAt now)

@[simp] theorem value_eq_none {m : ExpiringMap κ β} {k : κ} : m.value k = none ↔ m k = none := by
  simp [value]

theorem value_of_entry {m : ExpiringMap κ β} {k : κ} {e : Entry β} (h : m k = some e) :
    m.value k = some e.value := by
  simp [value, h]

theorem purge_eq_some {m : ExpiringMap κ β} {now : ℕ} {k : κ} {e : Entry β} :
    m.purge now k = some e ↔ m k = some e ∧ e.aliveAt now = true := by
  simp [purge, Option.filter_eq_some_iff]

theorem purge_le {m : ExpiringMap κ β} {now : ℕ} {k : κ} {e : Entry β}
    (h : m.purge now k = some e) : m k = some e :=
  (purge_eq_some.1 h).1

theorem purge_eq_none_of_none {m : ExpiringMap κ β} {now : ℕ} {k : κ} (h : m k = none) :
    m.purge now k = none := by
  simp [purge, h]

open scoped Classical in
noncomputable def hide (P : κ → Prop) (m : ExpiringMap κ β) : ExpiringMap κ β :=
  fun k => if P k then none else m k

section Hide
variable {P : κ → Prop} {k : κ}

theorem hide_of_not (h : ¬ P k) (m : ExpiringMap κ β) : m.hide P k = m k := if_neg h

theorem hide_of (h : P k) (m : ExpiringMap κ β) : m.hide P k = none := if_pos h

theorem hide_eq_some {m : ExpiringMap κ β} {e : Entry β} :
    m.hide P k = some e ↔ ¬ P k ∧ m k = some e := by
  by_cases h : P k
  · simp [hide_of h, h]
  · simp [hide_of_not h, h]

theorem hide_empty : (empty : ExpiringMap κ β).hide P = empty := by
  funext k
  simp [hide, empty]

theorem hide_value (h : ¬ P k) (m : ExpiringMap κ β) : (m.hide P).value k = m.value k := by
  rw [value, hide_of_not h, value]

theorem hide_purge (now : ℕ) (m : ExpiringMap κ β) : (m.purge now).hide P = (m.hide P).purge now := by
  funext k
  by_cases h : P k
  · rw [hide_of h, purge_eq_none_of_none (hide_of h m)]
  · rw [hide_of_not h, purge, purge, hide_of_not h]

end Hide

variable [DecidableEq κ]

section Hide
variable {P : κ → Prop} {k : κ} (x : Option (Entry β)) (m : ExpiringMap κ β)

theorem hide_update_of (h : P k) : hide P (Function.update m k x : ExpiringMap κ β) = m.hide P := by
  funext j
  by_cases hj : P j
  · rw [hide_of hj, hide_of hj]
  · have hne : j ≠ k := fun he => hj (he ▸ h)
    rw [hide_of_not hj, hide_of_not hj, Function.update_of_ne hne]

theorem hide_update (h : ¬ P k) :
    hide P (Function.update m k x : ExpiringMap κ β) = Function.update (m.hide P) k x := by
  funext j
  by_cases hj : j = k
  · subst hj
    rw [hide_of_not h, Function.update_self, Function.update_self]
  · rw [Function.update_of_ne hj]
    by_cases hP : P j
    · rw [hide_of hP, hide_of hP]
    · rw [hide_of_not hP, hide_of_not hP, Function.update_of_ne hj]

end Hide

def put (k : κ) (v : β) (deadline : ℕ) (m : ExpiringMap κ β) : ExpiringMap κ β :=
  Function.update m k (some ⟨v, some deadline⟩)

def remove (k : κ) (m : ExpiringMap κ β) : ExpiringMap κ β := Function.update m k none

/-- Changing a value in place keeps its deadline; a new entry has none. -/
def modify (k : κ) (f : Option β → β) (m : ExpiringMap κ β) : ExpiringMap κ β :=
  Function.update m k (some ⟨f (m.value k), (m k).bind Entry.deadline⟩)

def expire (k : κ) (deadline : ℕ) (m : ExpiringMap κ β) : ExpiringMap κ β :=
  Function.update m k ((m k).map (fun e => ⟨e.value, some deadline⟩))

theorem put_apply (k j : κ) (v : β) (d : ℕ) (m : ExpiringMap κ β) :
    m.put k v d j = if j = k then some ⟨v, some d⟩ else m j := by
  simp [put, Function.update_apply]

theorem remove_apply (k j : κ) (m : ExpiringMap κ β) :
    m.remove k j = if j = k then none else m j := by
  simp [remove, Function.update_apply]

theorem modify_apply (k j : κ) (f : Option β → β) (m : ExpiringMap κ β) :
    m.modify k f j =
      if j = k then some ⟨f (m.value k), (m k).bind Entry.deadline⟩ else m j := by
  simp [modify, Function.update_apply]

theorem expire_apply (k j : κ) (d : ℕ) (m : ExpiringMap κ β) :
    m.expire k d j = if j = k then (m k).map (fun e => ⟨e.value, some d⟩) else m j := by
  simp [expire, Function.update_apply]

theorem modify_expire_apply (k j : κ) (f : Option β → β) (d : ℕ) (m : ExpiringMap κ β) :
    (m.modify k f).expire k d j = if j = k then some ⟨f (m.value k), some d⟩ else m j := by
  by_cases h : j = k
  · subst h; simp [expire_apply, modify_apply]
  · simp [expire_apply, modify_apply, h]

section Hide
variable {P : κ → Prop} {k : κ} {m : ExpiringMap κ β}

theorem hide_remove (k : κ) (m : ExpiringMap κ β) : (m.remove k).hide P = (m.hide P).remove k := by
  by_cases h : P k
  · have hnone : m.hide P k = none := hide_of h m
    rw [remove, hide_update_of _ _ h, remove, ← hnone, Function.update_eq_self]
  · rw [remove, hide_update _ _ h, remove]

theorem hide_put {v : β} {d : ℕ} (h : ¬ P k) : (m.put k v d).hide P = (m.hide P).put k v d := by
  rw [put, hide_update _ _ h, put]

theorem hide_modify {f : Option β → β} (h : ¬ P k) :
    (m.modify k f).hide P = (m.hide P).modify k f := by
  rw [modify, hide_update _ _ h, modify, hide_value h, hide_of_not h]

theorem hide_expire {d : ℕ} (h : ¬ P k) : (m.expire k d).hide P = (m.hide P).expire k d := by
  rw [expire, hide_update _ _ h, expire, hide_of_not h]

end Hide

end ExpiringMap

theorem Entry.aliveAt_some {β : Type} {v : β} {d now : ℕ} :
    (⟨v, some d⟩ : Entry β).aliveAt now = true ↔ now < d := by
  simp [Entry.aliveAt]

end AuthService.ExpiringMaps
