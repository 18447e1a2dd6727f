import Mathlib.Data.Nat.Notation
import Mathlib.Data.Option.Basic
import Mathlib.Logic.Function.Basic
import Mathlib.Tactic.SplitIfs

set_option autoImplicit false

/-! What a session store is for: every live session has one owner, one access
credential and one renewal credential, each with an instant at which it ends. A key
family mirrors the ledger when it holds exactly the entries the ledger calls for. -/
namespace AuthService.CredentialLedgers

structure Ticket (υ κ : Type) where
  owner : υ
  access : κ
  renewal : κ
  accessUntil : ℕ
  validUntil : ℕ

abbrev Ledger (ι υ κ : Type) := ι → Option (Ticket υ κ)

namespace Ledger
variable {ι υ κ ε : Type}

def empty : Ledger ι υ κ := fun _ => none

def issue [DecidableEq ι] (s : ι) (t : Ticket υ κ) (l : Ledger ι υ κ) : Ledger ι υ κ :=
  Function.update l s (some t)

def close [DecidableEq ι] (s : ι) (l : Ledger ι υ κ) : Ledger ι υ κ := Function.update l s none

def closeList [DecidableEq ι] (ids : List ι) (l : Ledger ι υ κ) : Ledger ι υ κ :=
  fun s => if s ∈ ids then none else l s

def closeOwned [DecidableEq υ] (u : υ) (l : Ledger ι υ κ) : Ledger ι υ κ :=
  fun s => (l s).filter (fun t => t.owner ≠ u)

def elapse (now : ℕ) (l : Ledger ι υ κ) : Ledger ι υ κ :=
  fun s => (l s).filter (fun t => now < t.validUntil)

theorem issue_apply [DecidableEq ι] (s s' : ι) (t : Ticket υ κ) (l : Ledger ι υ κ) :
    l.issue s t s' = if s' = s then some t else l s' := by
  simp [issue, Function.update_apply]

theorem close_apply [DecidableEq ι] (s s' : ι) (l : Ledger ι υ κ) :
    l.close s s' = if s' = s then none else l s' := by
  simp [close, Function.update_apply]

theorem close_eq_some [DecidableEq ι] {s s' : ι} {l : Ledger ι υ κ} {t : Ticket υ κ} :
    l.close s s' = some t ↔ s' ≠ s ∧ l s' = some t := by
  rw [close_apply]
  split_ifs with h <;> simp [h]

theorem closeList_nil [DecidableEq ι] (l : Ledger ι υ κ) : l.closeList [] = l := by
  funext s
  simp [closeList]

theorem closeList_cons [DecidableEq ι] (s : ι) (ids : List ι) (l : Ledger ι υ κ) :
    l.closeList (s :: ids) = (l.close s).closeList ids := by
  funext s'
  simp only [closeList, close_apply, List.mem_cons]
  by_cases h : s' = s <;> by_cases h' : s' ∈ ids <;> simp [h, h']

theorem closeOwned_eq_some [DecidableEq υ] {u : υ} {l : Ledger ι υ κ} {s : ι} {t : Ticket υ κ} :
    l.closeOwned u s = some t ↔ l s = some t ∧ t.owner ≠ u := by
  simp [closeOwned, Option.filter_eq_some_iff]

theorem elapse_eq_some {now : ℕ} {l : Ledger ι υ κ} {s : ι} {t : Ticket υ κ} :
    l.elapse now s = some t ↔ l s = some t ∧ now < t.validUntil := by
  simp [elapse, Option.filter_eq_some_iff]

/-- No two live sessions share a credential of the kind. -/
def Separates (col : Ticket υ κ → κ) (l : Ledger ι υ κ) : Prop :=
  ∀ s s' t t', l s = some t → l s' = some t' → col t = col t' → s = s'

theorem separates_empty (col : Ticket υ κ → κ) : Separates col (empty : Ledger ι υ κ) := by
  intro s s' t t' h
  simp [empty] at h

theorem Separates.mono {col : Ticket υ κ → κ} {l l' : Ledger ι υ κ} (h : Separates col l)
    (hle : ∀ s t, l' s = some t → l s = some t) : Separates col l' :=
  fun s s' t t' h1 h2 => h s s' t t' (hle _ _ h1) (hle _ _ h2)

theorem Separates.issue [DecidableEq ι] {col : Ticket υ κ → κ} {l : Ledger ι υ κ}
    (h : Separates col l) {s : ι} {t : Ticket υ κ}
    (hfresh : ∀ s' t', l s' = some t' → col t' ≠ col t) : Separates col (l.issue s t) := by
  intro a b ta tb ha hb hab
  rw [issue_apply] at ha hb
  split_ifs at ha hb with h1 h2 h2
  · rw [h1, h2]
  · rw [Option.some.injEq] at ha
    exact absurd (by rw [← hab, ha]) (hfresh b tb hb)
  · rw [Option.some.injEq] at hb
    exact absurd (by rw [hab, hb]) (hfresh a ta ha)
  · exact h a b ta tb ha hb hab

/-- The family `m` holds the entry of every ticket whose credential is live, and no other. -/
def Mirrors (col : Ticket υ κ → κ) (live : Ticket υ κ → Prop) (entry : ι → Ticket υ κ → ε)
    (m : κ → Option ε) (l : Ledger ι υ κ) : Prop :=
  ∀ k e, m k = some e ↔ ∃ s t, l s = some t ∧ col t = k ∧ live t ∧ e = entry s t

section Mirrors
variable {col : Ticket υ κ → κ} {live : Ticket υ κ → Prop} {entry : ι → Ticket υ κ → ε}
  {m m' : κ → Option ε} {l : Ledger ι υ κ}

theorem mirrors_empty : Mirrors col live entry (fun _ => none) (empty : Ledger ι υ κ) := by
  intro k e
  simp [empty]

theorem Mirrors.issue [DecidableEq ι] [DecidableEq κ] (h : Mirrors col live entry m l)
    (hsep : Separates col l) {s : ι} {t : Ticket υ κ}
    (hm : ∀ k, m' k = if k = col t then some (entry s t)
      else if (l s).map col = some k then none else m k)
    (hlive : live t) (hfresh : ∀ s' t', l s' = some t' → col t' ≠ col t) :
    Mirrors col live entry m' (l.issue s t) := by
  intro k e
  rw [hm]
  constructor
  · intro he
    split_ifs at he with h1 h2
    · exact ⟨s, t, by rw [issue_apply, if_pos rfl], h1.symm, hlive, (Option.some.inj he).symm⟩
    · obtain ⟨s', old, hl, hk, hlv, rfl⟩ := (h k e).1 he
      have hs : s' ≠ s := by
        rintro rfl
        exact h2 (by rw [hl, Option.map_some, hk])
      exact ⟨s', old, by rw [issue_apply, if_neg hs, hl], hk, hlv, rfl⟩
  · rintro ⟨s', old, hl, hk, hlv, rfl⟩
    rw [issue_apply] at hl
    split_ifs at hl with hs
    · rw [Option.some.injEq] at hl
      subst hl
      rw [if_pos hk.symm, hs]
    · have hne : k ≠ col t := hk ▸ hfresh s' old hl
      have hold : (l s).map col ≠ some k := by
        intro hmap
        obtain ⟨old', ho, hk'⟩ := Option.map_eq_some_iff.1 hmap
        exact hs (hsep s' s old old' hl ho (hk.trans hk'.symm))
      rw [if_neg hne, if_neg hold]
      exact (h k _).2 ⟨s', old, hl, hk, hlv, rfl⟩

theorem Mirrors.close [DecidableEq ι] [DecidableEq κ] (h : Mirrors col live entry m l)
    (hsep : Separates col l) {s : ι}
    (hm : ∀ k, m' k = if (l s).map col = some k then none else m k) :
    Mirrors col live entry m' (l.close s) := by
  intro k e
  rw [hm]
  constructor
  · intro he
    split_ifs at he with h1
    obtain ⟨s', old, hl, hk, hlv, rfl⟩ := (h k e).1 he
    have hs : s' ≠ s := by
      rintro rfl
      exact h1 (by rw [hl, Option.map_some, hk])
    exact ⟨s', old, close_eq_some.2 ⟨hs, hl⟩, hk, hlv, rfl⟩
  · rintro ⟨s', old, hl, hk, hlv, rfl⟩
    obtain ⟨hs, hl⟩ := close_eq_some.1 hl
    have hold : (l s).map col ≠ some k := by
      intro hmap
      obtain ⟨old', ho, hk'⟩ := Option.map_eq_some_iff.1 hmap
      exact hs (hsep s' s old old' hl ho (hk.trans hk'.symm))
    rw [if_neg hold]
    exact (h k _).2 ⟨s', old, hl, hk, hlv, rfl⟩

theorem Mirrors.elapse {live' : Ticket υ κ → Prop} (h : Mirrors col live entry m l) {now : ℕ}
    (alive : ε → Prop) (hm : ∀ k e, m' k = some e ↔ m k = some e ∧ alive e)
    (halive : ∀ s t, l s = some t → live t →
      (alive (entry s t) ↔ live' t ∧ now < t.validUntil))
    (hmono : ∀ t, live' t → live t) : Mirrors col live' entry m' (l.elapse now) := by
  intro k e
  rw [hm, h k e]
  constructor
  · rintro ⟨⟨s, t, hl, hk, hlv, rfl⟩, ha⟩
    obtain ⟨hlv', hnow⟩ := (halive s t hl hlv).1 ha
    exact ⟨s, t, elapse_eq_some.2 ⟨hl, hnow⟩, hk, hlv', rfl⟩
  · rintro ⟨s, t, hl, hk, hlv', rfl⟩
    obtain ⟨hl, hnow⟩ := elapse_eq_some.1 hl
    have hlv := hmono t hlv'
    exact ⟨⟨s, t, hl, hk, hlv, rfl⟩, (halive s t hl hlv).2 ⟨hlv', hnow⟩⟩

end Mirrors

end Ledger

end AuthService.CredentialLedgers
