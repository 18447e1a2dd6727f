import Mathlib.Data.List.Basic
import Mathlib.Data.List.Nodup

set_option autoImplicit false

/-! Tables as lists of rows, with the columns that identify a row. -/
namespace AuthService.KeyedRows

variable {α κ ν : Type}

/-- The row whose column `key` holds `k`. -/
def lookup [DecidableEq κ] (key : α → κ) (k : κ) (rows : List α) : Option α :=
  rows.find? (fun r => key r = k)

/-- Change the rows whose column `key` holds `k`. -/
def amend [DecidableEq κ] (key : α → κ) (k : κ) (f : α → α) (rows : List α) : List α :=
  rows.map (fun r => if key r = k then f r else r)

/-- The column identifies the rows. -/
def Keyed (key : α → κ) (rows : List α) : Prop := (rows.map key).Nodup

theorem lookup_some [DecidableEq κ] {key : α → κ} {k : κ} {rows : List α} {r : α}
    (h : lookup key k rows = some r) : r ∈ rows ∧ key r = k :=
  ⟨List.mem_of_find?_eq_some h, by simpa using List.find?_some h⟩

theorem lookup_none [DecidableEq κ] {key : α → κ} {k : κ} {rows : List α} :
    lookup key k rows = none ↔ ∀ r ∈ rows, key r ≠ k := by
  simp [lookup]

theorem Keyed.unique {key : α → κ} {rows : List α} (h : Keyed key rows) {r s : α}
    (hr : r ∈ rows) (hs : s ∈ rows) (hk : key r = key s) : r = s :=
  List.inj_on_of_nodup_map h hr hs hk

theorem Keyed.lookup [DecidableEq κ] {key : α → κ} {rows : List α} (h : Keyed key rows) {r : α}
    (hr : r ∈ rows) :
    lookup key (key r) rows = some r := by
  cases hl : KeyedRows.lookup key (key r) rows with
  | none => exact absurd rfl (lookup_none.1 hl r hr)
  | some s =>
    obtain ⟨hs, hk⟩ := lookup_some hl
    rw [h.unique hs hr hk]

theorem Keyed.lookup_iff [DecidableEq κ] {key : α → κ} {rows : List α} (h : Keyed key rows) {k : κ}
    {r : α} :
    KeyedRows.lookup key k rows = some r ↔ r ∈ rows ∧ key r = k := by
  constructor
  · exact lookup_some
  · rintro ⟨hr, rfl⟩
    exact h.lookup hr

theorem Keyed.append {key : α → κ} {rows : List α} (h : Keyed key rows) {x : α}
    (hx : ∀ r ∈ rows, key r ≠ key x) : Keyed key (rows ++ [x]) := by
  unfold Keyed
  rw [List.map_append, List.nodup_append]
  refine ⟨h, by simp, ?_⟩
  intro a ha b hb
  obtain ⟨r, hr, rfl⟩ := List.mem_map.1 ha
  simp only [List.map_cons, List.map_nil, List.mem_singleton] at hb
  subst hb
  exact hx r hr

theorem Keyed.filter {key : α → κ} {rows : List α} (h : Keyed key rows) (p : α → Bool) :
    Keyed key (rows.filter p) :=
  h.sublist (List.filter_sublist.map key)

theorem amend_column [DecidableEq κ] {key : α → κ} {col : α → ν} {k : κ} {f : α → α} {rows : List α}
    (hf : ∀ r ∈ rows, key r = k → col (f r) = col r) :
    (amend key k f rows).map col = rows.map col := by
  rw [amend, List.map_map]
  refine List.map_congr_left ?_
  intro r hr
  by_cases h : key r = k
  · simp [h, hf r hr h]
  · simp [h]

theorem Keyed.amend [DecidableEq κ] {key : α → κ} {col : α → ν} {k : κ} {f : α → α} {rows : List α}
    (h : Keyed col rows) (hf : ∀ r ∈ rows, key r = k → col (f r) = col r) :
    Keyed col (amend key k f rows) := by
  unfold Keyed
  rw [amend_column hf]
  exact h

theorem Keyed.amend_fresh [DecidableEq κ] {key : α → κ} {col : α → ν} {k : κ} {f : α → α}
    {rows : List α} (hk : Keyed key rows) (h : Keyed col rows)
    (hf : ∀ r ∈ rows, key r ≠ k → ∀ s ∈ rows, key s = k → col (f s) ≠ col r) :
    Keyed col (KeyedRows.amend key k f rows) := by
  unfold Keyed KeyedRows.amend at *
  rw [List.map_map, List.Nodup, List.pairwise_map]
  rw [List.Nodup, List.pairwise_map] at h hk
  refine (h.and hk).imp_of_mem ?_
  rintro r s hr hs ⟨hcol, hkey⟩
  by_cases h1 : key r = k
  · have h2 : key s ≠ k := fun h2 => hkey (h1.trans h2.symm)
    simpa [h1, h2] using hf s hs h2 r hr h1
  · by_cases h2 : key s = k
    · simpa [h1, h2] using (hf r hr h1 s hs h2).symm
    · simpa [h1, h2] using hcol

theorem mem_amend [DecidableEq κ] {key : α → κ} {k : κ} {f : α → α} {rows : List α} {r : α} :
    r ∈ amend key k f rows ↔ ∃ s ∈ rows, (if key s = k then f s else s) = r := by
  simp [amend]

theorem amend_of_absent [DecidableEq κ] {key : α → κ} {k : κ} {f : α → α} {rows : List α}
    (h : ∀ r ∈ rows, key r = k → f r = r) : amend key k f rows = rows := by
  rw [amend]
  conv_rhs => rw [← List.map_id rows]
  refine List.map_congr_left ?_
  intro r hr
  by_cases hk : key r = k
  · simp [hk, h r hr hk]
  · simp [hk]

theorem amend_keys [DecidableEq κ] [DecidableEq ν] {key : α → κ} {col : α → ν} {f : α → α}
    {rows : List α} (hk : Keyed key rows) (hc : Keyed col rows) {r : α} (hr : r ∈ rows) :
    amend key (key r) f rows = amend col (col r) f rows := by
  refine List.map_congr_left ?_
  intro s hs
  have heq : key s = key r ↔ col s = col r :=
    ⟨fun h => by rw [hk.unique hs hr h], fun h => by rw [hc.unique hs hr h]⟩
  simp only [heq]

end AuthService.KeyedRows
