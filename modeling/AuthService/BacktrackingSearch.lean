import Mathlib.Data.List.Basic

set_option autoImplicit false

/-! Searching a text for a pattern by backtracking, with one group that is captured. -/
namespace AuthService.BacktrackingSearch

/-- A piece of a pattern; a repetition takes as many or as few characters as it can. -/
inductive Piece (α : Type) where
  | one (p : α → Bool)
  | greedy (p : α → Bool)
  | lazy (p : α → Bool)
  | boundary
  | openGroup
  | closeGroup

structure Cursor (α : Type) where
  previous : Option α
  rest : List α
  capturing : Bool
  group : List α

section Search
variable {α : Type} (word : α → Bool)

def Cursor.eat (c : α) (cs : List α) (s : Cursor α) : Cursor α :=
  ⟨some c, cs, s.capturing, if s.capturing then s.group ++ [c] else s.group⟩

def manyGreedy (p : α → Bool) (k : Cursor α → Option (Cursor α)) :
    List α → Cursor α → Option (Cursor α)
  | [], s => k s
  | c :: cs, s =>
    if p c then
      match manyGreedy p k cs (s.eat c cs) with
      | some r => some r
      | none => k s
    else k s

def manyLazy (p : α → Bool) (k : Cursor α → Option (Cursor α)) :
    List α → Cursor α → Option (Cursor α)
  | [], s => k s
  | c :: cs, s =>
    match k s with
    | some r => some r
    | none => if p c then manyLazy p k cs (s.eat c cs) else none

/-- `\b`. -/
def atBoundary (s : Cursor α) : Bool :=
  (match s.previous with
    | none => false
    | some c => word c) !=
  match s.rest with
    | [] => false
    | c :: _ => word c

def matchPieces : List (Piece α) → Cursor α → Option (Cursor α)
  | [], s => some s
  | .one p :: pieces, s =>
    match s.rest with
    | [] => none
    | c :: cs => if p c then matchPieces pieces (s.eat c cs) else none
  | .greedy p :: pieces, s => manyGreedy p (matchPieces pieces) s.rest s
  | .lazy p :: pieces, s => manyLazy p (matchPieces pieces) s.rest s
  | .boundary :: pieces, s => if atBoundary word s then matchPieces pieces s else none
  | .openGroup :: pieces, s => matchPieces pieces { s with capturing := true }
  | .closeGroup :: pieces, s => matchPieces pieces { s with capturing := false }

/-- `re.search(...).group(1)`: the leftmost match counts. -/
def search (pieces : List (Piece α)) : Option α → List α → Option (List α)
  | previous, [] =>
    (matchPieces word pieces ⟨previous, [], false, []⟩).map Cursor.group
  | previous, c :: cs =>
    match matchPieces word pieces ⟨previous, c :: cs, false, []⟩ with
    | some s => some s.group
    | none => search pieces (some c) cs

def literal [DecidableEq α] (cs : List α) : List (Piece α) := cs.map fun c => .one (fun d => d = c)

end Search

variable {α β : Type}

def Cursor.eats (cs rest : List α) (s : Cursor α) : Cursor α :=
  ⟨cs.getLast?.or s.previous, rest, s.capturing, if s.capturing then s.group ++ cs else s.group⟩

theorem eats_nil {s : Cursor α} {xs : List α} (hs : s.rest = xs) : s.eats [] xs = s := by
  obtain ⟨previous, rest, capturing, group⟩ := s
  subst hs
  simp [Cursor.eats]

theorem eats_cons (c : α) (cs rest : List α) (s : Cursor α) :
    (s.eat c (cs ++ rest)).eats cs rest = s.eats (c :: cs) rest := by
  obtain ⟨previous, _, capturing, group⟩ := s
  simp only [Cursor.eats, Cursor.eat, Cursor.mk.injEq, true_and]
  refine ⟨?_, ?_⟩
  · rw [List.getLast?_cons]
    cases cs.getLast? <;> rfl
  · split_ifs <;> simp

theorem eats_one (c : α) (rest : List α) (s : Cursor α) : s.eats [c] rest = s.eat c rest := rfl

section Repetitions
variable {p : α → Bool} {k : Cursor α → Option (Cursor α)} {xs : List α} {s : Cursor α}

theorem repeat_nothing {r : Cursor α} (hs : s.rest = xs) (h : k s = some r) :
    ∃ cs rest, xs = cs ++ rest ∧ (∀ c ∈ cs, p c = true) ∧ k (s.eats cs rest) = some r :=
  ⟨[], xs, rfl, by simp, by rw [eats_nil hs, h]⟩

theorem manyGreedy_eq_some {r : Cursor α} (hs : s.rest = xs) (h : manyGreedy p k xs s = some r) :
    ∃ cs rest, xs = cs ++ rest ∧ (∀ c ∈ cs, p c = true) ∧ k (s.eats cs rest) = some r := by
  induction xs generalizing s with
  | nil => exact repeat_nothing hs h
  | cons c xs ih =>
    rw [manyGreedy] at h
    split_ifs at h with hc
    · cases hm : manyGreedy p k xs (s.eat c xs) with
      | none =>
        rw [hm] at h
        exact repeat_nothing hs h
      | some r' =>
        rw [hm] at h
        obtain ⟨cs, rest, rfl, hcs, hr⟩ := ih rfl (hm.trans h)
        refine ⟨c :: cs, rest, rfl, ?_, by rw [← eats_cons, hr]⟩
        intro d hd
        rcases List.mem_cons.1 hd with rfl | hd
        · exact hc
        · exact hcs d hd
    · exact repeat_nothing hs h

theorem manyGreedy_eq_none (hs : s.rest = xs) (h : manyGreedy p k xs s = none) {cs rest : List α}
    (hxs : xs = cs ++ rest) (hcs : ∀ c ∈ cs, p c = true) : k (s.eats cs rest) = none := by
  induction xs generalizing s cs with
  | nil =>
    obtain ⟨rfl, rfl⟩ := List.append_eq_nil_iff.1 hxs.symm
    rw [eats_nil hs]
    exact h
  | cons c xs ih =>
    rw [manyGreedy] at h
    have hnone : k s = none := by
      split_ifs at h
      · split at h
        · cases h
        · exact h
      · exact h
    cases cs with
    | nil =>
      rw [List.nil_append] at hxs
      rw [← hxs, eats_nil hs]
      exact hnone
    | cons d cs =>
      rw [List.cons_append, List.cons.injEq] at hxs
      obtain ⟨rfl, rfl⟩ := hxs
      rw [if_pos (hcs c (by simp))] at h
      rw [← eats_cons]
      refine ih rfl ?_ rfl (fun d hd => hcs d (by simp [hd]))
      split at h
      · cases h
      · assumption

theorem manyLazy_eq_none (hs : s.rest = xs) (h : manyLazy p k xs s = none) {cs rest : List α}
    (hxs : xs = cs ++ rest) (hcs : ∀ c ∈ cs, p c = true) : k (s.eats cs rest) = none := by
  induction xs generalizing s cs with
  | nil =>
    obtain ⟨rfl, rfl⟩ := List.append_eq_nil_iff.1 hxs.symm
    rw [eats_nil hs]
    exact h
  | cons c xs ih =>
    rw [manyLazy] at h
    cases hk : k s with
    | some r => simp [hk] at h
    | none =>
      simp only [hk] at h
      cases cs with
      | nil =>
        rw [List.nil_append] at hxs
        rw [← hxs, eats_nil hs]
        exact hk
      | cons d cs =>
        rw [List.cons_append, List.cons.injEq] at hxs
        obtain ⟨rfl, rfl⟩ := hxs
        rw [if_pos (hcs c (by simp))] at h
        rw [← eats_cons]
        exact ih rfl h rfl (fun d hd => hcs d (by simp [hd]))

theorem manyLazy_eq_some {r : Cursor α} (hs : s.rest = xs) (h : manyLazy p k xs s = some r) :
    ∃ cs rest, xs = cs ++ rest ∧ (∀ c ∈ cs, p c = true) ∧ k (s.eats cs rest) = some r ∧
      ∀ cs' rest', xs = cs' ++ rest' → cs'.length < cs.length → k (s.eats cs' rest') = none := by
  induction xs generalizing s with
  | nil => exact ⟨[], [], rfl, by simp, by rw [eats_nil hs]; exact h, by simp⟩
  | cons c xs ih =>
    rw [manyLazy] at h
    cases hk : k s with
    | some r' =>
      simp only [hk] at h
      exact ⟨[], c :: xs, rfl, by simp, by rw [eats_nil hs, hk, h], by simp⟩
    | none =>
      simp only [hk] at h
      split_ifs at h with hc
      obtain ⟨cs, rest, rfl, hcs, hr, hfirst⟩ := ih rfl h
      refine ⟨c :: cs, rest, rfl, ?_, by rw [← eats_cons, hr], ?_⟩
      · intro d hd
        rcases List.mem_cons.1 hd with rfl | hd
        · exact hc
        · exact hcs d hd
      · intro cs' rest' hxs hlen
        cases cs' with
        | nil =>
          rw [List.nil_append] at hxs
          rw [← hxs, eats_nil hs]
          exact hk
        | cons d cs' =>
          rw [List.cons_append, List.cons.injEq] at hxs
          obtain ⟨rfl, hxs⟩ := hxs
          have hnone := hfirst cs' rest' hxs (by simpa using hlen)
          rw [hxs, eats_cons] at hnone
          exact hnone

end Repetitions

section Pieces
variable {word : α → Bool} {pieces : List (Piece α)} {s r : Cursor α}

theorem match_one {p : α → Bool} (h : matchPieces word (.one p :: pieces) s = some r) :
    ∃ c rest, s.rest = c :: rest ∧ p c = true ∧ matchPieces word pieces (s.eats [c] rest) = some r := by
  rw [matchPieces] at h
  split at h
  · cases h
  · rename_i c rest hrest
    split_ifs at h with hc
    exact ⟨c, rest, hrest, hc, by rw [eats_one, h]⟩

theorem match_one_eq {p : α → Bool} {c : α} {rest : List α} (hs : s.rest = c :: rest)
    (hc : p c = true) :
    matchPieces word (.one p :: pieces) s = matchPieces word pieces (s.eats [c] rest) := by
  simp only [matchPieces, hs, if_pos hc, eats_one]

theorem eats_eats (cs ds rest rest' : List α) (s : Cursor α) :
    (s.eats cs rest').eats ds rest = s.eats (cs ++ ds) rest := by
  obtain ⟨previous, _, capturing, group⟩ := s
  simp only [Cursor.eats, Cursor.mk.injEq, true_and]
  refine ⟨?_, ?_⟩
  · rw [List.getLast?_append, Option.or_assoc]
  · split_ifs <;> simp

theorem match_literal [DecidableEq α] {t : List α}
    (h : matchPieces word ((t.map fun c => .one (fun d => d = c)) ++ pieces) s = some r) :
    ∃ rest, s.rest = t ++ rest ∧ matchPieces word pieces (s.eats t rest) = some r := by
  induction t generalizing s with
  | nil => exact ⟨s.rest, rfl, by rw [eats_nil rfl]; exact h⟩
  | cons c t ih =>
    rw [List.map_cons, List.cons_append] at h
    obtain ⟨d, rest, hs, hd, hm⟩ := match_one h
    obtain ⟨rest', hrest, hr⟩ := ih hm
    have hdc : d = c := by simpa using hd
    have hrest : rest = t ++ rest' := hrest
    refine ⟨rest', by rw [hs, hrest, hdc, List.cons_append], ?_⟩
    rw [eats_eats, hdc] at hr
    exact hr

theorem match_literal_eq [DecidableEq α] {t rest : List α} (hs : s.rest = t ++ rest) :
    matchPieces word ((t.map fun c => .one (fun d => d = c)) ++ pieces) s =
      matchPieces word pieces (s.eats t rest) := by
  induction t generalizing s with
  | nil => rw [eats_nil (show s.rest = rest from hs)]; rfl
  | cons c t ih =>
    rw [List.map_cons, List.cons_append, match_one_eq hs (by simp), ih rfl, eats_eats]
    rfl

theorem search_eq_some {previous : Option α} {cs : List α} {found : List α}
    (h : search word pieces previous cs = some found) :
    ∃ before after previous' r, cs = before ++ after ∧
      matchPieces word pieces ⟨previous', after, false, []⟩ = some r ∧
      found = r.group ∧
      ∀ before' after', cs = before' ++ after' → before'.length < before.length →
        ∃ previous', matchPieces word pieces ⟨previous', after', false, []⟩ = none := by
  induction cs generalizing previous with
  | nil =>
    rw [search, Option.map_eq_some_iff] at h
    obtain ⟨r, hr, rfl⟩ := h
    exact ⟨[], [], previous, r, rfl, hr, rfl, by simp⟩
  | cons c cs ih =>
    rw [search] at h
    cases hm : matchPieces word pieces ⟨previous, c :: cs, false, []⟩ with
    | some r =>
      simp only [hm, Option.some.injEq] at h
      exact ⟨[], c :: cs, previous, r, rfl, hm, h.symm, by simp⟩
    | none =>
      simp only [hm] at h
      obtain ⟨before, after, previous', r, rfl, hr, hfound, hfirst⟩ := ih h
      refine ⟨c :: before, after, previous', r, rfl, hr, hfound, ?_⟩
      intro before' after' hcs hlen
      cases before' with
      | nil =>
        rw [List.nil_append] at hcs
        rw [← hcs]
        exact ⟨previous, hm⟩
      | cons d before' =>
        rw [List.cons_append, List.cons.injEq] at hcs
        exact hfirst before' after' hcs.2 (by simpa using hlen)

theorem search_eq_none {previous : Option α} {cs : List α}
    (h : search word pieces previous cs = none) {before after : List α} (hcs : cs = before ++ after) :
    ∃ previous', matchPieces word pieces ⟨previous', after, false, []⟩ = none := by
  induction cs generalizing previous before with
  | nil =>
    obtain ⟨rfl, rfl⟩ := List.append_eq_nil_iff.1 hcs.symm
    rw [search, Option.map_eq_none_iff] at h
    exact ⟨previous, h⟩
  | cons c cs ih =>
    rw [search] at h
    cases hm : matchPieces word pieces ⟨previous, c :: cs, false, []⟩ with
    | some r => simp [hm] at h
    | none =>
      simp only [hm] at h
      cases before with
      | nil =>
        rw [List.nil_append] at hcs
        rw [← hcs]
        exact ⟨previous, hm⟩
      | cons d before =>
        rw [List.cons_append, List.cons.injEq] at hcs
        exact ih h hcs.2

end Pieces

section Alphabets
variable (f : α → β)

def Piece.comap : Piece β → Piece α
  | .one p => .one (fun c => p (f c))
  | .greedy p => .greedy (fun c => p (f c))
  | .lazy p => .lazy (fun c => p (f c))
  | .boundary => .boundary
  | .openGroup => .openGroup
  | .closeGroup => .closeGroup

def Cursor.map (s : Cursor α) : Cursor β :=
  ⟨s.previous.map f, s.rest.map f, s.capturing, s.group.map f⟩

theorem Cursor.map_eat (c : α) (cs : List α) (s : Cursor α) :
    (s.map f).eat (f c) (cs.map f) = (s.eat c cs).map f := by
  obtain ⟨previous, rest, capturing, group⟩ := s
  cases capturing <;> simp [Cursor.map, Cursor.eat]

variable {f} {p : β → Bool} {k : Cursor β → Option (Cursor β)} {k' : Cursor α → Option (Cursor α)}

theorem manyGreedy_map (hk : ∀ s : Cursor α, k (s.map f) = (k' s).map (Cursor.map f)) (cs : List α)
    (s : Cursor α) : manyGreedy p k (cs.map f) (s.map f) =
      (manyGreedy (fun c => p (f c)) k' cs s).map (Cursor.map f) := by
  induction cs generalizing s with
  | nil => exact hk s
  | cons c cs ih =>
    rw [List.map_cons, manyGreedy, manyGreedy, Cursor.map_eat, ih, hk]
    split_ifs
    · cases manyGreedy (fun c => p (f c)) k' cs (s.eat c cs) <;> rfl
    · rfl

theorem manyLazy_map (hk : ∀ s : Cursor α, k (s.map f) = (k' s).map (Cursor.map f)) (cs : List α)
    (s : Cursor α) : manyLazy p k (cs.map f) (s.map f) =
      (manyLazy (fun c => p (f c)) k' cs s).map (Cursor.map f) := by
  induction cs generalizing s with
  | nil => exact hk s
  | cons c cs ih =>
    rw [List.map_cons, manyLazy, manyLazy, Cursor.map_eat, ih, hk]
    cases k' s with
    | some r => rfl
    | none =>
      simp only [Option.map_none]
      split_ifs <;> rfl

/-- A match in a translated text is the translation of a match. -/
theorem matchPieces_map (word : β → Bool) (pieces : List (Piece β)) (s : Cursor α) :
    matchPieces word pieces (s.map f) =
      (matchPieces (fun c => word (f c)) (pieces.map (Piece.comap f)) s).map (Cursor.map f) := by
  induction pieces generalizing s with
  | nil => rfl
  | cons piece pieces ih =>
    cases piece with
    | one p =>
      obtain ⟨previous, rest, capturing, group⟩ := s
      cases rest with
      | nil => rfl
      | cons c cs =>
        have hstep := ih (Cursor.eat c cs ⟨previous, c :: cs, capturing, group⟩)
        rw [← Cursor.map_eat] at hstep
        simp only [List.map_cons, Piece.comap, matchPieces]
        simp only [Cursor.map, List.map_cons] at hstep ⊢
        split_ifs
        · exact hstep
        · rfl
    | greedy p => exact manyGreedy_map ih s.rest s
    | lazy p => exact manyLazy_map ih s.rest s
    | boundary =>
      have hboundary : atBoundary word (s.map f) = atBoundary (fun c => word (f c)) s := by
        obtain ⟨previous, rest, capturing, group⟩ := s
        cases previous <;> cases rest <;> rfl
      simp only [List.map_cons, Piece.comap, matchPieces, hboundary]
      split_ifs
      · exact ih s
      · rfl
    | openGroup => exact ih { s with capturing := true }
    | closeGroup => exact ih { s with capturing := false }

theorem search_map (word : β → Bool) (pieces : List (Piece β)) (previous : Option α) (cs : List α) :
    search word pieces (previous.map f) (cs.map f) =
      (search (fun c => word (f c)) (pieces.map (Piece.comap f)) previous cs).map (List.map f) := by
  induction cs generalizing previous with
  | nil =>
    have hmatch := matchPieces_map word pieces (f := f) ⟨previous, [], false, []⟩
    simp only [Cursor.map, List.map_nil] at hmatch
    rw [List.map_nil, search, search, hmatch, Option.map_map, Option.map_map]
    rfl
  | cons c cs ih =>
    have hmatch := matchPieces_map word pieces (f := f) ⟨previous, c :: cs, false, []⟩
    simp only [Cursor.map, List.map_cons, List.map_nil] at hmatch
    rw [List.map_cons, search, search, hmatch]
    cases matchPieces (fun c => word (f c)) (pieces.map (Piece.comap f))
        ⟨previous, c :: cs, false, []⟩ with
    | some r => rfl
    | none => exact ih (some c)

end Alphabets

end AuthService.BacktrackingSearch
