import AuthService.JsonReader
import AuthService.RateLimitMiddleware

set_option autoImplicit false

/-! What the scan of the middleware finds in a text, against the first root field that
GraphQL executes. -/
namespace AuthService.OperationScan
open PythonText JsonText GraphqlDocuments BacktrackingSearch RateLimitMiddleware

def isBracket (c : Char) : Bool := c = '(' || c = '{'

section Sites
variable (word : Char → Bool)

/-- Behind the gap, in which no brace opens, a word stands in front of a bracket. -/
def Leads (body gap field : List Char) : Prop :=
  ∃ blanks bracket rest, body = gap ++ (field ++ (blanks ++ bracket :: rest)) ∧
    (∀ c ∈ gap, c ≠ '{') ∧ field ≠ [] ∧ (∀ c ∈ field, word c = true) ∧
    (∀ c ∈ blanks, isSpace c = true) ∧ isBracket bracket = true

/-- `mutation`, with the name of the operation if one is selected. -/
def Keyword : Option String → List Char → Prop
  | none, head => head = "mutation".toList
  | some name, head => ∃ c blanks, isSpace c = true ∧ (∀ d ∈ blanks, isSpace d = true) ∧
      head = "mutation".toList ++ c :: (blanks ++ name.toList)

/-- The keyword, a brace somewhere behind it, and behind the first such brace a word that leads
up to a bracket. -/
def Site (name : Option String) (text before gap field : List Char) : Prop :=
  ∃ head mid body, text = before ++ (head ++ (mid ++ '{' :: body)) ∧ Keyword name head ∧
    (∀ c rest, mid ++ '{' :: body = c :: rest → word c = false) ∧ (∀ c ∈ mid, c ≠ '{') ∧
    Leads word body gap field

/-- The site with the earliest keyword, and its earliest word. -/
def FirstSite (name : Option String) (text field : List Char) : Prop :=
  ∃ before gap, Site word name text before gap field ∧
    ∀ before' gap' field', Site word name text before' gap' field' →
      before.length < before'.length ∨
        before.length = before'.length ∧ gap.length ≤ gap'.length

end Sites

/-- What `\w` takes: the characters of names, but no blanks and no brackets. -/
structure WordClass (word : Char → Bool) : Prop where
  names : ∀ c, isWordChar c = true → word c = true
  blanks : ∀ c, isSpace c = true → word c = false
  brackets : ∀ c, isBracket c = true → word c = false

section Patterns
variable {word : Char → Bool} {s r : Cursor Char}

/-- `(\w+)\s*[\({]`. -/
def groupPieces (word : Char → Bool) : List (Piece Char) :=
  [.openGroup, .one word, .greedy word, .closeGroup, .greedy isSpace, .one isBracket]

theorem group_some (h : matchPieces word (groupPieces word) s = some r) (hs : s.group = []) :
    Leads word s.rest [] r.group := by
  rw [groupPieces, matchPieces] at h
  obtain ⟨c, rest, hc, hword, h⟩ := match_one h
  rw [matchPieces] at h
  obtain ⟨cs, rest₁, hrest, hcs, h⟩ := manyGreedy_eq_some rfl h
  rw [matchPieces, matchPieces] at h
  obtain ⟨blanks, rest₂, hrest₁, hblanks, h⟩ := manyGreedy_eq_some rfl h
  obtain ⟨bracket, rest₃, hrest₂, hbracket, h⟩ := match_one h
  rw [matchPieces, Option.some.injEq] at h
  have hrest : rest = cs ++ rest₁ := hrest
  have hrest₁ : rest₁ = blanks ++ rest₂ := hrest₁
  have hrest₂ : rest₂ = bracket :: rest₃ := hrest₂
  have hgroup : r.group = c :: cs := by
    rw [← h]
    simp [Cursor.eats, hs]
  have hs' : s.rest = c :: rest := hc
  refine ⟨blanks, bracket, rest₃, ?_, by simp, by simp [hgroup], ?_, hblanks, hbracket⟩
  · rw [hs', hrest, hrest₁, hrest₂, hgroup]
    rfl
  · rw [hgroup]
    intro d hd
    rcases List.mem_cons.1 hd with rfl | hd
    · exact hword
    · exact hcs d hd

theorem group_none (h : matchPieces word (groupPieces word) s = none) (field : List Char) :
    ¬ Leads word s.rest [] field := by
  rintro ⟨blanks, bracket, rest, hs, -, hne, hfield, hblanks, hbracket⟩
  cases field with
  | nil => exact hne rfl
  | cons c cs =>
    have hrest : ({ s with capturing := true } : Cursor Char).rest =
        c :: (cs ++ (blanks ++ bracket :: rest)) := hs
    rw [groupPieces, matchPieces, match_one_eq hrest (hfield c (by simp)), matchPieces] at h
    have h := manyGreedy_eq_none rfl h rfl (fun d hd => hfield d (by simp [hd]))
    rw [matchPieces, matchPieces] at h
    have h := manyGreedy_eq_none rfl h rfl hblanks
    rw [match_one_eq rfl hbracket, matchPieces] at h
    cases h

theorem leads_append {gap body field : List Char} (hgap : ∀ c ∈ gap, c ≠ '{') :
    Leads word (gap ++ body) gap field ↔ Leads word body [] field := by
  constructor
  · rintro ⟨blanks, bracket, rest, hbody, -, hrest⟩
    exact ⟨blanks, bracket, rest, List.append_cancel_left hbody, by simp, hrest⟩
  · rintro ⟨blanks, bracket, rest, hbody, -, hrest⟩
    exact ⟨blanks, bracket, rest, by rw [hbody]; rfl, hgap, hrest⟩

theorem leads_split {body gap field : List Char} (h : Leads word body gap field) :
    ∃ tail, body = gap ++ tail := by
  obtain ⟨blanks, bracket, rest, hbody, -⟩ := h
  exact ⟨_, hbody⟩

theorem firstFieldPieces_eq : firstFieldPieces word =
    .greedy (fun c => c ≠ '{') :: .one (fun c => c = '{') :: .lazy (fun c => c ≠ '{') ::
      groupPieces word := rfl

theorem firstField_some (h : matchPieces word (firstFieldPieces word) s = some r)
    (hgroup : s.group = []) (hcapturing : s.capturing = false) :
    ∃ mid body gap, s.rest = mid ++ '{' :: body ∧ (∀ c ∈ mid, c ≠ '{') ∧ Leads word body gap r.group ∧
      ∀ gap' field', Leads word body gap' field' → gap.length ≤ gap'.length := by
  rw [firstFieldPieces_eq, matchPieces] at h
  obtain ⟨mid, rest, hmid, hplain, h⟩ := manyGreedy_eq_some rfl h
  obtain ⟨c, body, hc, hbrace, h⟩ := match_one h
  rw [matchPieces] at h
  obtain ⟨gap, tail, hgap, hnobrace, h, hfirst⟩ := manyLazy_eq_some rfl h
  have hrest : rest = c :: body := hc
  have hbody : body = gap ++ tail := hgap
  have hc' : c = '{' := of_decide_eq_true hbrace
  have hnobrace : ∀ d ∈ gap, d ≠ '{' := fun d hd => of_decide_eq_true (hnobrace d hd)
  have hlead := group_some h (by simp [Cursor.eats, hcapturing, hgroup])
  refine ⟨mid, body, gap, by rw [hmid, hrest, hc'], fun d hd => of_decide_eq_true (hplain d hd), ?_, ?_⟩
  · rw [hbody]
    exact (leads_append hnobrace).2 hlead
  · intro gap' field' h'
    by_contra hlt
    obtain ⟨tail', htail'⟩ := leads_split h'
    have hnone := hfirst gap' tail' htail' (by omega)
    refine group_none hnone field' ?_
    have hgap' : ∀ d ∈ gap', d ≠ '{' := by
      obtain ⟨-, -, -, -, hgap', -⟩ := h'
      exact hgap'
    rw [htail'] at h'
    exact (leads_append hgap').1 h'

theorem firstField_none (h : matchPieces word (firstFieldPieces word) s = none) {mid body : List Char}
    (hs : s.rest = mid ++ '{' :: body) (hmid : ∀ c ∈ mid, c ≠ '{') (gap field : List Char) :
    ¬ Leads word body gap field := by
  intro hlead
  have hgap : ∀ d ∈ gap, d ≠ '{' := by
    obtain ⟨-, -, -, -, hgap, -⟩ := hlead
    exact hgap
  obtain ⟨tail, rfl⟩ := leads_split hlead
  rw [firstFieldPieces_eq, matchPieces] at h
  have h := manyGreedy_eq_none rfl h hs (fun c hc => decide_eq_true (hmid c hc))
  rw [match_one_eq (c := '{') rfl (decide_eq_true rfl), matchPieces] at h
  have h := manyLazy_eq_none rfl h rfl (fun c hc => decide_eq_true (hgap c hc))
  exact group_none h field ((leads_append hgap).1 hlead)

end Patterns

def isName (name : String) : Bool := name ≠ "" && name.toList.all isWordChar

def operationRe (word : Char → Bool) : Option String → List (Piece Char)
  | none => mutationOpRe word
  | some name => namedMutationOpRe word name

section Keyword
variable {word : Char → Bool} (hword : WordClass word) {name : Option String}
  (hname : ∀ n, name = some n → isName n = true)
include hword hname

omit hname in
theorem name_chars {n : String} (h : isName n = true) :
    ∃ c cs, n.toList = c :: cs ∧ ∀ d ∈ n.toList, word d = true := by
  rw [isName, Bool.and_eq_true, decide_eq_true_eq, List.all_eq_true] at h
  cases hn : n.toList with
  | nil => exact absurd (String.toList_inj.1 (hn.trans String.toList_empty.symm)) h.1
  | cons c cs =>
    refine ⟨c, cs, rfl, fun d hd => hword.names d ?_⟩
    exact h.2 d (hn ▸ hd)

theorem keyword_last {head : List Char} (h : Keyword name head) :
    ∃ l, head.getLast? = some l ∧ word l = true := by
  cases name with
  | none =>
    rw [Keyword] at h
    rw [h]
    exact ⟨'n', rfl, hword.names 'n' (by decide)⟩
  | some n =>
    obtain ⟨c, blanks, -, -, rfl⟩ := h
    obtain ⟨d, ds, hn, hall⟩ := name_chars hword (hname n rfl)
    refine ⟨(d :: ds).getLast (by simp), ?_, hall _ (by rw [hn]; exact List.getLast_mem _)⟩
    rw [hn, List.getLast?_append, List.getLast?_cons, List.getLast?_append,
      List.getLast?_eq_some_getLast (List.cons_ne_nil d ds)]
    rfl

theorem keyword_unique {head head' tail tail' : List Char} (h : Keyword name head)
    (h' : Keyword name head') (heq : head ++ tail = head' ++ tail') : head = head' := by
  cases name with
  | none => exact Eq.trans h (Eq.symm h')
  | some n =>
    obtain ⟨c, blanks, -, hblanks, rfl⟩ := h
    obtain ⟨c', blanks', -, hblanks', rfl⟩ := h'
    obtain ⟨d, ds, hn, hall⟩ := name_chars hword (hname n rfl)
    have hd : isSpace d = false := by
      by_contra hspace
      have hletter := hall d (by rw [hn]; simp)
      rw [hword.blanks d (by simpa using hspace)] at hletter
      cases hletter
    simp only [List.append_assoc, List.cons_append, List.append_cancel_left_eq, List.cons.injEq] at heq
    obtain ⟨rfl, heq⟩ := heq
    have hstop : ∀ (t : List Char) (e : Char) (rest : List Char), n.toList ++ t = e :: rest →
        isSpace e = false := by
      intro t e rest he
      rw [hn, List.cons_append, List.cons.injEq] at he
      rw [← he.1]
      exact hd
    have htake := (JsonReader.takeWhile_plain hblanks (hstop tail)).1
    have htake' := (JsonReader.takeWhile_plain hblanks' (hstop tail')).1
    rw [heq, htake'] at htake
    rw [htake]

end Keyword

theorem brace_unique {mid mid' body body' : List Char} (h : ∀ c ∈ mid, c ≠ '{')
    (h' : ∀ c ∈ mid', c ≠ '{') (heq : mid ++ '{' :: body = mid' ++ '{' :: body') :
    mid = mid' ∧ body = body' := by
  have hstop : ∀ (b : List Char) (c : Char) (rest : List Char), '{' :: b = c :: rest →
      decide (c ≠ '{') = false := by
    intro b c rest hc
    rw [List.cons.injEq] at hc
    simp [← hc.1]
  have htake := (JsonReader.takeWhile_plain (fun c hc => decide_eq_true (h c hc)) (hstop body)).1
  have htake' := (JsonReader.takeWhile_plain (fun c hc => decide_eq_true (h' c hc)) (hstop body')).1
  rw [heq, htake'] at htake
  subst htake
  simpa using heq

theorem boundary_iff {word : Char → Bool} {s : Cursor Char} {l : Char} (hs : s.previous = some l)
    (hl : word l = true) :
    atBoundary word s = true ↔ ∀ c rest, s.rest = c :: rest → word c = false := by
  unfold atBoundary
  cases hr : s.rest with
  | nil => simp [hs, hl]
  | cons c rest => simp [hs, hl]

section Search
variable {word : Char → Bool} (hword : WordClass word) {name : Option String}
  (hname : ∀ n, name = some n → isName n = true)
include hword hname

theorem site_unique {text head head' mid mid' body body' : List Char}
    (h : text = head ++ (mid ++ '{' :: body)) (h' : text = head' ++ (mid' ++ '{' :: body'))
    (hhead : Keyword name head) (hhead' : Keyword name head') (hmid : ∀ c ∈ mid, c ≠ '{')
    (hmid' : ∀ c ∈ mid', c ≠ '{') : body = body' := by
  have heq := h.symm.trans h'
  have hsame := keyword_unique hword hname hhead hhead' heq
  subst hsame
  exact (brace_unique hmid hmid' (List.append_cancel_left heq)).2

theorem operationRe_some {previous : Option Char} {text : List Char} {r : Cursor Char}
    (h : matchPieces word (operationRe word name) ⟨previous, text, false, []⟩ = some r) :
    ∃ head rest, text = head ++ rest ∧ Keyword name head ∧
      (∀ c cs, rest = c :: cs → word c = false) ∧
      matchPieces word (firstFieldPieces word)
        (Cursor.eats head rest ⟨previous, text, false, []⟩) = some r := by
  have hboundary : ∀ head rest, Keyword name head →
      matchPieces word (.boundary :: firstFieldPieces word)
        (Cursor.eats head rest ⟨previous, text, false, []⟩) = some r →
      (∀ c cs, rest = c :: cs → word c = false) ∧ matchPieces word (firstFieldPieces word)
        (Cursor.eats head rest ⟨previous, text, false, []⟩) = some r := by
    intro head rest hhead hm
    obtain ⟨l, hlast, hl⟩ := keyword_last hword hname hhead
    rw [matchPieces] at hm
    split_ifs at hm with hat
    refine ⟨(boundary_iff (l := l) ?_ hl).1 hat, hm⟩
    simp [Cursor.eats, hlast]
  cases name with
  | none =>
    obtain ⟨rest, htext, hm⟩ := match_literal h
    exact ⟨_, rest, htext, rfl, hboundary _ rest rfl hm⟩
  | some n =>
    rw [operationRe, namedMutationOpRe, List.append_assoc] at h
    obtain ⟨rest, htext, h⟩ := match_literal h
    rw [List.cons_append, List.cons_append] at h
    obtain ⟨c, rest₁, hrest, hc, h⟩ := match_one h
    rw [matchPieces] at h
    obtain ⟨blanks, rest₂, hrest₁, hblanks, h⟩ := manyGreedy_eq_some rfl h
    obtain ⟨rest₃, hrest₂, hm⟩ := match_literal h
    have htext : text = "mutation".toList ++ rest := htext
    have hrest : rest = c :: rest₁ := hrest
    have hrest₁ : rest₁ = blanks ++ rest₂ := hrest₁
    have hrest₂ : rest₂ = n.toList ++ rest₃ := hrest₂
    have hhead : Keyword (some n) ("mutation".toList ++ c :: (blanks ++ n.toList)) :=
      ⟨c, blanks, hc, hblanks, rfl⟩
    rw [eats_eats, eats_eats, eats_eats] at hm
    refine ⟨_, rest₃, ?_, hhead, hboundary _ rest₃ hhead ?_⟩
    · rw [htext, hrest, hrest₁, hrest₂]
      simp
    · rw [← hm]
      simp

theorem operationRe_none {previous : Option Char} {text head rest : List Char}
    (h : matchPieces word (operationRe word name) ⟨previous, text, false, []⟩ = none)
    (htext : text = head ++ rest) (hhead : Keyword name head)
    (hrest : ∀ c cs, rest = c :: cs → word c = false) :
    ∃ s : Cursor Char, s.rest = rest ∧ matchPieces word (firstFieldPieces word) s = none := by
  have hboundary : matchPieces word (.boundary :: firstFieldPieces word)
      (Cursor.eats head rest ⟨previous, text, false, []⟩) = none →
      ∃ s : Cursor Char, s.rest = rest ∧ matchPieces word (firstFieldPieces word) s = none := by
    intro hm
    obtain ⟨l, hlast, hl⟩ := keyword_last hword hname hhead
    have hprevious : (Cursor.eats head rest ⟨previous, text, false, []⟩).previous = some l := by
      simp [Cursor.eats, hlast]
    rw [matchPieces, if_pos ((boundary_iff hprevious hl).2 hrest)] at hm
    exact ⟨_, rfl, hm⟩
  cases name with
  | none =>
    obtain rfl : head = "mutation".toList := hhead
    refine hboundary ?_
    rw [← h]
    exact (match_literal_eq htext).symm
  | some n =>
    obtain ⟨c, blanks, hc, hblanks, rfl⟩ := hhead
    refine hboundary ?_
    have htext' : text = "mutation".toList ++ (c :: (blanks ++ (n.toList ++ rest))) := by
      rw [htext]
      simp
    rw [operationRe, namedMutationOpRe, List.append_assoc, literal, match_literal_eq htext',
      List.cons_append, match_one_eq rfl hc, List.cons_append, matchPieces] at h
    have h := manyGreedy_eq_none rfl h rfl hblanks
    rw [literal, match_literal_eq rfl, eats_eats, eats_eats, eats_eats] at h
    rw [← h]
    simp

theorem match_site {previous : Option Char} {text : List Char} {r : Cursor Char}
    (h : matchPieces word (operationRe word name) ⟨previous, text, false, []⟩ = some r) :
    ∃ gap, Site word name text [] gap r.group ∧
      ∀ gap' field', Site word name text [] gap' field' → gap.length ≤ gap'.length := by
  obtain ⟨head, rest, htext, hhead, hrest, hm⟩ := operationRe_some hword hname h
  obtain ⟨mid, body, gap, hbody, hmid, hlead, hfirst⟩ := firstField_some hm rfl rfl
  have hrest' : rest = mid ++ '{' :: body := hbody
  subst hrest'
  refine ⟨gap, ⟨head, mid, body, htext, hhead, hrest, hmid, hlead⟩, ?_⟩
  rintro gap' field' ⟨head', mid', body', htext', hhead', -, hmid', hlead'⟩
  obtain rfl := site_unique hword hname htext htext' hhead hhead' hmid hmid'
  exact hfirst gap' field' hlead'

theorem no_match_no_site {previous : Option Char} {text : List Char}
    (h : matchPieces word (operationRe word name) ⟨previous, text, false, []⟩ = none)
    (gap field : List Char) : ¬ Site word name text [] gap field := by
  rintro ⟨head, mid, body, htext, hhead, hrest, hmid, hlead⟩
  obtain ⟨s, hs, hnone⟩ := operationRe_none hword hname h
    (show text = head ++ (mid ++ '{' :: body) from htext) hhead hrest
  exact firstField_none hnone hs hmid gap field hlead

omit hword hname in
theorem site_shift {before after gap field : List Char} :
    Site word name (before ++ after) before gap field ↔ Site word name after [] gap field := by
  constructor
  · rintro ⟨head, mid, body, htext, hrest⟩
    exact ⟨head, mid, body, List.append_cancel_left htext, hrest⟩
  · rintro ⟨head, mid, body, htext, hrest⟩
    exact ⟨head, mid, body, by rw [htext]; rfl, hrest⟩

omit hname in
theorem leads_unique {body gap field field' : List Char} (h : Leads word body gap field)
    (h' : Leads word body gap field') : field = field' := by
  obtain ⟨blanks, bracket, rest, hbody, -, -, hfield, hblanks, hbracket⟩ := h
  obtain ⟨blanks', bracket', rest', hbody', -, -, hfield', hblanks', hbracket'⟩ := h'
  have hstop : ∀ (blanks : List Char) (bracket : Char) (rest : List Char),
      (∀ c ∈ blanks, isSpace c = true) → isBracket bracket = true →
      ∀ c cs, blanks ++ bracket :: rest = c :: cs → word c = false := by
    intro blanks bracket rest hblanks hbracket c cs hc
    cases blanks with
    | nil =>
      rw [List.nil_append, List.cons.injEq] at hc
      rw [← hc.1]
      exact hword.brackets bracket hbracket
    | cons d ds =>
      rw [List.cons_append, List.cons.injEq] at hc
      rw [← hc.1]
      exact hword.blanks d (hblanks d (by simp))
  have htake := (JsonReader.takeWhile_plain hfield (hstop blanks bracket rest hblanks hbracket)).1
  have htake' := (JsonReader.takeWhile_plain hfield'
    (hstop blanks' bracket' rest' hblanks' hbracket')).1
  rw [List.append_cancel_left (hbody.symm.trans hbody'), htake'] at htake
  exact htake.symm

theorem firstSite_unique {text field field' : List Char} (h : FirstSite word name text field)
    (h' : FirstSite word name text field') : field = field' := by
  obtain ⟨before, gap, hsite, hfirst⟩ := h
  obtain ⟨before', gap', hsite', hfirst'⟩ := h'
  have hle := hfirst _ _ _ hsite'
  have hle' := hfirst' _ _ _ hsite
  obtain ⟨head, mid, body, htext, hhead, -, hmid, hlead⟩ := hsite
  obtain ⟨head', mid', body', htext', hhead', -, hmid', hlead'⟩ := hsite'
  obtain ⟨rfl, hrest⟩ := List.append_inj (htext.symm.trans htext') (by omega)
  obtain rfl := site_unique hword hname rfl hrest hhead hhead' hmid hmid'
  obtain ⟨tail, htail⟩ := leads_split hlead
  obtain ⟨tail', htail'⟩ := leads_split hlead'
  obtain ⟨rfl, -⟩ := List.append_inj (htail.symm.trans htail') (by omega)
  exact leads_unique hword hlead hlead'

/-- The search finds the field of the first site. -/
theorem search_iff {text found : List Char} :
    search word (operationRe word name) none text = some found ↔ FirstSite word name text found := by
  have hfinds : ∀ found, search word (operationRe word name) none text = some found →
      FirstSite word name text found := by
    intro found h
    obtain ⟨before, after, previous, r, rfl, hm, rfl, hearlier⟩ := search_eq_some h
    obtain ⟨gap, hsite, hfirst⟩ := match_site hword hname hm
    refine ⟨before, gap, site_shift.2 hsite, ?_⟩
    intro before' gap' field' hsite'
    obtain ⟨after', htext⟩ : ∃ after', before ++ after = before' ++ after' := by
      obtain ⟨head, mid, body, htext, -⟩ := hsite'
      exact ⟨_, htext⟩
    rcases lt_trichotomy before'.length before.length with hlt | heq | hgt
    · obtain ⟨previous', hnone⟩ := hearlier before' after' htext hlt
      rw [htext] at hsite'
      exact absurd (site_shift.1 hsite') (no_match_no_site hword hname hnone _ _)
    · obtain ⟨rfl, rfl⟩ := List.append_inj htext heq.symm
      exact .inr ⟨rfl, hfirst gap' field' (site_shift.1 hsite')⟩
    · exact .inl hgt
  refine ⟨hfinds found, fun h => ?_⟩
  cases hs : search word (operationRe word name) none text with
  | some found' =>
    rw [firstSite_unique hword hname (hfinds found' hs) h]
  | none =>
    obtain ⟨before, gap, hsite, -⟩ := h
    obtain ⟨after, rfl⟩ : ∃ after, text = before ++ after := by
      obtain ⟨head, mid, body, htext, -⟩ := hsite
      exact ⟨_, htext⟩
    obtain ⟨previous', hnone⟩ := search_eq_none hs rfl
    exact absurd (site_shift.1 hsite) (no_match_no_site hword hname hnone _ _)

end Search

section Plain
variable {word : Char → Bool} (hword : WordClass word) {name : Option String}
  (hname : ∀ n, name = some n → isName n = true) {gap field blanks rest : List Char} {bracket : Char}
include hword

theorem leads_first (hgap : ∀ c ∈ gap, isBracket c = false)
    (hend : ∀ c, gap.getLast? = some c → word c = false) (hne : field ≠ [])
    (hfield : ∀ c ∈ field, word c = true) (hblanks : ∀ c ∈ blanks, isSpace c = true)
    (hbracket : isBracket bracket = true) {gap' field' : List Char}
    (h : Leads word (gap ++ (field ++ (blanks ++ bracket :: rest))) gap' field') :
    gap.length ≤ gap'.length := by
  by_contra hlt
  obtain ⟨blanks', bracket', rest', hbody, -, -, hfield', hblanks', hbracket'⟩ := h
  have hplainWord : ∀ c, word c = true → isBracket c = false := by
    intro c hc
    by_contra hb
    rw [hword.brackets c (by simpa using hb)] at hc
    cases hc
  have hplainBlank : ∀ c, isSpace c = true → isBracket c = false := by
    intro c hc
    by_contra hb
    rw [Bool.not_eq_false, isBracket, Bool.or_eq_true, decide_eq_true_eq, decide_eq_true_eq] at hb
    rcases hb with rfl | rfl
    · cases hc
    · cases hc
  obtain ⟨tail, rfl⟩ : ∃ tail, gap = gap' ++ tail := by
    rcases List.append_eq_append_iff.1 hbody with ⟨tail, hlonger, -⟩ | ⟨tail, hgap', -⟩
    · rw [hlonger, List.length_append] at hlt
      omega
    · exact ⟨tail, hgap'⟩
  have htail : tail ≠ [] := by
    rintro rfl
    simp at hlt
  -- up to the first bracket both readings are the same text
  have hsame : tail ++ (field ++ blanks) = field' ++ blanks' := by
    have hstop : ∀ (b : Char) (r : List Char), isBracket b = true → ∀ c cs, b :: r = c :: cs →
        (!isBracket c) = false := by
      intro b r hb c cs hc
      rw [List.cons.injEq] at hc
      simp [← hc.1, hb]
    have hall : ∀ c ∈ tail ++ (field ++ blanks), (!isBracket c) = true := by
      intro c hc
      rcases List.mem_append.1 hc with hc | hc
      · simp [hgap c (by simp [hc])]
      · rcases List.mem_append.1 hc with hc | hc
        · simp [hplainWord c (hfield c hc)]
        · simp [hplainBlank c (hblanks c hc)]
    have hall' : ∀ c ∈ field' ++ blanks', (!isBracket c) = true := by
      intro c hc
      rcases List.mem_append.1 hc with hc | hc
      · simp [hplainWord c (hfield' c hc)]
      · simp [hplainBlank c (hblanks' c hc)]
    have htake := (JsonReader.takeWhile_plain hall (hstop bracket rest hbracket)).1
    have htake' := (JsonReader.takeWhile_plain hall' (hstop bracket' rest' hbracket')).1
    simp only [List.append_assoc, List.append_cancel_left_eq] at hbody
    simp only [List.append_assoc] at htake htake'
    rw [hbody, htake'] at htake
    exact htake.symm
  rcases List.append_eq_append_iff.1 hsame with ⟨x, hx, -⟩ | ⟨y, hy, hblank⟩
  · -- the word covers the end of the gap
    have hlast := hend (tail.getLast htail) (by
      rw [List.getLast?_append, List.getLast?_eq_some_getLast htail]
      rfl)
    rw [hfield' _ (by rw [hx]; exact List.mem_append_left _ (List.getLast_mem htail))] at hlast
    cases hlast
  · -- the blanks cover the word
    obtain ⟨c, cs, rfl⟩ := List.exists_cons_of_ne_nil hne
    have hspace := hblanks' c (by rw [hblank]; simp)
    have hletter := hfield c (by simp)
    rw [hword.blanks c hspace] at hletter
    cases hletter

include hname

/-- A text that opens with its mutation, without a brace in front of the selection set and
without a bracket in front of the first field, has its first site at that field. -/
theorem firstSite_plain {head mid : List Char} (hhead : Keyword name head)
    (hboundary : ∀ c cs, mid ++ '{' :: (gap ++ (field ++ (blanks ++ bracket :: rest))) = c :: cs →
      word c = false) (hmid : ∀ c ∈ mid, c ≠ '{') (hgap : ∀ c ∈ gap, isBracket c = false)
    (hend : ∀ c, gap.getLast? = some c → word c = false) (hne : field ≠ [])
    (hfield : ∀ c ∈ field, word c = true) (hblanks : ∀ c ∈ blanks, isSpace c = true)
    (hbracket : isBracket bracket = true) :
    FirstSite word name
      (head ++ (mid ++ '{' :: (gap ++ (field ++ (blanks ++ bracket :: rest))))) field := by
  have hnobrace : ∀ c ∈ gap, c ≠ '{' := by
    rintro c hc rfl
    have hb := hgap '{' hc
    cases hb
  refine ⟨[], gap, ⟨head, mid, _, rfl, hhead, hboundary, hmid, blanks, bracket, rest, rfl, hnobrace,
    hne, hfield, hblanks, hbracket⟩, ?_⟩
  rintro before' gap' field' ⟨head', mid', body', htext', hhead', -, hmid', hlead'⟩
  cases before' with
  | cons c before' => exact .inl (by simp)
  | nil =>
    refine .inr ⟨rfl, ?_⟩
    obtain rfl := site_unique hword hname rfl htext' hhead hhead' hmid hmid'
    exact leads_first hword hgap hend hne hfield hblanks hbracket hlead'

end Plain

/-! ## What GraphQL executes -/

mutual

def namedSelection {α : Type} : Selection α → Bool
  | .field _ name _ _ selections => isName name && namedSelections selections
  | .fragmentSpread _ _ => true
  | .inlineFragment _ _ selections => namedSelections selections

def namedSelections {α : Type} : List (Selection α) → Bool
  | [] => true
  | s :: rest => namedSelection s && namedSelections rest

end

def namedDefinition : Definition → Bool
  | .operation _ name _ selections => name.all isName && namedSelections selections
  | .fragment _ _ selections => namedSelections selections

def namedDocument (document : Document) : Bool := document.all namedDefinition

def requestedName (body : Variables) : Option String :=
  match Variables.get body "operationName" with
  | some (.string name) => some name
  | _ => none

def selectedOperation (document : Document) (body : Variables) : Option Operation :=
  selectOperation document (requestedName body)
    (match Variables.get body "variables" with
      | some (.object values) => values
      | _ => [])

section Names

mutual

theorem named_resolve (vars : Variables) : ∀ s : Selection Value,
    namedSelection (s.resolve vars) = namedSelection s
  | .field _ _ _ _ selections => by
    simp only [Selection.resolve, namedSelection, named_resolveSelections vars selections]
  | .fragmentSpread _ _ => rfl
  | .inlineFragment _ _ selections => by
    simp only [Selection.resolve, namedSelection, named_resolveSelections vars selections]

theorem named_resolveSelections (vars : Variables) : ∀ selections : List (Selection Value),
    namedSelections (resolveSelections vars selections) = namedSelections selections
  | [] => rfl
  | s :: rest => by
    simp only [resolveSelections, namedSelections, named_resolve vars s,
      named_resolveSelections vars rest]

end

def NamedFields (c : Collected) : Prop := ∀ f ∈ c.fields, isName f.name = true

/-- Fragments have names only, and expanding one finds names only. -/
structure NamedExpansion (expand : List (Selection Json) → Collected → Collected)
    (fragments : List (String × List (Selection Json))) : Prop where
  expand : ∀ selections c, namedSelections selections = true → NamedFields c →
    NamedFields (expand selections c)
  fragments : ∀ x ∈ fragments, namedSelections x.2 = true

section Collect
variable {expand : List (Selection Json) → Collected → Collected}
  {fragments : List (String × List (Selection Json))}

mutual

theorem named_collect (h : NamedExpansion expand fragments) : ∀ (s : Selection Json) (c : Collected),
    namedSelection s = true → NamedFields c → NamedFields (collectSelection expand fragments s c)
  | .field responseName name arguments directives selections, c, hs, hc => by
    rw [namedSelection, Bool.and_eq_true] at hs
    rw [collectSelection]
    split_ifs
    · intro f hf
      rcases List.mem_append.1 hf with hf | hf
      · exact hc f hf
      · rw [List.mem_singleton.1 hf]
        exact hs.1
    · exact hc
  | .fragmentSpread name directives, c, _, hc => by
    rw [collectSelection]
    split_ifs
    · split
      · exact hc
      · rename_i x selections hfind
        exact h.expand selections _ (h.fragments _ (List.mem_of_find?_eq_some hfind)) hc
    · exact hc
  | .inlineFragment typeCondition directives selections, c, hs, hc => by
    rw [namedSelection] at hs
    rw [collectSelection]
    split_ifs
    · exact named_collectSelections h selections c hs hc
    · exact hc

theorem named_collectSelections (h : NamedExpansion expand fragments) :
    ∀ (selections : List (Selection Json)) (c : Collected), namedSelections selections = true →
      NamedFields c → NamedFields (collectSelections expand fragments selections c)
  | [], c, _, hc => by
    rw [collectSelections]
    exact hc
  | s :: rest, c, hs, hc => by
    rw [namedSelections, Bool.and_eq_true] at hs
    rw [collectSelections]
    exact named_collectSelections h rest _ hs.2 (named_collect h s c hs.1 hc)

end

end Collect

theorem named_collectRounds {fragments : List (String × List (Selection Json))}
    (hfragments : ∀ x ∈ fragments, namedSelections x.2 = true) (n : ℕ) :
    ∀ selections c, namedSelections selections = true → NamedFields c →
      NamedFields (collectRounds fragments n selections c) := by
  induction n with
  | zero => exact fun _ _ _ hc => hc
  | succ n ih =>
    intro selections c hs hc
    exact named_collectSelections ⟨ih, hfragments⟩ selections c hs hc

theorem selected_mem {document : Document} {name : Option String} {vars : Variables} {op : Operation}
    (h : selectOperation document name vars = some op) :
    ∃ found, (found, op) ∈ operationsOf document vars ∧ (name ≠ none → found = name) := by
  unfold selectOperation at h
  split at h
  · split at h
    · rename_i found op' hops
      rw [Option.some.injEq] at h
      subst h
      exact ⟨found, by rw [hops]; simp, by simp⟩
    · rename_i first op' rest _ hops
      rw [Option.some.injEq] at h
      subst h
      exact ⟨some first, by rw [hops]; simp, by simp⟩
    · cases h
  · obtain ⟨x, hfind, rfl⟩ := Option.map_eq_some_iff.1 h
    exact ⟨x.1, List.mem_of_find?_eq_some hfind, fun _ => of_decide_eq_true (List.find?_some hfind :)⟩

theorem selected_named {document : Document} (hd : namedDocument document = true)
    {name : Option String} {vars : Variables} {op : Operation}
    (h : selectOperation document name vars = some op) :
    (∀ n, name = some n → isName n = true) ∧ ∀ f ∈ op.rootSelections, isName f.name = true := by
  rw [namedDocument, List.all_eq_true] at hd
  obtain ⟨found, hmem, hfound⟩ := selected_mem h
  obtain ⟨d, hdoc, hop⟩ := List.mem_filterMap.1 hmem
  have hdef := hd d hdoc
  cases d with
  | fragment => simp at hop
  | operation type opName definitions selections =>
    simp only [Option.some.injEq, Prod.mk.injEq] at hop
    obtain ⟨rfl, rfl⟩ := hop
    rw [namedDefinition, Bool.and_eq_true] at hdef
    refine ⟨?_, ?_⟩
    · rintro n rfl
      rw [hfound (by simp)] at hdef
      exact hdef.1
    · refine named_collectRounds ?_ _ _ _ ?_ (by simp [NamedFields])
      · intro x hx
        obtain ⟨e, he, hx⟩ := List.mem_filterMap.1 hx
        have hfragment := hd e he
        cases e with
        | operation => simp at hx
        | fragment fname condition fselections =>
          simp only [Option.some.injEq] at hx
          rw [← hx, named_resolveSelections]
          exact hfragment
      · rw [named_resolveSelections]
        exact hdef.2

end Names

section Agreement
variable {word : Char → Bool}

theorem extractOperation_eq {body : Variables} {query : String}
    (hquery : body.get "query" = some (.string query)) (hname : requestedName body ≠ some "") :
    extractOperation word body = some (scan word (operationRe word (requestedName body)) query) := by
  unfold extractOperation requestedName at *
  rw [hquery]
  cases hop : Variables.get body "operationName" with
  | none => simp [orElse, operationRe]
  | some j =>
    cases j with
    | string name =>
      have hne : name ≠ "" := by simpa [hop] using hname
      simp [orElse, truthy, hne, operationRe]
    | _ =>
      simp only [orElse]
      split_ifs <;> simp [operationRe]

/-- The scan agrees with GraphQL exactly when the first site of the text carries the name of
the first root field that is executed. -/
theorem scan_agrees_iff (hword : WordClass word) {parse : String → Option Document}
    (hparse : ∀ text document, parse text = some document → namedDocument document = true)
    {body : Variables} {query : String} (hquery : body.get "query" = some (.string query))
    {document : Document} (hdocument : parse query = some document) {op : Operation}
    (hselected : selectedOperation document body = some op) {field : RootField}
    {rest : List RootField} (hroot : op.rootFields = field :: rest) :
    extractOperation word body = some field.name ↔
      FirstSite word (requestedName body) query.toList field.name.toList := by
  obtain ⟨hname, hfields⟩ := selected_named (hparse query document hdocument) hselected
  have hfield : isName field.name = true := by
    cases hsel : op.rootSelections with
    | nil => simp [Operation.rootFields, hsel, mergeFields] at hroot
    | cons f fs =>
      rw [Operation.rootFields, hsel, mergeFields, List.cons.injEq] at hroot
      rw [← hroot.1]
      exact hfields f (by rw [hsel]; simp)
  have hnonempty : field.name ≠ "" := by
    rintro hempty
    rw [hempty] at hfield
    cases hfield
  have hrequested : requestedName body ≠ some "" := fun hempty => by
    have hisName := hname "" hempty
    cases hisName
  rw [extractOperation_eq hquery hrequested, ← search_iff hword hname, Option.some.injEq, scan]
  cases search word (operationRe word (requestedName body)) none query.toList with
  | none => simpa using hnonempty.symm
  | some found => simp [← String.toList_inj]

end Agreement

section Sample

theorem isWordChar_class : WordClass isWordChar where
  names _ h := h
  blanks c h := by
    simp only [isSpace, Bool.or_eq_true, Bool.and_eq_true, decide_eq_true_eq] at h
    by_contra hword
    simp only [isWordChar, Char.isAlphanum, Char.isAlpha, Char.isUpper, Char.isLower, Char.isDigit,
      Bool.not_eq_false, Bool.or_eq_true, Bool.and_eq_true, decide_eq_true_eq, UInt32.le_iff_toNat_le,
      ge_iff_le] at hword
    have hcode : c.toNat = 95 ∨ (48 ≤ c.toNat ∧ c.toNat ≤ 57) ∨ (65 ≤ c.toNat ∧ c.toNat ≤ 90) ∨
        (97 ≤ c.toNat ∧ c.toNat ≤ 122) := by
      rcases hword with ((hupper | hlower) | hdigit) | rfl
      · exact .inr (.inr (.inl hupper))
      · exact .inr (.inr (.inr hlower))
      · exact .inr (.inl hdigit)
      · exact .inl rfl
    omega
  brackets c h := by
    rw [isBracket, Bool.or_eq_true, decide_eq_true_eq, decide_eq_true_eq] at h
    rcases h with rfl | rfl
    · decide
    · decide

def fragmentQuery : String :=
  "mutation($i:LoginInput!)\x7b...Credentials\x7d fragment Credentials on AuthMutation\x7blogin(input:$i)\x7bsessionId\x7d\x7d"

def parseQueries (query : String) : Option Document :=
  if query = fragmentQuery then
    some [.operation .mutation none [⟨"i", none⟩] [.fragmentSpread "Credentials" []],
      .fragment "Credentials" "AuthMutation" [loginField none]]
  else parseSample query

theorem parseQueries_named : ∀ text document, parseQueries text = some document →
    namedDocument document = true := by
  intro text document h
  unfold parseQueries parseSample at h
  split_ifs at h <;> cases h <;> decide +kernel

theorem scan_agrees_login : extractOperation isWordChar (bodyOf loginQuery) = some "login" := by
  have hmid : "($i:LoginInput!)".toList = '(' :: "$i:LoginInput!)".toList := by decide +kernel
  have hboundary : ∀ (rest : List Char) c cs, "($i:LoginInput!)".toList ++ rest = c :: cs →
      isWordChar c = false := by
    intro rest c cs h
    rw [hmid, List.cons_append, List.cons.injEq] at h
    rw [← h.1]
    decide
  have hnobrace : "($i:LoginInput!)".toList.all (fun c => c ≠ '{') = true := by decide +kernel
  have hletters : "login".toList ≠ [] ∧ "login".toList.all isWordChar = true := by decide +kernel
  rw [List.all_eq_true] at hnobrace hletters
  have hsite : FirstSite isWordChar none loginQuery.toList "login".toList :=
    @firstSite_plain isWordChar isWordChar_class none (by simp) [] "login".toList []
      "input:$i)\x7bsessionId\x7d\x7d".toList '(' "mutation".toList "($i:LoginInput!)".toList rfl
      (hboundary _) (fun c hc => of_decide_eq_true (hnobrace c hc)) (by simp) (by simp) hletters.1
      hletters.2 (by simp) rfl
  have hparse : parseQueries loginQuery =
      some [.operation .mutation none [⟨"i", none⟩] [loginField none]] := by
    rw [parseQueries, if_neg (by decide +kernel), parseSample, if_pos rfl]
  obtain ⟨op, hop, field, rest, hroot, hname⟩ : ∃ op,
      selectedOperation [.operation .mutation none [⟨"i", none⟩] [loginField none]]
        (bodyOf loginQuery) =
        some op ∧ ∃ field rest, op.rootFields = field :: rest ∧ field.name = "login" :=
    ⟨_, rfl, _, _, rfl, rfl⟩
  rw [← hname] at hsite ⊢
  exact (scan_agrees_iff isWordChar_class parseQueries_named rfl hparse hop hroot).2 hsite

/-- A login in a fragment is taken for the type of the fragment. -/
theorem fragment_login_misread :
    ∃ document op field rest, (bodyOf fragmentQuery).get "query" = some (.string fragmentQuery) ∧
      parseQueries fragmentQuery = some document ∧
      selectedOperation document (bodyOf fragmentQuery) = some op ∧ op.type = .mutation ∧
      op.rootFields = field :: rest ∧ field.name = "login" ∧
      extractOperation isWordChar (bodyOf fragmentQuery) = some "AuthMutation" :=
  ⟨_, _, _, _, rfl, rfl, rfl, rfl, rfl, rfl, by decide +kernel⟩

end Sample

end AuthService.OperationScan
