import Mathlib.Data.List.TakeWhile
import Mathlib.Tactic
import AuthService.Uuids

set_option autoImplicit false

/-! The operations on `str` that the service uses. -/
namespace AuthService.PythonText
open Uuids

/-- `str.isspace` for one character. -/
def isSpace (c : Char) : Bool :=
  let n := c.toNat
  (9 ≤ n && n ≤ 13) || (28 ≤ n && n ≤ 32) || n = 0x85 || n = 0xA0 || n = 0x1680 ||
    (0x2000 ≤ n && n ≤ 0x200A) || n = 0x2028 || n = 0x2029 || n = 0x202F || n = 0x205F || n = 0x3000

def strip (s : String) : String := String.ofList (stripChars isSpace s.toList)

/-- The Unicode tables behind `str.lower`, `str.isdigit` and `repr`. -/
structure Unicode where
  lower : Char → List Char
  isDigit : Char → Bool
  repr : String → String
  lower_ne_nil : ∀ c, lower c ≠ []
  lower_ascii : ∀ c, c.toNat < 128 → lower c = [c.toLower]
  lower_not_upper : ∀ c, ∀ d ∈ lower c, d.isUpper = false
  lower_space : ∀ c, ∀ d ∈ lower c, isSpace d = isSpace c

def Unicode.lowerText (u : Unicode) (s : String) : String :=
  String.ofList (s.toList.flatMap u.lower)

/-- `s.split(":", 1)`, when it gives two parts. -/
def splitColon (s : String) : Option (String × String) :=
  match s.toList.dropWhile (fun c => c != ':') with
  | [] => none
  | _ :: rest => some (String.ofList (s.toList.takeWhile (fun c => c != ':')), String.ofList rest)

def startsWith (p s : String) : Bool := p.toList.isPrefixOf s.toList

def removePrefix (p s : String) : String :=
  if startsWith p s then String.ofList (s.toList.drop p.toList.length) else s

theorem splitColon_append (a b : String) (h : ':' ∉ a.toList) :
    splitColon (a ++ ":" ++ b) = some (a, b) := by
  have hp : ∀ c ∈ a.toList, (c != ':') = true := by
    intro c hc
    simp only [bne_iff_ne, ne_eq]
    rintro rfl
    exact h hc
  have ht : (a ++ ":" ++ b).toList = a.toList ++ ':' :: b.toList := by
    simp [String.toList_append]
  have hdrop : (a.toList ++ ':' :: b.toList).dropWhile (fun c => c != ':') = ':' :: b.toList := by
    rw [List.dropWhile_append_of_pos hp]
    simp
  have htake : (a.toList ++ ':' :: b.toList).takeWhile (fun c => c != ':') = a.toList := by
    rw [List.takeWhile_append_of_pos hp]
    simp
  simp only [splitColon, ht, hdrop, htake, String.ofList_toList]

/-- The text in front of the first colon and the text behind it are determined. -/
theorem colon_append_inj {a b x y : String} (ha : ':' ∉ a.toList) (hb : ':' ∉ b.toList) :
    a ++ ":" ++ x = b ++ ":" ++ y ↔ a = b ∧ x = y := by
  constructor
  · intro h
    have hs := congrArg splitColon h
    rw [splitColon_append a x ha, splitColon_append b y hb] at hs
    simpa using hs
  · rintro ⟨rfl, rfl⟩
    rfl

theorem strip_toList (s : String) : (strip s).toList = stripChars isSpace s.toList := by
  rw [strip, String.toList_ofList]

theorem lowerText_toList (u : Unicode) (s : String) :
    (u.lowerText s).toList = s.toList.flatMap u.lower := by
  rw [Unicode.lowerText, String.toList_ofList]

theorem strip_last (s : String) (cs : List Char) (c : Char)
    (h : (strip s).toList = cs ++ [c]) : isSpace c = false := by
  rw [strip_toList, stripChars] at h
  have hr := congrArg List.reverse h
  simp only [List.reverse_reverse, List.reverse_append, List.reverse_cons, List.reverse_nil,
    List.nil_append, List.cons_append] at hr
  have hne : ((s.toList.dropWhile isSpace).reverse).dropWhile isSpace ≠ [] := by simp [hr]
  have hd := List.head_dropWhile_not isSpace hne
  simpa [hr] using hd

theorem dropWhile_flatMap {p : Char → Bool} {f : Char → List Char} (hne : ∀ c, f c ≠ [])
    (hp : ∀ c, ∀ d ∈ f c, p d = p c) (l : List Char) :
    (l.flatMap f).dropWhile p = (l.dropWhile p).flatMap f := by
  induction l with
  | nil => rfl
  | cons c l ih =>
    cases hc : p c with
    | true =>
      have hall : ∀ d ∈ f c, p d = true := fun d hd => (hp c d hd).trans hc
      rw [List.flatMap_cons, List.dropWhile_append_of_pos hall, ih, List.dropWhile_cons_of_pos hc]
    | false =>
      obtain ⟨d, ds, hd⟩ := List.exists_cons_of_ne_nil (hne c)
      have hfirst : p d = false := (hp c d (by rw [hd]; exact List.mem_cons_self)).trans hc
      rw [List.dropWhile_cons_of_neg (by simp [hc]), List.flatMap_cons, hd, List.cons_append,
        List.dropWhile_cons_of_neg (by simp [hfirst])]

/-- A map of characters that keeps the stripped ones apart can be applied before or after. -/
theorem stripChars_flatMap {p : Char → Bool} {f : Char → List Char} (hne : ∀ c, f c ≠ [])
    (hp : ∀ c, ∀ d ∈ f c, p d = p c) (l : List Char) :
    stripChars p (l.flatMap f) = (stripChars p l).flatMap f := by
  have hne' : ∀ c, (List.reverse ∘ f) c ≠ [] := fun c => by simp [hne c]
  have hp' : ∀ c, ∀ d ∈ (List.reverse ∘ f) c, p d = p c := fun c d hd => hp c d (by simpa using hd)
  rw [stripChars, stripChars, dropWhile_flatMap hne hp, List.reverse_flatMap,
    dropWhile_flatMap hne' hp', List.reverse_flatMap]
  congr 1
  funext c
  simp

theorem strip_lowerText (u : Unicode) (s : String) : strip (u.lowerText s) = u.lowerText (strip s) := by
  refine String.toList_inj.1 ?_
  rw [strip_toList, lowerText_toList, lowerText_toList, strip_toList]
  exact stripChars_flatMap u.lower_ne_nil u.lower_space _

theorem stripChars_map {α β : Type} (p : β → Bool) (f : α → β) (l : List α) :
    stripChars p (l.map f) = (stripChars (fun c => p (f c)) l).map f := by
  rw [stripChars, stripChars, List.dropWhile_map, ← List.map_reverse, List.dropWhile_map,
    ← List.map_reverse]
  rfl

theorem mem_stripChars_of_not {α : Type} {p : α → Bool} {c : α} (h : p c = false) {l : List α} :
    c ∈ stripChars p l ↔ c ∈ l := by
  have hdrop : ∀ l : List α, c ∈ l.dropWhile p ↔ c ∈ l := by
    intro l
    refine ⟨fun hc => List.dropWhile_subset p hc, fun hc => ?_⟩
    rw [← List.takeWhile_append_dropWhile (p := p) (l := l), List.mem_append] at hc
    rcases hc with hc | hc
    · rw [List.mem_takeWhile_imp hc] at h
      cases h
    · exact hc
  rw [stripChars, List.mem_reverse, hdrop, List.mem_reverse, hdrop]

theorem strip_of_no_space (s : String) (h : ∀ c ∈ s.toList, isSpace c = false) : strip s = s := by
  rw [strip, stripChars_absent isSpace s.toList h, String.ofList_toList]

theorem lowerText_of_lower (u : Unicode) (s : String)
    (h : ∀ c ∈ s.toList, c.toNat < 128 ∧ c.isUpper = false) : u.lowerText s = s := by
  have hid : ∀ l : List Char, (∀ c ∈ l, c.toNat < 128 ∧ c.isUpper = false) →
      l.flatMap u.lower = l := by
    intro l
    induction l with
    | nil => intro _; rfl
    | cons c l ih =>
      intro hl
      obtain ⟨ha, hu⟩ := hl c (by simp)
      rw [List.flatMap_cons, ih (fun d hd => hl d (by simp [hd])), u.lower_ascii c ha]
      have hrange : ¬ ('A'.val ≤ c.val ∧ c.val ≤ 'Z'.val) := of_decide_eq_false hu
      have hc : c.toLower = c := by
        unfold Char.toLower
        split
        · rename_i hr
          exact absurd hr hrange
        · rfl
      rw [hc]
      rfl
  rw [Unicode.lowerText, hid _ h, String.ofList_toList]

theorem lowerText_not_upper (u : Unicode) (s : String) :
    ∀ c ∈ (u.lowerText s).toList, c.isUpper = false := by
  intro c hc
  rw [lowerText_toList] at hc
  obtain ⟨d, _, hd⟩ := List.mem_flatMap.1 hc
  exact u.lower_not_upper d c hd

theorem lowerText_strip_last (u : Unicode) (s : String) (cs : List Char) (c : Char)
    (h : (u.lowerText (strip s)).toList = cs ++ [c]) : isSpace c = false := by
  rw [lowerText_toList] at h
  rcases List.eq_nil_or_concat (strip s).toList with hn | ⟨ds, d, hd⟩
  · rw [hn] at h
    simp at h
  · rw [List.concat_eq_append] at hd
    have hsp := strip_last s ds d hd
    rw [hd, List.flatMap_append, List.flatMap_singleton] at h
    have hne := u.lower_ne_nil d
    have hlast : (u.lower d).getLast hne = c := by
      have h1 := congrArg List.getLast? h
      rw [List.getLast?_append, List.getLast?_append, List.getLast?_eq_getLast_of_ne_nil hne] at h1
      simpa using h1
    rw [← hlast, u.lower_space d _ (List.getLast_mem hne), hsp]

/-- A code point of a `str`; an escape in JSON can put a surrogate into one that stands alone. -/
inductive CodePoint where
  | scalar (c : Char)
  | surrogate (n : Fin 2048)
  deriving DecidableEq, Repr

abbrev Text := List CodePoint

namespace CodePoint

/-- A class of characters; no surrogate is in it. -/
def inClass (p : Char → Bool) : CodePoint → Bool
  | .scalar c => p c
  | .surrogate _ => false

def char : CodePoint → Option Char
  | .scalar c => some c
  | .surrogate _ => none

def lower (u : Unicode) : CodePoint → Text
  | .scalar c => (u.lower c).map .scalar
  | .surrogate n => [.surrogate n]

theorem char_eq_some {x : CodePoint} {c : Char} : x.char = some c ↔ x = .scalar c := by
  cases x <;> simp [char]

end CodePoint

namespace Text

def ofString (s : String) : Text := s.toList.map .scalar

/-- The text that `encode()` turns into bytes; a surrogate makes it raise. -/
def encode (t : Text) : Option String := (t.mapM CodePoint.char).map String.ofList

def lower (u : Unicode) (t : Text) : Text := t.flatMap (CodePoint.lower u)

def strip (t : Text) : Text := stripChars (CodePoint.inClass isSpace) t

theorem ofString_inj {s s' : String} : ofString s = ofString s' ↔ s = s' := by
  rw [ofString, ofString, List.map_inj_right (fun _ _ h => CodePoint.scalar.inj h), String.toList_inj]

theorem encode_eq_some {t : Text} {s : String} : t.encode = some s ↔ t = ofString s := by
  have hchars : ∀ (t : Text) (cs : List Char), t.mapM CodePoint.char = some cs ↔
      t = cs.map .scalar := by
    intro t
    induction t with
    | nil => simp [eq_comm]
    | cons x t ih =>
      intro cs
      simp only [List.mapM_cons, Option.bind_eq_bind, Option.bind_eq_some_iff, Option.pure_def,
        Option.some.injEq, CodePoint.char_eq_some, ih]
      cases cs with
      | nil => simp
      | cons c cs => simp [and_comm]
  rw [encode, Option.map_eq_some_iff, ofString]
  constructor
  · rintro ⟨cs, hcs, rfl⟩
    rw [String.toList_ofList]
    exact (hchars t cs).1 hcs
  · intro h
    exact ⟨s.toList, (hchars t _).2 h, String.ofList_toList⟩

@[simp] theorem encode_ofString (s : String) : (ofString s).encode = some s := encode_eq_some.2 rfl

theorem encode_eq_none {t : Text} : t.encode = none ↔ ∃ n, .surrogate n ∈ t := by
  rw [encode, Option.map_eq_none_iff]
  induction t with
  | nil => simp
  | cons x t ih =>
    cases x with
    | scalar c =>
      cases ht : t.mapM CodePoint.char with
      | none => simpa [List.mapM_cons, CodePoint.char, ht] using ih.1 ht
      | some cs => simpa [List.mapM_cons, CodePoint.char, ht] using ih
    | surrogate n => simp [List.mapM_cons, CodePoint.char]

theorem lower_ofString (u : Unicode) (s : String) : (ofString s).lower u =
    ofString (u.lowerText s) := by
  rw [lower, ofString, ofString, lowerText_toList, List.flatMap_map, List.map_flatMap]
  rfl

theorem strip_ofString (s : String) : (ofString s).strip = ofString (PythonText.strip s) := by
  rw [strip, ofString, ofString, strip_toList, stripChars_map]
  rfl

/-- Normalising keeps what cannot be encoded. -/
theorem encode_normalized (u : Unicode) (t : Text) : ((t.lower u).strip).encode = none ↔
    t.encode = none := by
  rw [encode_eq_none, encode_eq_none]
  refine exists_congr fun n => ?_
  rw [strip, mem_stripChars_of_not rfl, lower, List.mem_flatMap]
  constructor
  · rintro ⟨x, hx, hn⟩
    cases x with
    | scalar c => simp [CodePoint.lower] at hn
    | surrogate m =>
      rw [List.mem_singleton.1 hn]
      exact hx
  · exact fun h => ⟨_, h, List.mem_singleton_self _⟩

end Text

end AuthService.PythonText
