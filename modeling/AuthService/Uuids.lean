import Mathlib.Tactic

set_option autoImplicit false

/-! Python's `uuid.UUID`: a 128-bit number, its canonical text and the parser of that text. -/
namespace AuthService.Uuids

structure UUID where
  int : BitVec 128
  deriving DecidableEq, Repr

/-- The last `k` hexadecimal digits of `n`, most significant first. -/
def hexDigits : ℕ → ℕ → List Char
  | 0, _ => []
  | k + 1, n => hexDigits k (n / 16) ++ [Nat.digitChar (n % 16)]

def hexValue (c : Char) : Option ℕ :=
  if '0' ≤ c ∧ c ≤ '9' then some (c.toNat - '0'.toNat)
  else if 'a' ≤ c ∧ c ≤ 'f' then some (c.toNat - 'a'.toNat + 10)
  else if 'A' ≤ c ∧ c ≤ 'F' then some (c.toNat - 'A'.toNat + 10)
  else none

def stripChars {α : Type} (p : α → Bool) (cs : List α) : List α :=
  ((cs.dropWhile p).reverse.dropWhile p).reverse

/-- The first of the ten decimal digits of each script (Unicode 15.0). -/
def zeroDigits : List ℕ :=
  [0x30, 0x660, 0x6f0, 0x7c0, 0x966, 0x9e6, 0xa66, 0xae6, 0xb66, 0xbe6, 0xc66, 0xce6, 0xd66, 0xde6,
    0xe50, 0xed0, 0xf20, 0x1040, 0x1090, 0x17e0, 0x1810, 0x1946, 0x19d0, 0x1a80, 0x1a90, 0x1b50,
    0x1bb0, 0x1c40, 0x1c50, 0xa620, 0xa8d0, 0xa900, 0xa9d0, 0xa9f0, 0xaa50, 0xabf0, 0xff10, 0x104a0,
    0x10d30, 0x11066, 0x110f0, 0x11136, 0x111d0, 0x112f0, 0x11450, 0x114d0, 0x11650, 0x116c0,
    0x11730, 0x118e0, 0x11950, 0x11c50, 0x11d50, 0x11da0, 0x11f50, 0x16a60, 0x16ac0, 0x16b50,
    0x1d7ce, 0x1d7d8, 0x1d7e2, 0x1d7ec, 0x1d7f6, 0x1e140, 0x1e2f0, 0x1e4f0, 0x1e950, 0x1fbf0]

def isWideSpace (c : Char) : Bool :=
  let n := c.toNat
  n = 0x85 || n = 0xA0 || n = 0x1680 || (0x2000 ≤ n && n ≤ 0x200A) || n = 0x2028 || n = 0x2029 ||
    n = 0x202F || n = 0x205F || n = 0x3000

/-- `_PyUnicode_TransformDecimalAndSpaceToASCII`, for one character. -/
def toAscii (c : Char) : Char :=
  if c.toNat < 127 then c
  else if isWideSpace c then ' '
  else
    match zeroDigits.find? (fun z => z ≤ c.toNat && c.toNat < z + 10) with
    | some z => Nat.digitChar (c.toNat - z)
    | none => '?'

/-- The white space that `int` passes over. -/
def isBlank (c : Char) : Bool := (9 ≤ c.toNat && c.toNat ≤ 13) || c = ' '

def dropSign : List Char → List Char
  | '+' :: cs => cs
  | cs => cs

def dropUnderscore : List Char → List Char
  | '_' :: cs => cs
  | cs => cs

/-- An optional `0x`, which one underscore may follow. -/
def dropBase : List Char → List Char
  | '0' :: 'x' :: cs => dropUnderscore cs
  | '0' :: 'X' :: cs => dropUnderscore cs
  | cs => cs

/-- Digits with single underscores between them; `gap` says that no digit has just been read. -/
def readDigits : Bool → ℕ → List Char → Option ℕ
  | gap, acc, [] => if gap then none else some acc
  | gap, acc, c :: cs =>
    if c = '_' then if gap then none else readDigits true acc cs
    else (hexValue c).bind fun d => readDigits false (16 * acc + d) cs

/-- `int(text, 16)` of a text without hyphens, so without a minus sign. -/
def int16 (cs : List Char) : Option ℕ :=
  readDigits true 0 (dropBase (dropSign (stripChars isBlank (cs.map toAscii))))

def UUID.hex (u : UUID) : List Char := hexDigits 32 u.int.toNat

def dashed (h : List Char) : List Char :=
  h.take 8 ++ '-' :: ((h.drop 8).take 4 ++ '-' :: ((h.drop 12).take 4 ++
    '-' :: ((h.drop 16).take 4 ++ '-' :: h.drop 20)))

/-- `str(u)`: groups of 8, 4, 4, 4 and 12 lower-case digits. -/
def UUID.str (u : UUID) : String := String.ofList (dashed u.hex)

/-- `s.replace(w, "")`; the counter skips the rest of an occurrence just found. -/
def eraseWord (w : List Char) : ℕ → List Char → List Char
  | _, [] => []
  | skip + 1, _ :: cs => eraseWord w skip cs
  | 0, c :: cs =>
    if w.isPrefixOf (c :: cs) then eraseWord w (w.length - 1) cs else c :: eraseWord w 0 cs

def isBrace (c : Char) : Bool := c = '{' || c = '}'

/-- `UUID(s)`: without its URN prefix, braces and hyphens the text has 32 characters, which `int`
reads in base 16. -/
def UUID.parse (s : String) : Option UUID :=
  let h := eraseWord "uuid:".toList 0 (eraseWord "urn:".toList 0 s.toList)
  let h := (stripChars isBrace h).filter (fun c => c != '-')
  if h.length = 32 then (int16 h).map (fun n => ⟨BitVec.ofNat 128 n⟩) else none

def isHexChar (c : Char) : Prop := ∃ d, d < 16 ∧ c = Nat.digitChar d

theorem hexDigits_length (k n : ℕ) : (hexDigits k n).length = k := by
  induction k generalizing n with
  | zero => rfl
  | succ k ih => simp [hexDigits, ih]

theorem hexDigits_hex (k n : ℕ) : ∀ c ∈ hexDigits k n, isHexChar c := by
  induction k generalizing n with
  | zero => simp [hexDigits]
  | succ k ih =>
    intro c hc
    rcases List.mem_append.1 hc with hc | hc
    · exact ih _ c hc
    · exact ⟨n % 16, Nat.mod_lt _ (by decide), List.mem_singleton.1 hc⟩

theorem hexValue_digitChar (d : ℕ) (h : d < 16) : hexValue (Nat.digitChar d) = some d := by
  interval_cases d <;> decide

theorem digitChar_ne (d : ℕ) (h : d < 16) :
    Nat.digitChar d ≠ '-' ∧ Nat.digitChar d ≠ ':' ∧ isBrace (Nat.digitChar d) = false := by
  interval_cases d <;> decide

theorem digitChar_plain (d : ℕ) (h : d < 16) :
    toAscii (Nat.digitChar d) = Nat.digitChar d ∧ isBlank (Nat.digitChar d) = false ∧
      Nat.digitChar d ∉ ['+', '_', 'x', 'X'] := by
  interval_cases d <;> decide

theorem hex_length (u : UUID) : u.hex.length = 32 := hexDigits_length _ _

theorem dashed_filter (h : List Char) (hh : ∀ c ∈ h, isHexChar c) :
    (dashed h).filter (fun c => c != '-') = h := by
  have keep : ∀ l : List Char, l ⊆ h → l.filter (fun c => c != '-') = l := by
    intro l hl
    refine List.filter_eq_self.2 fun c hc => ?_
    obtain ⟨d, hd, rfl⟩ := hh c (hl hc)
    simp [(digitChar_ne d hd).1]
  have sub : ∀ i j, (h.drop i).take j ⊆ h := fun i j =>
    List.Subset.trans (List.take_subset _ _) (List.drop_subset _ _)
  simp only [dashed, List.filter_append, List.filter_cons, bne_self_eq_false,
    keep _ (List.take_subset _ _), keep _ (sub _ _), keep _ (List.drop_subset _ _)]
  have e8 := List.take_append_drop 4 (h.drop 8)
  have e12 := List.take_append_drop 4 (h.drop 12)
  have e16 := List.take_append_drop 4 (h.drop 16)
  simp only [List.drop_drop, Nat.reduceAdd] at e8 e12 e16
  simp only [Bool.false_eq_true, ↓reduceIte, e16, e12, e8, List.take_append_drop]

theorem dashed_chars (h : List Char) (hh : ∀ c ∈ h, isHexChar c) :
    ∀ c ∈ dashed h, c = '-' ∨ isHexChar c := by
  intro c hc
  simp only [dashed, List.mem_append, List.mem_cons] at hc
  have ht : ∀ i j, c ∈ (h.drop i).take j → isHexChar c := fun i j hm =>
    hh c (List.drop_subset _ _ (List.take_subset _ _ hm))
  rcases hc with hc | hc | hc | hc | hc | hc | hc | hc | hc
  · exact .inr (hh c (List.take_subset _ _ hc))
  · exact .inl hc
  · exact .inr (ht _ _ hc)
  · exact .inl hc
  · exact .inr (ht _ _ hc)
  · exact .inl hc
  · exact .inr (ht _ _ hc)
  · exact .inl hc
  · exact .inr (hh c (List.drop_subset _ _ hc))

theorem str_chars (u : UUID) : ∀ c ∈ u.str.toList, c = '-' ∨ isHexChar c := by
  rw [UUID.str, String.toList_ofList]
  exact dashed_chars _ (hexDigits_hex _ _)

theorem str_colon (u : UUID) : ':' ∉ u.str.toList := by
  intro h
  rcases str_chars u _ h with h | ⟨d, hd, h⟩
  · exact absurd h (by decide)
  · exact (digitChar_ne d hd).2.1 h.symm

theorem eraseWord_absent (w cs : List Char) (a : Char) (hw : a ∈ w) (hcs : a ∉ cs) :
    eraseWord w 0 cs = cs := by
  induction cs with
  | nil => rfl
  | cons c cs ih =>
    have hpre : w.isPrefixOf (c :: cs) = false := by
      rw [Bool.eq_false_iff]
      intro hp
      exact hcs ((List.isPrefixOf_iff_prefix.1 hp).subset hw)
    simp only [eraseWord, hpre, Bool.false_eq_true, ↓reduceIte]
    rw [ih (fun hm => hcs (List.mem_cons_of_mem _ hm))]

theorem stripChars_absent {α : Type} (p : α → Bool) (cs : List α) (h : ∀ c ∈ cs, p c = false) :
    stripChars p cs = cs := by
  have drop : ∀ l : List α, (∀ c ∈ l, p c = false) → l.dropWhile p = l := by
    intro l hl
    cases l with
    | nil => rfl
    | cons c l => simp [hl c (by simp)]
  rw [stripChars, drop cs h, drop cs.reverse (by simpa using h), List.reverse_reverse]

theorem readDigits_digit (gap : Bool) (acc d : ℕ) (hd : d < 16) (cs : List Char) :
    readDigits gap acc (Nat.digitChar d :: cs) = readDigits false (16 * acc + d) cs := by
  have hne : Nat.digitChar d ≠ '_' := fun he => (digitChar_plain d hd).2.2 (by simp [he])
  rw [readDigits, if_neg hne, hexValue_digitChar d hd, Option.bind_some]

theorem readDigits_hexDigits (k n acc : ℕ) (gap : Bool) (cs : List Char) :
    readDigits gap acc (hexDigits (k + 1) n ++ cs) =
      readDigits false (16 ^ (k + 1) * acc + n % 16 ^ (k + 1)) cs := by
  have hd : n % 16 < 16 := Nat.mod_lt _ (by decide)
  induction k generalizing n acc gap cs with
  | zero => simpa [hexDigits] using readDigits_digit gap acc _ hd cs
  | succ k ih =>
    rw [hexDigits, List.append_assoc, List.singleton_append,
      ih (n / 16) acc gap _ (Nat.mod_lt _ (by decide)), readDigits_digit _ _ _ hd]
    congr 1
    rw [pow_succ 16 (k + 1), Nat.mul_comm (16 ^ (k + 1)) 16, Nat.mod_mul]
    ring

/-- Digits are read as they stand: no sign, no base and no white space is dropped. -/
theorem int16_hexDigits (k n : ℕ) : int16 (hexDigits (k + 1) n) = some (n % 16 ^ (k + 1)) := by
  have hplain : ∀ c ∈ hexDigits (k + 1) n,
      toAscii c = c ∧ isBlank c = false ∧ c ∉ ['+', '_', 'x', 'X'] := by
    intro c hc
    obtain ⟨d, hd, rfl⟩ := hexDigits_hex _ _ c hc
    exact digitChar_plain d hd
  have hmap : (hexDigits (k + 1) n).map toAscii = hexDigits (k + 1) n := by
    rw [List.map_congr_left (fun c hc => (hplain c hc).1), List.map_id']
  have hsign : ∀ cs : List Char, (∀ c ∈ cs, c ∉ ['+', '_', 'x', 'X']) → dropSign cs = cs := by
    intro cs hcs
    unfold dropSign
    split
    · simp at hcs
    · rfl
  have hbase : ∀ cs : List Char, (∀ c ∈ cs, c ∉ ['+', '_', 'x', 'X']) → dropBase cs = cs := by
    intro cs hcs
    unfold dropBase
    split
    · simp at hcs
    · simp at hcs
    · rfl
  have hdigits := readDigits_hexDigits k n 0 true []
  rw [List.append_nil, Nat.mul_zero, Nat.zero_add] at hdigits
  rw [int16, hmap, stripChars_absent _ _ (fun c hc => (hplain c hc).2.1),
    hsign _ (fun c hc => (hplain c hc).2.2), hbase _ (fun c hc => (hplain c hc).2.2), hdigits]
  rfl

/-- Parsing gives back the identifier that was printed. -/
@[simp] theorem parse_str (u : UUID) : UUID.parse u.str = some u := by
  have hc := str_colon u
  have hb : ∀ c ∈ u.str.toList, isBrace c = false := by
    intro c hm
    rcases str_chars u c hm with rfl | ⟨d, hd, rfl⟩
    · decide
    · exact (digitChar_ne d hd).2.2
  have hf : u.str.toList.filter (fun c => c != '-') = u.hex := by
    rw [UUID.str, String.toList_ofList]
    exact dashed_filter _ (hexDigits_hex _ _)
  have hv : int16 u.hex = some u.int.toNat := by
    rw [UUID.hex, int16_hexDigits, Nat.mod_eq_of_lt]
    exact lt_of_lt_of_eq u.int.isLt (by norm_num)
  simp only [UUID.parse]
  rw [eraseWord_absent "urn:".toList _ ':' (by decide) hc,
    eraseWord_absent "uuid:".toList _ ':' (by decide) hc, stripChars_absent _ _ hb, hf,
    if_pos (hex_length u), hv]
  simp

theorem str_injective : Function.Injective UUID.str := by
  intro u v h
  have hp := congrArg UUID.parse h
  simpa using hp

@[simp] theorem str_inj {u v : UUID} : u.str = v.str ↔ u = v := str_injective.eq_iff

theorem str_ne_empty (u : UUID) : u.str ≠ "" := by
  intro h
  have hp := parse_str u
  rw [h] at hp
  revert hp
  rw [show UUID.parse "" = none by decide]
  simp

end AuthService.Uuids
