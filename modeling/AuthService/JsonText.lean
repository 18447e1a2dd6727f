import Mathlib.Data.List.Basic
import Mathlib.Data.Nat.Notation
import Mathlib.Tactic.IntervalCases

set_option autoImplicit false

/-! JSON values and the text that a compact ASCII printer writes for them: different
values have different texts. -/
namespace AuthService.JsonText

def hexDigit (n : ℕ) : Char := if n < 10 then Char.ofNat (48 + n) else Char.ofNat (87 + n)

def unhexDigit (c : Char) : ℕ := if c.toNat < 58 then c.toNat - 48 else c.toNat - 87

def hex4 (n : ℕ) : List Char :=
  [hexDigit (n / 4096 % 16), hexDigit (n / 256 % 16), hexDigit (n / 16 % 16), hexDigit (n % 16)]

def unhex4 (a b c d : Char) : ℕ :=
  4096 * unhexDigit a + 256 * unhexDigit b + 16 * unhexDigit c + unhexDigit d

def unicodeEscape (n : ℕ) : List Char := '\\' :: 'u' :: hex4 n

/-- A character outside printable ASCII; beyond the first plane as a surrogate pair. -/
def escapeCode (n : ℕ) : List Char :=
  if n < 65536 then unicodeEscape n
  else
    unicodeEscape (55296 + (n - 65536) / 1024 % 1024) ++ unicodeEscape (56320 + (n - 65536) % 1024)

def escapeChar (c : Char) : List Char :=
  if c = '"' then ['\\', '"']
  else if c = '\\' then ['\\', '\\']
  else if c = '\n' then ['\\', 'n']
  else if c = '\r' then ['\\', 'r']
  else if c = '\t' then ['\\', 't']
  else if c = '\x0c' then ['\\', 'f']
  else if c = '\x08' then ['\\', 'b']
  else if 32 ≤ c.toNat ∧ c.toNat ≤ 126 then [c]
  else escapeCode c.toNat

def readChar : List Char → Option (Char × List Char)
  | '\\' :: 'u' :: a :: b :: c :: d :: rest =>
    let n := unhex4 a b c d
    if 55296 ≤ n ∧ n < 56320 then
      match rest with
      | '\\' :: 'u' :: a' :: b' :: c' :: d' :: rest =>
        some (Char.ofNat (65536 + (n - 55296) * 1024 + (unhex4 a' b' c' d' - 56320)), rest)
      | _ => none
    else some (Char.ofNat n, rest)
  | '\\' :: c :: rest =>
    if c = 'n' then some ('\n', rest)
    else if c = 'r' then some ('\r', rest)
    else if c = 't' then some ('\t', rest)
    else if c = 'f' then some ('\x0c', rest)
    else if c = 'b' then some ('\x08', rest)
    else some (c, rest)
  | c :: rest => some (c, rest)
  | [] => none

theorem unhexDigit_hexDigit {n : ℕ} (h : n < 16) : unhexDigit (hexDigit n) = n := by
  interval_cases n <;> rfl

theorem unhex4_hex4 {n : ℕ} (h : n < 65536) :
    unhex4 (hexDigit (n / 4096 % 16)) (hexDigit (n / 256 % 16)) (hexDigit (n / 16 % 16))
      (hexDigit (n % 16)) = n := by
  unfold unhex4
  rw [unhexDigit_hexDigit (Nat.mod_lt _ (by decide)), unhexDigit_hexDigit (Nat.mod_lt _ (by decide)),
    unhexDigit_hexDigit (Nat.mod_lt _ (by decide)), unhexDigit_hexDigit (Nat.mod_lt _ (by decide))]
  omega

/-- No character is a lone surrogate. -/
theorem char_not_surrogate (c : Char) : ¬ (55296 ≤ c.toNat ∧ c.toNat < 57344) := by
  have h := c.valid
  have hn : c.val.toNat = c.toNat := rfl
  rcases h with h | ⟨h, -⟩ <;> omega

theorem readChar_escapeCode (c : Char) (rest : List Char) :
    readChar (escapeCode c.toNat ++ rest) = some (c, rest) := by
  have hsur := char_not_surrogate c
  have hmax : c.toNat < 1114112 := by
    have h := c.valid
    have hn : c.val.toNat = c.toNat := rfl
    rcases h with h | ⟨-, h⟩ <;> omega
  unfold escapeCode
  split_ifs with h
  · simp only [unicodeEscape, hex4, List.cons_append, List.nil_append, readChar, unhex4_hex4 h]
    rw [if_neg (by omega), Char.ofNat_toNat]
  · have hhigh : 55296 + (c.toNat - 65536) / 1024 % 1024 < 65536 := by omega
    have hlow : 56320 + (c.toNat - 65536) % 1024 < 65536 := by omega
    simp only [unicodeEscape, hex4, List.cons_append, List.nil_append, readChar,
      unhex4_hex4 hhigh, unhex4_hex4 hlow]
    rw [if_pos (by omega)]
    have hn : 65536 + (55296 + (c.toNat - 65536) / 1024 % 1024 - 55296) * 1024 +
        (56320 + (c.toNat - 65536) % 1024 - 56320) = c.toNat := by omega
    rw [hn, Char.ofNat_toNat]

theorem readChar_escapeChar (c : Char) (rest : List Char) :
    readChar (escapeChar c ++ rest) = some (c, rest) := by
  unfold escapeChar
  split_ifs with h1 h2 h3 h4 h5 h6 h7 h8
  · subst h1; rfl
  · subst h2; rfl
  · subst h3; rfl
  · subst h4; rfl
  · subst h5; rfl
  · subst h6; rfl
  · subst h7; rfl
  · simp [readChar, h2]
  · exact readChar_escapeCode c rest

theorem escapeChar_ne_nil (c : Char) : escapeChar c ≠ [] := by
  intro h
  have hread := readChar_escapeChar c []
  rw [h] at hread
  cases hread

theorem escapeChar_ne_quote (c : Char) (rest tail : List Char) :
    escapeChar c ++ rest ≠ '"' :: tail := by
  unfold escapeChar
  split_ifs with h1 h2 h3 h4 h5 h6 h7 h8
  all_goals simp
  · exact fun h => absurd h h1
  · unfold escapeCode
    split_ifs <;> simp [unicodeEscape]

def delimits (c : Char) : Bool := c = ',' || c = ']' || c = '}'

def leadsNumber (c : Char) : Bool := ('0' ≤ c && c ≤ '9') || c = '-' || c = 'N' || c = 'I'

def isNumeral : List Char → Bool
  | [] => false
  | c :: cs => leadsNumber c && !delimits c && cs.all (fun d => !delimits d)

/-- A number stands by the text it is printed as. -/
structure Numeral where
  text : String
  numeral : isNumeral text.toList = true
  deriving DecidableEq

/-- An object is kept in the order of its keys, the order in which it is printed. -/
inductive Json where
  | null
  | bool (b : Bool)
  | number (n : Numeral)
  | string (s : String)
  | array (items : List Json)
  | object (fields : List (String × Json))

def writeString : List Char → List Char → List Char
  | [], k => '"' :: k
  | c :: cs, k => escapeChar c ++ writeString cs k

mutual

/-- The text of a value in front of `k`. -/
def Json.write : Json → List Char → List Char
  | .null, k => 'n' :: 'u' :: 'l' :: 'l' :: k
  | .bool true, k => 't' :: 'r' :: 'u' :: 'e' :: k
  | .bool false, k => 'f' :: 'a' :: 'l' :: 's' :: 'e' :: k
  | .number n, k => n.text.toList ++ k
  | .string s, k => '"' :: writeString s.toList k
  | .array [], k => '[' :: ']' :: k
  | .array (x :: xs), k => '[' :: x.write (writeItems xs (']' :: k))
  | .object [], k => '{' :: '}' :: k
  | .object ((name, x) :: fields), k =>
    '{' :: '"' :: writeString name.toList (':' :: ' ' :: x.write (writeFields fields ('}' :: k)))

def writeItems : List Json → List Char → List Char
  | [], k => k
  | x :: xs, k => ',' :: ' ' :: x.write (writeItems xs k)

def writeFields : List (String × Json) → List Char → List Char
  | [], k => k
  | (name, x) :: fields, k =>
    ',' :: ' ' :: '"' :: writeString name.toList (':' :: ' ' :: x.write (writeFields fields k))

end

/-- `json.dumps(value, sort_keys=True)`. -/
def Json.dumps (j : Json) : String := String.ofList (j.write [])

theorem writeString_inj {cs ds k l : List Char} (h : writeString cs k = writeString ds l) :
    cs = ds ∧ k = l := by
  induction cs generalizing ds with
  | nil =>
    cases ds with
    | nil => simpa [writeString] using h
    | cons d ds => exact absurd h.symm (escapeChar_ne_quote d _ _)
  | cons c cs ih =>
    cases ds with
    | nil => exact absurd h (escapeChar_ne_quote c _ _)
    | cons d ds =>
      have hread := congrArg readChar h
      simp only [writeString, readChar_escapeChar, Option.some.injEq, Prod.mk.injEq] at hread
      obtain ⟨rfl, hrest⟩ := hread
      obtain ⟨rfl, rfl⟩ := ih hrest
      exact ⟨rfl, rfl⟩

/-- What may follow a value. -/
def Ends (k : List Char) : Prop := ∀ c rest, k = c :: rest → delimits c = true

theorem Numeral.lead (n : Numeral) : ∃ c cs, n.text.toList = c :: cs ∧ leadsNumber c = true ∧
    delimits c = false ∧ ∀ d ∈ cs, delimits d = false := by
  have h := n.numeral
  cases hcs : n.text.toList with
  | nil => rw [hcs] at h; cases h
  | cons c cs =>
    rw [hcs, isNumeral, Bool.and_eq_true, Bool.and_eq_true] at h
    exact ⟨c, cs, rfl, h.1.1, by simpa using h.1.2, by simpa using h.2⟩

theorem plain_append_inj {cs ds k l : List Char} (hcs : ∀ c ∈ cs, delimits c = false)
    (hds : ∀ d ∈ ds, delimits d = false) (hk : Ends k) (hl : Ends l) (h : cs ++ k = ds ++ l) :
    cs = ds ∧ k = l := by
  induction cs generalizing ds with
  | nil =>
    cases ds with
    | nil => exact ⟨rfl, h⟩
    | cons d ds =>
      have hd := hk d (ds ++ l) h
      rw [hds d (by simp)] at hd
      cases hd
  | cons c cs ih =>
    cases ds with
    | nil =>
      have hc := hl c (cs ++ k) h.symm
      rw [hcs c (by simp)] at hc
      cases hc
    | cons d ds =>
      simp only [List.cons_append, List.cons.injEq] at h
      obtain ⟨rfl, h⟩ := h
      obtain ⟨rfl, rfl⟩ := ih (fun c hc => hcs c (by simp [hc])) (fun d hd => hds d (by simp [hd])) h
      exact ⟨rfl, rfl⟩

def Json.leads : Json → Char → Bool
  | .null, c => c = 'n'
  | .bool true, c => c = 't'
  | .bool false, c => c = 'f'
  | .number _, c => leadsNumber c
  | .string _, c => c = '"'
  | .array _, c => c = '['
  | .object _, c => c = '{'

theorem Json.write_lead (j : Json) (k : List Char) : ∃ c rest, j.write k = c :: rest ∧ j.leads c =
    true := by
  match j with
  | .null => exact ⟨_, _, by rw [Json.write], rfl⟩
  | .bool true => exact ⟨_, _, by rw [Json.write], rfl⟩
  | .bool false => exact ⟨_, _, by rw [Json.write], rfl⟩
  | .number n =>
    obtain ⟨c, cs, hcs, hc, -⟩ := n.lead
    exact ⟨c, cs ++ k, by rw [Json.write, hcs, List.cons_append], hc⟩
  | .string s => exact ⟨_, _, by rw [Json.write], rfl⟩
  | .array [] => exact ⟨_, _, by rw [Json.write], rfl⟩
  | .array (x :: xs) => exact ⟨_, _, by rw [Json.write], rfl⟩
  | .object [] => exact ⟨_, _, by rw [Json.write], rfl⟩
  | .object ((name, x) :: fields) => exact ⟨_, _, by rw [Json.write], rfl⟩

def Json.kind : Json → ℕ
  | .null => 0
  | .bool true => 1
  | .bool false => 2
  | .number _ => 3
  | .string _ => 4
  | .array _ => 5
  | .object _ => 6

theorem Json.kind_of_leads {a b : Json} {c : Char} (ha : a.leads c = true) (hb : b.leads c = true) :
    a.kind = b.kind := by
  rcases a with _ | (_ | _) | _ | _ | _ | _ <;> rcases b with _ | (_ | _) | _ | _ | _ | _ <;>
    simp only [Json.leads, decide_eq_true_eq, Json.kind] at ha hb ⊢ <;>
    first
      | (subst ha; revert hb; decide)
      | (subst hb; revert ha; decide)

theorem Json.kind_of_eq {a b : Json} {k l : List Char} (h : a.write k = b.write l) :
    a.kind = b.kind := by
  obtain ⟨c, rest, ha, hc⟩ := a.write_lead k
  obtain ⟨d, rest', hb, hd⟩ := b.write_lead l
  rw [ha, hb, List.cons.injEq] at h
  exact Json.kind_of_leads hc (h.1 ▸ hd)

theorem Json.write_ne_close (j : Json) (k rest : List Char) : j.write k ≠ ']' :: rest := by
  intro h
  obtain ⟨c, rest', hw, hc⟩ := j.write_lead k
  rw [hw, List.cons.injEq] at h
  rw [h.1] at hc
  rcases j with _ | (_ | _) | _ | _ | _ | _ <;> simp only [Json.leads] at hc <;> revert hc <;> decide

theorem ends_items (xs : List Json) (k : List Char) : Ends (writeItems xs (']' :: k)) := by
  cases xs <;> (rw [writeItems]; intro c rest h; cases h; rfl)

theorem ends_fields (fields : List (String × Json)) (k : List Char) :
    Ends (writeFields fields ('}' :: k)) := by
  rcases fields with _ | ⟨⟨name, x⟩, fields⟩ <;> (rw [writeFields]; intro c rest h; cases h; rfl)

mutual

theorem Json.write_inj : ∀ (a b : Json) {k l : List Char}, Ends k → Ends l →
    a.write k = b.write l → a = b ∧ k = l
  | .null, b, k, l, _, _, h => by
    have hkind := Json.kind_of_eq h
    rcases b with _ | (_ | _) | _ | _ | _ | _ <;> cases hkind
    simpa [Json.write] using h
  | .bool true, b, k, l, _, _, h => by
    have hkind := Json.kind_of_eq h
    rcases b with _ | (_ | _) | _ | _ | _ | _ <;> cases hkind
    simpa [Json.write] using h
  | .bool false, b, k, l, _, _, h => by
    have hkind := Json.kind_of_eq h
    rcases b with _ | (_ | _) | _ | _ | _ | _ <;> cases hkind
    simpa [Json.write] using h
  | .number n, b, k, l, hk, hl, h => by
    have hkind := Json.kind_of_eq h
    rcases b with _ | (_ | _) | m | _ | _ | _ <;> cases hkind
    obtain ⟨c, cs, hcs, hc, hcd, hplain⟩ := n.lead
    obtain ⟨d, ds, hds, hd, hdd, hplain'⟩ := m.lead
    have hn : ∀ x ∈ n.text.toList, delimits x = false := by
      rw [hcs]
      simpa [hcd] using hplain
    have hm : ∀ x ∈ m.text.toList, delimits x = false := by
      rw [hds]
      simpa [hdd] using hplain'
    simp only [Json.write] at h
    obtain ⟨htext, hrest⟩ := plain_append_inj hn hm hk hl h
    obtain ⟨t, ht⟩ := n
    obtain ⟨t', ht'⟩ := m
    obtain rfl : t = t' := String.toList_inj.1 htext
    exact ⟨rfl, hrest⟩
  | .string s, b, k, l, _, _, h => by
    have hkind := Json.kind_of_eq h
    rcases b with _ | (_ | _) | _ | t | _ | _ <;> cases hkind
    simp only [Json.write, List.cons.injEq, true_and] at h
    obtain ⟨hs, hrest⟩ := writeString_inj h
    exact ⟨by rw [String.toList_inj.1 hs], hrest⟩
  | .array xs, b, k, l, _, _, h => by
    have hkind := Json.kind_of_eq h
    rcases b with _ | (_ | _) | _ | _ | ys | _ <;> cases hkind
    cases xs with
    | nil =>
      cases ys with
      | nil => simpa [Json.write] using h
      | cons y ys =>
        simp only [Json.write, List.cons.injEq, true_and] at h
        exact absurd h.symm (Json.write_ne_close _ _ _)
    | cons x xs =>
      cases ys with
      | nil =>
        simp only [Json.write, List.cons.injEq, true_and] at h
        exact absurd h (Json.write_ne_close _ _ _)
      | cons y ys =>
        simp only [Json.write, List.cons.injEq, true_and] at h
        obtain ⟨rfl, hitems⟩ := Json.write_inj x y (ends_items xs k) (ends_items ys l) h
        obtain ⟨rfl, rfl⟩ := writeItems_inj xs ys hitems
        exact ⟨rfl, rfl⟩
  | .object fields, b, k, l, _, _, h => by
    have hkind := Json.kind_of_eq h
    rcases b with _ | (_ | _) | _ | _ | _ | fields' <;> cases hkind
    rcases fields with _ | ⟨⟨name, x⟩, fields⟩
    · rcases fields' with _ | ⟨⟨name', y⟩, fields'⟩
      · simpa [Json.write] using h
      · simp [Json.write] at h
    · rcases fields' with _ | ⟨⟨name', y⟩, fields'⟩
      · simp [Json.write] at h
      · simp only [Json.write, List.cons.injEq, true_and] at h
        obtain ⟨hname, hvalue⟩ := writeString_inj h
        obtain rfl := String.toList_inj.1 hname
        simp only [List.cons.injEq, true_and] at hvalue
        obtain ⟨rfl, hfields⟩ := Json.write_inj x y (ends_fields fields k)
          (ends_fields fields' l) hvalue
        obtain ⟨rfl, rfl⟩ := writeFields_inj fields fields' hfields
        exact ⟨rfl, rfl⟩

theorem writeItems_inj : ∀ (xs ys : List Json) {k l : List Char},
    writeItems xs (']' :: k) = writeItems ys (']' :: l) → xs = ys ∧ k = l
  | [], ys, k, l, h => by
    cases ys with
    | nil => simpa [writeItems] using h
    | cons y ys => simp [writeItems] at h
  | x :: xs, ys, k, l, h => by
    cases ys with
    | nil => simp [writeItems] at h
    | cons y ys =>
      simp only [writeItems, List.cons.injEq, true_and] at h
      obtain ⟨rfl, hitems⟩ := Json.write_inj x y (ends_items xs k) (ends_items ys l) h
      obtain ⟨rfl, rfl⟩ := writeItems_inj xs ys hitems
      exact ⟨rfl, rfl⟩

theorem writeFields_inj : ∀ (fields fields' : List (String × Json)) {k l : List Char},
    writeFields fields ('}' :: k) = writeFields fields' ('}' :: l) → fields = fields' ∧ k = l
  | [], fields', k, l, h => by
    rcases fields' with _ | ⟨⟨name', y⟩, fields'⟩
    · simpa [writeFields] using h
    · simp [writeFields] at h
  | (name, x) :: fields, fields', k, l, h => by
    rcases fields' with _ | ⟨⟨name', y⟩, fields'⟩
    · simp [writeFields] at h
    · simp only [writeFields, List.cons.injEq, true_and] at h
      obtain ⟨hname, hvalue⟩ := writeString_inj h
      obtain rfl := String.toList_inj.1 hname
      simp only [List.cons.injEq, true_and] at hvalue
      obtain ⟨rfl, hfields⟩ := Json.write_inj x y (ends_fields fields k) (ends_fields fields' l) hvalue
      obtain ⟨rfl, rfl⟩ := writeFields_inj fields fields' hfields
      exact ⟨rfl, rfl⟩

end

theorem Json.dumps_injective : Function.Injective Json.dumps := by
  intro a b h
  have hend : Ends [] := fun _ _ h => absurd h (by simp)
  exact (Json.write_inj a b hend hend (String.ofList_injective h)).1

end AuthService.JsonText
