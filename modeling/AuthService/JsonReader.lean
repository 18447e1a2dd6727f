import AuthService.JsonText

set_option autoImplicit false

/-! A reader of JSON texts that gives back what the printer has written. -/
namespace AuthService.JsonReader
open JsonText

def isBlank (c : Char) : Bool := c = ' ' || c = '\t' || c = '\n' || c = '\r'

def skipBlanks (cs : List Char) : List Char := cs.dropWhile isBlank

def escapes : List Char := ['"', '\\', '/', 'b', 'f', 'n', 'r', 't', 'u']

/-- One character of a literal; a control character must be escaped. -/
def scanChar : List Char → Option (Char × List Char)
  | [] => none
  | c :: cs =>
    if c.toNat < 32 then none
    else if c = '\\' then
      match cs with
      | [] => none
      | d :: _ => if d ∈ escapes then readChar (c :: cs) else none
    else readChar (c :: cs)

def scanString : ℕ → List Char → Option (List Char × List Char)
  | 0, _ => none
  | _, [] => none
  | n + 1, c :: cs =>
    if c = '"' then some ([], cs)
    else
      match scanChar (c :: cs) with
      | none => none
      | some (d, rest) => (scanString n rest).map fun s => (d :: s.1, s.2)

/-- A later entry replaces the value of an earlier one. -/
def dictInsert (name : String) (x : Json) : List (String × Json) → List (String × Json)
  | [] => [(name, x)]
  | (name', x') :: fields =>
    if name' = name then (name, x) :: fields else (name', x') :: dictInsert name x fields

def dictOf (fields : List (String × Json)) : List (String × Json) :=
  fields.foldl (fun d f => dictInsert f.1 f.2 d) []

def expect (word : List Char) (j : Json) (cs : List Char) : Option (Json × List Char) :=
  if word.isPrefixOf cs then some (j, cs.drop word.length) else none

def inNumeral (c : Char) : Bool := !delimits c && !isBlank c

def scanNumeral (cs : List Char) : Option (Json × List Char) :=
  if h : isNumeral (String.ofList (cs.takeWhile inNumeral)).toList = true then
    some (.number ⟨String.ofList (cs.takeWhile inNumeral), h⟩, cs.dropWhile inNumeral)
  else none

mutual

def scanValue : ℕ → List Char → Option (Json × List Char)
  | 0, _ => none
  | _, [] => none
  | n + 1, c :: cs =>
    if c = '"' then
      (scanString (cs.length + 1) cs).map fun s => (.string (String.ofList s.1), s.2)
    else if c = '[' then
      match skipBlanks cs with
      | [] => none
      | d :: rest =>
        if d = ']' then some (.array [], rest)
        else (scanItems n (d :: rest)).map fun r => (.array r.1, r.2)
    else if c = '{' then
      match skipBlanks cs with
      | [] => none
      | d :: rest =>
        if d = '}' then some (.object [], rest)
        else (scanFields n (d :: rest)).map fun r => (.object (dictOf r.1), r.2)
    else if c = 'n' then expect ['u', 'l', 'l'] .null cs
    else if c = 't' then expect ['r', 'u', 'e'] (.bool true) cs
    else if c = 'f' then expect ['a', 'l', 's', 'e'] (.bool false) cs
    else scanNumeral (c :: cs)

def scanItems : ℕ → List Char → Option (List Json × List Char)
  | 0, _ => none
  | n + 1, cs =>
    match scanValue n cs with
    | none => none
    | some (x, cs) =>
      match skipBlanks cs with
      | [] => none
      | d :: rest =>
        if d = ']' then some ([x], rest)
        else if d = ',' then (scanItems n (skipBlanks rest)).map fun r => (x :: r.1, r.2)
        else none

def scanFields : ℕ → List Char → Option (List (String × Json) × List Char)
  | 0, _ => none
  | _, [] => none
  | n + 1, c :: cs =>
    if c = '"' then
      match scanString (cs.length + 1) cs with
      | none => none
      | some (name, cs) =>
        match skipBlanks cs with
        | [] => none
        | d :: rest =>
          if d = ':' then
            match scanValue n (skipBlanks rest) with
            | none => none
            | some (x, cs) =>
              match skipBlanks cs with
              | [] => none
              | d :: rest =>
                if d = '}' then some ([(String.ofList name, x)], rest)
                else if d = ',' then
                  (scanFields n (skipBlanks rest)).map fun r => ((String.ofList name, x) :: r.1, r.2)
                else none
          else none
    else none

end

/-- `json.loads`. -/
def loads (text : String) : Option Json :=
  match scanValue (text.toList.length + 1) (skipBlanks text.toList) with
  | none => none
  | some (j, rest) => if skipBlanks rest = [] then some j else none

mutual

/-- The keys of an object differ, and a number is one word. -/
def wellFormed : Json → Bool
  | .number n => n.text.toList.all (fun c => !isBlank c)
  | .array items => wellFormedItems items
  | .object fields => decide (fields.map Prod.fst).Nodup && wellFormedFields fields
  | _ => true

def wellFormedItems : List Json → Bool
  | [] => true
  | x :: xs => wellFormed x && wellFormedItems xs

def wellFormedFields : List (String × Json) → Bool
  | [] => true
  | (_, x) :: fields => wellFormed x && wellFormedFields fields

end

theorem dictInsert_new {name : String} {x : Json} {fields : List (String × Json)}
    (h : name ∉ fields.map Prod.fst) : dictInsert name x fields = fields ++ [(name, x)] := by
  induction fields with
  | nil => rfl
  | cons f fields ih =>
    obtain ⟨name', x'⟩ := f
    simp only [List.map_cons, List.mem_cons, not_or] at h
    rw [dictInsert, if_neg (Ne.symm h.1), ih h.2, List.cons_append]

theorem dictOf_nodup {fields : List (String × Json)} (h : (fields.map Prod.fst).Nodup) :
    dictOf fields = fields := by
  have hfold : ∀ (rest d : List (String × Json)), ((d ++ rest).map Prod.fst).Nodup →
      rest.foldl (fun d f => dictInsert f.1 f.2 d) d = d ++ rest := by
    intro rest
    induction rest with
    | nil => simp
    | cons f rest ih =>
      intro d hd
      have hnew : f.1 ∉ d.map Prod.fst := by
        intro hmem
        rw [List.map_append, List.nodup_append] at hd
        exact hd.2.2 f.1 hmem f.1 (by simp) rfl
      rw [List.foldl_cons, dictInsert_new hnew, ih _ (by simpa using hd)]
      simp
  exact hfold fields [] (by simpa using h)

/-! ## Reading back -/

theorem skipBlanks_of_not {c : Char} {cs : List Char} (h : isBlank c = false) :
    skipBlanks (c :: cs) = c :: cs := by
  simp [skipBlanks, h]

theorem skipBlanks_space (cs : List Char) : skipBlanks (' ' :: cs) = skipBlanks cs := rfl

theorem scanChar_escapeChar (c : Char) (rest : List Char) :
    scanChar (escapeChar c ++ rest) = some (c, rest) := by
  have hread := readChar_escapeChar c rest
  have hback : ∀ (d : Char) (cs : List Char), escapeChar c ++ rest = '\\' :: d :: cs → d ∈ escapes →
      scanChar (escapeChar c ++ rest) = some (c, rest) := by
    intro d cs heq hd
    rw [heq] at hread ⊢
    rw [scanChar, if_neg (by decide), if_pos rfl]
    simp only [if_pos hd, hread]
  have hcode : ∀ n, ∃ cs, escapeCode n ++ rest = '\\' :: 'u' :: cs := by
    intro n
    unfold escapeCode
    split_ifs
    · exact ⟨_, rfl⟩
    · exact ⟨_, rfl⟩
  by_cases h1 : c = '"'
  · exact hback '"' rest (by rw [h1]; rfl) (by decide)
  by_cases h2 : c = '\\'
  · exact hback '\\' rest (by rw [h2]; rfl) (by decide)
  by_cases h3 : c = '\n'
  · exact hback 'n' rest (by rw [h3]; rfl) (by decide)
  by_cases h4 : c = '\r'
  · exact hback 'r' rest (by rw [h4]; rfl) (by decide)
  by_cases h5 : c = '\t'
  · exact hback 't' rest (by rw [h5]; rfl) (by decide)
  by_cases h6 : c = '\x0c'
  · exact hback 'f' rest (by rw [h6]; rfl) (by decide)
  by_cases h7 : c = '\x08'
  · exact hback 'b' rest (by rw [h7]; rfl) (by decide)
  by_cases h8 : 32 ≤ c.toNat ∧ c.toNat ≤ 126
  · have hplain : escapeChar c = [c] := by
      rw [escapeChar, if_neg h1, if_neg h2, if_neg h3, if_neg h4, if_neg h5, if_neg h6, if_neg h7,
        if_pos h8]
    rw [hplain, List.singleton_append] at hread ⊢
    simp only [scanChar.eq_def, if_neg h2, hread, if_neg (show ¬ c.toNat < 32 by omega)]
  · have hother : escapeChar c = escapeCode c.toNat := by
      rw [escapeChar, if_neg h1, if_neg h2, if_neg h3, if_neg h4, if_neg h5, if_neg h6, if_neg h7,
        if_neg h8]
    obtain ⟨cs, hcs⟩ := hcode c.toNat
    exact hback 'u' cs (by rw [hother, hcs]) (by decide)

theorem writeString_length (cs k : List Char) :
    cs.length + 1 + k.length ≤ (writeString cs k).length := by
  induction cs with
  | nil => simp [writeString, Nat.add_comm]
  | cons c cs ih =>
    have hone : 0 < (escapeChar c).length := List.length_pos_iff.2 (escapeChar_ne_nil c)
    rw [writeString, List.length_append, List.length_cons]
    omega

theorem scanString_write {cs k : List Char} {n : ℕ} (hn : cs.length < n) :
    scanString n (writeString cs k) = some (cs, k) := by
  induction cs generalizing n with
  | nil =>
    cases n with
    | zero => simp at hn
    | succ n => rfl
  | cons c cs ih =>
    cases n with
    | zero => simp at hn
    | succ n =>
      have hscan := scanChar_escapeChar c (writeString cs k)
      rw [writeString]
      cases hcs : escapeChar c ++ writeString cs k with
      | nil => rw [hcs] at hscan; cases hscan
      | cons d rest =>
        have hquote : d ≠ '"' := fun hd => escapeChar_ne_quote c _ rest (hd ▸ hcs)
        rw [hcs] at hscan
        rw [scanString, if_neg hquote, hscan]
        simp only [ih (by simpa using hn), Option.map_some]

theorem scanString_literal (s : String) (k : List Char) :
    scanString ((writeString s.toList k).length + 1) (writeString s.toList k) = some (s.toList, k) := by
  have hlen := writeString_length s.toList k
  exact scanString_write (by omega)

mutual

/-- The fuel that reading a value takes. -/
def weight : Json → ℕ
  | .array items => 1 + weightItems items
  | .object fields => 1 + weightFields fields
  | _ => 1

def weightItems : List Json → ℕ
  | [] => 0
  | x :: xs => 1 + weight x + weightItems xs

def weightFields : List (String × Json) → ℕ
  | [] => 0
  | (_, x) :: fields => 1 + weight x + weightFields fields

end

mutual

theorem weight_le : ∀ (j : Json) (k : List Char), weight j + k.length ≤ (j.write k).length
  | .null, k => by simp [weight, Json.write]; omega
  | .bool true, k => by simp [weight, Json.write]; omega
  | .bool false, k => by simp [weight, Json.write]; omega
  | .number n, k => by
    obtain ⟨c, cs, hcs, -⟩ := n.lead
    simp only [weight, Json.write, hcs, List.cons_append, List.length_cons, List.length_append]
    omega
  | .string s, k => by
    have h := writeString_length s.toList k
    simp only [weight, Json.write, List.length_cons]
    omega
  | .array [], k => by simp [weight, weightItems, Json.write]; omega
  | .array (x :: xs), k => by
    have hx := weight_le x (writeItems xs (']' :: k))
    have hxs := weightItems_le xs (']' :: k)
    simp only [weight, weightItems, Json.write, List.length_cons] at hx hxs ⊢
    omega
  | .object [], k => by simp [weight, weightFields, Json.write]; omega
  | .object ((name, x) :: fields), k => by
    have hname := writeString_length name.toList (':' :: ' ' :: x.write (writeFields fields ('}' :: k)))
    have hx := weight_le x (writeFields fields ('}' :: k))
    have hfields := weightFields_le fields ('}' :: k)
    simp only [weight, weightFields, Json.write, List.length_cons] at hname hx hfields ⊢
    omega

theorem weightItems_le : ∀ (xs : List Json) (k : List Char),
    weightItems xs + k.length ≤ (writeItems xs k).length
  | [], k => by simp [weightItems, writeItems]
  | x :: xs, k => by
    have hx := weight_le x (writeItems xs k)
    have hxs := weightItems_le xs k
    simp only [weightItems, writeItems, List.length_cons]
    omega

theorem weightFields_le : ∀ (fields : List (String × Json)) (k : List Char),
    weightFields fields + k.length ≤ (writeFields fields k).length
  | [], k => by simp [weightFields, writeFields]
  | (name, x) :: fields, k => by
    have hname := writeString_length name.toList (':' :: ' ' :: x.write (writeFields fields k))
    have hx := weight_le x (writeFields fields k)
    have hfields := weightFields_le fields k
    simp only [weightFields, writeFields, List.length_cons] at hname ⊢
    omega

end

theorem write_start (j : Json) (k : List Char) :
    ∃ c cs, j.write k = c :: cs ∧ isBlank c = false ∧ c ≠ ']' := by
  obtain ⟨c, cs, hw, hc⟩ := j.write_lead k
  refine ⟨c, cs, hw, ?_, ?_⟩
  · by_contra hb
    simp only [isBlank, Bool.or_eq_true, decide_eq_true_eq, Bool.not_eq_false] at hb
    rcases hb with ((rfl | rfl) | rfl) | rfl <;>
      rcases j with _ | (_ | _) | _ | _ | _ | _ <;> simp only [Json.leads] at hc <;>
      revert hc <;> decide
  · rintro rfl
    exact j.write_ne_close k cs hw

theorem skipBlanks_write (j : Json) (k : List Char) : skipBlanks (j.write k) = j.write k := by
  obtain ⟨c, cs, hw, hc, -⟩ := write_start j k
  rw [hw, skipBlanks_of_not hc]

theorem takeWhile_plain {p : Char → Bool} {cs k : List Char} (hcs : ∀ c ∈ cs, p c = true)
    (hk : ∀ c rest, k = c :: rest → p c = false) :
    (cs ++ k).takeWhile p = cs ∧ (cs ++ k).dropWhile p = k := by
  induction cs with
  | nil =>
    cases k with
    | nil => exact ⟨rfl, rfl⟩
    | cons c rest => simp [hk c rest rfl]
  | cons c cs ih =>
    obtain ⟨htake, hdrop⟩ := ih (fun d hd => hcs d (by simp [hd]))
    simp [hcs c (by simp), htake, hdrop]

theorem scanNumeral_write {n : Numeral} (hn : wellFormed (.number n) = true) {k : List Char}
    (hk : Ends k) : scanNumeral (n.text.toList ++ k) = some (.number n, k) := by
  have hplain : ∀ c ∈ n.text.toList, inNumeral c = true := by
    intro c hc
    obtain ⟨d, ds, hds, -, hd, hrest⟩ := n.lead
    have hdelim : delimits c = false := by
      rw [hds] at hc
      rcases List.mem_cons.1 hc with rfl | hc
      · exact hd
      · exact hrest c hc
    rw [wellFormed, List.all_eq_true] at hn
    rw [inNumeral, hdelim, hn c hc]
    rfl
  have hstop : ∀ c rest, k = c :: rest → inNumeral c = false := by
    intro c rest hc
    rw [inNumeral, hk c rest hc]
    rfl
  obtain ⟨htake, hdrop⟩ := takeWhile_plain hplain hstop
  have htext : String.ofList ((n.text.toList ++ k).takeWhile inNumeral) = n.text := by
    rw [htake, String.ofList_toList]
  unfold scanNumeral
  simp only [htext, hdrop, n.numeral, dite_true]

theorem expect_write (word : List Char) (j : Json) (k : List Char) :
    expect word j (word ++ k) = some (j, k) := by
  simp [expect]

mutual

theorem scanValue_write : ∀ (j : Json) {n : ℕ} {k : List Char}, wellFormed j = true → weight j ≤ n →
    Ends k → scanValue n (j.write k) = some (j, k)
  | j, 0, k, _, hn, _ => by
    cases j <;> simp [weight] at hn
  | .null, n + 1, k, _, _, _ => by
    rw [Json.write, scanValue]
    exact expect_write ['u', 'l', 'l'] .null k
  | .bool true, n + 1, k, _, _, _ => by
    rw [Json.write, scanValue]
    exact expect_write ['r', 'u', 'e'] (.bool true) k
  | .bool false, n + 1, k, _, _, _ => by
    rw [Json.write, scanValue]
    exact expect_write ['a', 'l', 's', 'e'] (.bool false) k
  | .number m, n + 1, k, hj, _, hk => by
    have hscan := scanNumeral_write hj hk
    obtain ⟨c, cs, hcs, hc, -⟩ := m.lead
    have hlead : ∀ d, leadsNumber d = false → c ≠ d := by
      rintro d hd rfl
      rw [hc] at hd
      cases hd
    rw [Json.write, hcs, List.cons_append, scanValue, if_neg (hlead _ (by decide)),
      if_neg (hlead _ (by decide)), if_neg (hlead _ (by decide)), if_neg (hlead _ (by decide)),
      if_neg (hlead _ (by decide)), if_neg (hlead _ (by decide)), ← List.cons_append, ← hcs, hscan]
  | .string s, n + 1, k, _, _, _ => by
    rw [Json.write, scanValue, if_pos rfl, scanString_literal, Option.map_some, String.ofList_toList]
  | .array [], n + 1, k, _, _, _ => by
    rw [Json.write, scanValue]
    rfl
  | .array (x :: xs), n + 1, k, hj, hn, hk => by
    rw [wellFormed] at hj
    rw [weight] at hn
    have hitems := scanItems_write x xs hj (show weightItems (x :: xs) ≤ n by omega) k
    obtain ⟨c, cs, hw, hblank, hclose⟩ := write_start x (writeItems xs (']' :: k))
    rw [hw] at hitems
    rw [Json.write, scanValue, if_neg (by decide), if_pos rfl, hw, skipBlanks_of_not hblank]
    simp only [if_neg hclose, hitems, Option.map_some]
  | .object [], n + 1, k, _, _, _ => by
    rw [Json.write, scanValue]
    rfl
  | .object ((name, x) :: fields), n + 1, k, hj, hn, hk => by
    rw [wellFormed, Bool.and_eq_true, decide_eq_true_eq] at hj
    rw [weight] at hn
    have hfields := scanFields_write name x fields hj.2
      (show weightFields ((name, x) :: fields) ≤ n by omega) k
    rw [Json.write, scanValue, if_neg (by decide), if_neg (by decide), if_pos rfl,
      skipBlanks_of_not (by decide)]
    simp only [if_neg (show ¬ '"' = '}' by decide), hfields, Option.map_some, dictOf_nodup hj.1]

theorem scanItems_write : ∀ (x : Json) (xs : List Json) {n : ℕ}, wellFormedItems (x :: xs) = true →
    weightItems (x :: xs) ≤ n → ∀ (k : List Char),
    scanItems n (x.write (writeItems xs (']' :: k))) = some (x :: xs, k)
  | x, xs, 0, _, hn, k => by
    simp [weightItems] at hn
  | x, [], n + 1, hj, hn, k => by
    rw [wellFormedItems, Bool.and_eq_true] at hj
    simp only [weightItems] at hn
    have hx := scanValue_write x hj.1 (show weight x ≤ n by omega) (ends_items [] k)
    rw [scanItems, hx]
    rfl
  | x, y :: ys, n + 1, hj, hn, k => by
    rw [wellFormedItems, Bool.and_eq_true] at hj
    rw [weightItems] at hn
    have hx := scanValue_write x hj.1 (show weight x ≤ n by omega) (ends_items (y :: ys) k)
    have hys := scanItems_write y ys hj.2 (show weightItems (y :: ys) ≤ n by omega) k
    rw [scanItems, hx]
    simp only [writeItems, skipBlanks_of_not (show isBlank ',' = false by decide), skipBlanks_space,
      skipBlanks_write, if_neg (show ¬ ',' = ']' by decide), if_true, hys, Option.map_some]

theorem scanFields_write : ∀ (name : String) (x : Json) (fields : List (String × Json)) {n : ℕ},
    wellFormedFields ((name, x) :: fields) = true → weightFields ((name, x) :: fields) ≤ n →
    ∀ (k : List Char),
    scanFields n ('"' :: writeString name.toList
      (':' :: ' ' :: x.write (writeFields fields ('}' :: k)))) =
      some ((name, x) :: fields, k)
  | name, x, fields, 0, _, hn, k => by
    simp [weightFields] at hn
  | name, x, [], n + 1, hj, hn, k => by
    rw [wellFormedFields, Bool.and_eq_true] at hj
    simp only [weightFields] at hn
    have hx := scanValue_write x hj.1 (show weight x ≤ n by omega) (ends_fields [] k)
    rw [scanFields, if_pos rfl, scanString_literal]
    simp only [skipBlanks_of_not (show isBlank ':' = false by decide), if_true, skipBlanks_space,
      skipBlanks_write, hx, String.ofList_toList]
    rfl
  | name, x, (name', y) :: ys, n + 1, hj, hn, k => by
    rw [wellFormedFields, Bool.and_eq_true] at hj
    rw [weightFields] at hn
    have hx := scanValue_write x hj.1 (show weight x ≤ n by omega) (ends_fields ((name', y) :: ys) k)
    have hys := scanFields_write name' y ys hj.2
      (show weightFields ((name', y) :: ys) ≤ n by omega) k
    rw [writeFields] at hx ⊢
    rw [scanFields, if_pos rfl, scanString_literal]
    simp only [skipBlanks_of_not (show isBlank ':' = false by decide), if_true, skipBlanks_space,
      skipBlanks_write, hx, String.ofList_toList,
      skipBlanks_of_not (show isBlank ',' = false by decide),
      skipBlanks_of_not (show isBlank '"' = false by decide), if_neg (show ¬ ',' = '}' by decide), hys,
      Option.map_some]

end

/-- What the printer writes is read back. -/
theorem loads_dumps {j : Json} (hj : wellFormed j = true) : loads j.dumps = some j := by
  have hend : Ends [] := fun _ _ h => absurd h (by simp)
  have hweight := weight_le j []
  rw [List.length_nil, Nat.add_zero] at hweight
  have hscan := scanValue_write j hj (show weight j ≤ (j.write []).length + 1 by omega) hend
  rw [loads, Json.dumps, String.toList_ofList, skipBlanks_write, hscan]
  rfl

end AuthService.JsonReader
