import AuthService.PythonText

set_option autoImplicit false

/-! Value objects, entities and exceptions of the domain layer. -/
namespace AuthService.DomainModel
open Uuids PythonText

/-- The domain exceptions, with their messages, and the errors the libraries raise. -/
inductive Exn where
  | invalidEmailError (message : String)
  | weakPasswordError (message : String)
  | userAlreadyExistsError (message : String)
  | userNotFoundError (message : String)
  | invalidCredentialsError (message : String)
  | tokenExpiredError (message : String)
  | tokenAlreadyUsedError (message : String)
  | tokenNotFoundError (message : String)
  | invalidTokenError (message : String)
  | valueError
  | unicodeEncodeError
  | keyError
  | integrityError
  | dataError
  | pendingRollbackError
  | portError
  | graphQLError (message : String)
  deriving DecidableEq, Repr

def isLetter (c : Char) : Bool := ('a' ≤ c && c ≤ 'z') || ('A' ≤ c && c ≤ 'Z')

def isDomainChar (c : Char) : Bool :=
  isLetter c || ('0' ≤ c && c ≤ '9') || c = '.' || c = '-'

def isLocalChar (c : Char) : Bool := isDomainChar c || c = '_' || c = '%' || c = '+'

/-- `[a-zA-Z0-9.\-]+\.[a-zA-Z]{2,}`: the last group follows the last dot. -/
def matchDomain (cs : List Char) : Bool :=
  let tld := cs.reverse.takeWhile (fun c => c != '.')
  match cs.reverse.dropWhile (fun c => c != '.') with
  | [] => false
  | _ :: rest => !rest.isEmpty && rest.all isDomainChar && decide (2 ≤ tld.length) && tld.all isLetter

def matchAddress (cs : List Char) : Bool :=
  let name := cs.takeWhile (fun c => c != '@')
  match cs.dropWhile (fun c => c != '@') with
  | [] => false
  | _ :: domain => !name.isEmpty && name.all isLocalChar && matchDomain domain

/-- `_EMAIL_REGEX.match`; `$` also matches before a newline that ends the text. -/
def emailRegex (s : String) : Bool :=
  matchAddress s.toList || (s.toList.getLast? == some '\n' && matchAddress s.toList.dropLast)

def normalize (u : Unicode) (s : String) : String := u.lowerText (strip s)

/-- An e-mail address is stored normalised. -/
structure Email (u : Unicode) where
  value : String
  accepted : emailRegex value = true
  normalized : normalize u value = value

theorem isLocalChar_ascii (c : Char) (h : isLocalChar c = true) :
    c.toNat < 128 ∧ isSpace c = false := by
  have hn : c.toNat < 128 ∧ 32 < c.toNat := by
    simp only [isLocalChar, isDomainChar, isLetter, Bool.or_eq_true, Bool.and_eq_true,
      decide_eq_true_eq, Char.le_def] at h
    have key : ∀ a b : Char, a.val ≤ c.val ∧ c.val ≤ b.val → a.toNat ≤ c.toNat ∧ c.toNat ≤ b.toNat :=
      fun a b hab => ⟨UInt32.le_iff_toNat_le.1 hab.1, UInt32.le_iff_toNat_le.1 hab.2⟩
    rcases h with ((((((h | h) | h) | h) | h) | h) | h) | h
    all_goals
      first
        | exact ⟨lt_of_le_of_lt (key _ _ h).2 (by decide), lt_of_lt_of_le (by decide) (key _ _ h).1⟩
        | (subst h; decide)
  refine ⟨hn.1, ?_⟩
  obtain ⟨h1, h2⟩ := hn
  simp only [isSpace, Bool.or_eq_false_iff, Bool.and_eq_false_iff, decide_eq_false_iff_not]
  omega

theorem matchDomain_chars (cs : List Char) (h : matchDomain cs = true) :
    ∀ c ∈ cs, isLocalChar c = true := by
  intro c hc
  have hsplit := List.takeWhile_append_dropWhile (p := fun c => c != '.') (l := cs.reverse)
  unfold matchDomain at h
  cases hd : cs.reverse.dropWhile (fun c => c != '.') with
  | nil => simp [hd] at h
  | cons d rest =>
    simp only [hd, Bool.and_eq_true, List.all_eq_true] at h
    obtain ⟨⟨⟨_, hrest⟩, _⟩, htld⟩ := h
    have hdot : d = '.' := by
      have hne : cs.reverse.dropWhile (fun c => c != '.') ≠ [] := by simp [hd]
      have hn := List.head_dropWhile_not (fun c => c != '.') hne
      simpa [hd] using hn
    have hm : c ∈ cs.reverse := List.mem_reverse.2 hc
    rw [← hsplit, hd] at hm
    rcases List.mem_append.1 hm with hm | hm
    · simp [isLocalChar, isDomainChar, htld c hm]
    · rcases List.mem_cons.1 hm with rfl | hm
      · simp [isLocalChar, isDomainChar, hdot]
      · simp [isLocalChar, hrest c hm]

theorem matchAddress_chars (cs : List Char) (h : matchAddress cs = true) :
    ∀ c ∈ cs, c = '@' ∨ isLocalChar c = true := by
  intro c hc
  have hsplit := List.takeWhile_append_dropWhile (p := fun c => c != '@') (l := cs)
  unfold matchAddress at h
  cases hd : cs.dropWhile (fun c => c != '@') with
  | nil => simp [hd] at h
  | cons d domain =>
    simp only [hd, Bool.and_eq_true, List.all_eq_true] at h
    obtain ⟨⟨_, hname⟩, hdom⟩ := h
    have hat : d = '@' := by
      have hne : cs.dropWhile (fun c => c != '@') ≠ [] := by simp [hd]
      have hn := List.head_dropWhile_not (fun c => c != '@') hne
      simpa [hd] using hn
    rw [← hsplit, hd] at hc
    rcases List.mem_append.1 hc with hm | hm
    · exact .inr (hname c hm)
    · rcases List.mem_cons.1 hm with rfl | hm
      · exact .inl hat
      · exact .inr (matchDomain_chars domain hdom c hm)

theorem matchAddress_at (cs : List Char) (h : matchAddress cs = true) : cs.count '@' = 1 := by
  have hsplit := List.takeWhile_append_dropWhile (p := fun c => c != '@') (l := cs)
  have hname : '@' ∉ cs.takeWhile (fun c => c != '@') := by
    intro hm
    have hall := List.all_eq_true.1 (List.all_takeWhile (p := fun c => c != '@') (l := cs)) '@' hm
    simp at hall
  unfold matchAddress at h
  cases hd : cs.dropWhile (fun c => c != '@') with
  | nil => simp [hd] at h
  | cons d domain =>
    simp only [hd, Bool.and_eq_true] at h
    have hat : d = '@' := by
      have hne : cs.dropWhile (fun c => c != '@') ≠ [] := by simp [hd]
      have hn := List.head_dropWhile_not (fun c => c != '@') hne
      simpa [hd] using hn
    have hdomain : '@' ∉ domain := fun hm => absurd (matchDomain_chars domain h.2 '@' hm) (by decide)
    rw [← hsplit, hd, hat, List.count_append, List.count_cons_self, List.count_eq_zero_of_not_mem hname,
      List.count_eq_zero_of_not_mem hdomain]

theorem matchAddress_plain (cs : List Char) (h : matchAddress cs = true) :
    ∀ c ∈ cs, c.toNat < 128 ∧ isSpace c = false := by
  intro c hc
  rcases matchAddress_chars cs h c hc with rfl | hl
  · decide
  · exact isLocalChar_ascii c hl

theorem matchAddress_of_normalize (u : Unicode) (s : String)
    (h : emailRegex (normalize u s) = true) : matchAddress (normalize u s).toList = true := by
  rcases Bool.or_eq_true _ _ |>.mp h with h | h
  · exact h
  · obtain ⟨hlast, _⟩ := Bool.and_eq_true _ _ |>.mp h
    have hl : (normalize u s).toList.getLast? = some '\n' := by simpa using hlast
    obtain ⟨cs, hcs⟩ := List.getLast?_eq_some_iff.1 hl
    have hsp := lowerText_strip_last u s cs '\n' hcs
    exact absurd hsp (by decide)

/-- A text the pattern accepts after normalisation is its own normal form. -/
theorem normalize_idem (u : Unicode) (s : String) (h : emailRegex (normalize u s) = true) :
    normalize u (normalize u s) = normalize u s := by
  have hp := matchAddress_plain _ (matchAddress_of_normalize u s h)
  have hs : strip (normalize u s) = normalize u s :=
    strip_of_no_space _ (fun c hc => (hp c hc).2)
  rw [show normalize u (normalize u s) = u.lowerText (strip (normalize u s)) from rfl, hs]
  exact lowerText_of_lower u _ (fun c hc => ⟨(hp c hc).1, lowerText_not_upper u _ c hc⟩)

theorem Email.ext_value {u : Unicode} {e e' : Email u} (h : e.value = e'.value) : e = e' := by
  cases e
  cases e'
  cases h
  rfl

theorem Email.matches {u : Unicode} (e : Email u) : matchAddress e.value.toList = true := by
  have h := e.accepted
  rw [← e.normalized] at h ⊢
  exact matchAddress_of_normalize u e.value h

theorem Email.not_upper {u : Unicode} (e : Email u) : ∀ c ∈ e.value.toList, c.isUpper = false := by
  rw [← e.normalized]
  exact lowerText_not_upper u _

/-- `Email(s)`. -/
def Email.new (u : Unicode) (s : String) : Except Exn (Email u) :=
  if h : emailRegex (normalize u s) = true then .ok ⟨normalize u s, h, normalize_idem u s h⟩
  else .error (.invalidEmailError ("Invalid email address: " ++ u.repr s))

theorem Email.new_ok {u : Unicode} {s : String} {e : Email u} (h : Email.new u s = .ok e) :
    e.value = normalize u s := by
  unfold Email.new at h
  split at h
  · rw [← Except.ok.inj h]
  · simp at h

@[simp] theorem Email.new_value {u : Unicode} (e : Email u) : Email.new u e.value = .ok e := by
  obtain ⟨v, ha, hn⟩ := e
  unfold Email.new
  simp only [hn, ha, ↓reduceDIte]

def minLength : ℕ := 8
def maxBytes : ℕ := 72

structure PlainPassword (u : Unicode) where
  value : String
  long : minLength ≤ value.length
  short : value.utf8ByteSize ≤ maxBytes
  digit : value.toList.any u.isDigit = true

/-- `PlainPassword(s)`: length in characters, size in bytes, one digit, in this order. -/
def PlainPassword.new (u : Unicode) (s : String) : Except Exn (PlainPassword u) :=
  if hl : minLength ≤ s.length then
    if hs : s.utf8ByteSize ≤ maxBytes then
      if hd : s.toList.any u.isDigit = true then .ok ⟨s, hl, hs, hd⟩
      else .error (.weakPasswordError "Password must contain at least one digit.")
    else .error (.weakPasswordError "Password must be at most 72 bytes when UTF-8 encoded.")
  else .error (.weakPasswordError "Password must be at least 8 characters long.")

@[simp] theorem PlainPassword.new_value {u : Unicode} (p : PlainPassword u) :
    PlainPassword.new u p.value = .ok p := by
  simp only [PlainPassword.new, p.long, p.short, p.digit, ↓reduceDIte]

theorem PlainPassword.new_ok {u : Unicode} {s : String} {p : PlainPassword u}
    (h : PlainPassword.new u s = .ok p) : p.value = s := by
  unfold PlainPassword.new at h
  split_ifs at h
  rw [← Except.ok.inj h]

theorem PlainPassword.new_error {u : Unicode} {s : String} {e : Exn}
    (h : PlainPassword.new u s = .error e) : ∃ m, e = .weakPasswordError m := by
  unfold PlainPassword.new at h
  split_ifs at h
  all_goals exact ⟨_, (Except.error.inj h).symm⟩

theorem Email.new_error {u : Unicode} {s : String} {e : Exn} (h : Email.new u s = .error e) :
    ∃ m, e = .invalidEmailError m := by
  unfold Email.new at h
  split_ifs at h
  exact ⟨_, (Except.error.inj h).symm⟩

/-- `Email(t)`; no class of the pattern has a surrogate, and `repr` shows it in the message. -/
def Email.ofText (u : Unicode) (repr : Text → String) (t : Text) : Except Exn (Email u) :=
  match t.encode with
  | some s => Email.new u s
  | none => .error (.invalidEmailError ("Invalid email address: " ++ repr t))

/-- `PlainPassword(t)`: the length is checked before the text is encoded. -/
def PlainPassword.ofText (u : Unicode) (t : Text) : Except Exn (PlainPassword u) :=
  if t.length < minLength then
    .error (.weakPasswordError "Password must be at least 8 characters long.")
  else
    match t.encode with
    | some s => PlainPassword.new u s
    | none => .error .unicodeEncodeError

theorem Email.ofText_ofString (u : Unicode) (repr : Text → String) (s : String) :
    Email.ofText u repr (.ofString s) = Email.new u s := by
  simp [Email.ofText]

theorem PlainPassword.ofText_ofString (u : Unicode) (s : String) :
    PlainPassword.ofText u (.ofString s) = PlainPassword.new u s := by
  have hlength : (Text.ofString s).length = s.length := by
    rw [Text.ofString, List.length_map, String.length_toList]
  simp only [PlainPassword.ofText, PlainPassword.new, Text.encode_ofString, hlength]
  split_ifs <;> first | rfl | omega

/-- Only a text without surrogates is a password. -/
theorem PlainPassword.ofText_ok {u : Unicode} {t : Text} {p : PlainPassword u}
    (h : PlainPassword.ofText u t = .ok p) : t = .ofString p.value := by
  unfold PlainPassword.ofText at h
  split_ifs at h
  split at h
  · rename_i s hs
    rw [PlainPassword.new_ok h]
    exact Text.encode_eq_some.1 hs
  · cases h

structure User (u : Unicode) where
  id : UUID
  email : Email u
  hashedPassword : String
  isActive : Bool
  createdAt : ℕ

def User.changePassword {u : Unicode} (user : User u) (newHash : String) : User u :=
  { user with hashedPassword := newHash }

def User.deactivate {u : Unicode} (user : User u) : User u := { user with isActive := false }

structure PasswordResetToken where
  id : UUID
  userId : UUID
  token : String
  expiresAt : ℤ
  used : Bool
  deriving DecidableEq

/-- `consume`: expiry is checked before use. -/
def PasswordResetToken.consume (t : PasswordResetToken) (now : ℕ) : Except Exn PasswordResetToken :=
  if t.expiresAt ≤ now then .error (.tokenExpiredError "Reset token has expired")
  else if t.used then .error (.tokenAlreadyUsedError "Reset token has already been used")
  else .ok { t with used := true }

theorem PasswordResetToken.consume_ok {t t' : PasswordResetToken} {now : ℕ} :
    t.consume now = .ok t' ↔ (now : ℤ) < t.expiresAt ∧ t.used = false ∧
      t' = { t with used := true } := by
  unfold PasswordResetToken.consume
  split_ifs with he hu
  · refine iff_of_false (by simp) ?_
    rintro ⟨h, _⟩
    omega
  · refine iff_of_false (by simp) ?_
    rintro ⟨_, h, _⟩
    simp [h] at hu
  · simp only [Except.ok.injEq]
    constructor
    · rintro rfl
      exact ⟨by omega, by simpa using hu, rfl⟩
    · rintro ⟨_, _, rfl⟩
      rfl

theorem PasswordResetToken.consume_error {t : PasswordResetToken} {now : ℕ} {e : Exn}
    (h : t.consume now = .error e) :
    (t.expiresAt ≤ now → e = .tokenExpiredError "Reset token has expired") ∧
      ((now : ℤ) < t.expiresAt → e = .tokenAlreadyUsedError "Reset token has already been used") := by
  unfold PasswordResetToken.consume at h
  split_ifs at h with he hu
  · exact ⟨fun _ => (Except.error.inj h).symm, fun hn => absurd he (by omega)⟩
  · exact ⟨fun hn => absurd hn he, fun _ => (Except.error.inj h).symm⟩

end AuthService.DomainModel
