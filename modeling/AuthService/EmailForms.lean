import AuthService.RedisKeyspace
import AuthService.SessionDiscipline

set_option autoImplicit false

/-! One normal form of an e-mail address in the domain, in the counters and in the table. -/
namespace AuthService.EmailForms
open Uuids PythonText DomainModel AccountTables Transactions RequestPorts GraphqlResolvers
open SessionDiscipline RateLimiter RedisKeyspace

section Forms
variable {u : Unicode} {s s' : String}

theorem new_eq_ok {e : Email u} : Email.new u s = .ok e ↔ normalize u s = e.value := by
  constructor
  · exact fun h => (Email.new_ok h).symm
  · intro h
    have haccepted : emailRegex (normalize u s) = true := by
      rw [h]
      exact e.accepted
    rw [Email.new, dif_pos haccepted]
    exact congrArg _ (Email.ext_value h)

/-- `check_email` and `Email` normalise in opposite orders. -/
theorem strip_lower_eq_value {e : Email u} (h : Email.new u s = .ok e) :
    strip (u.lowerText s) = e.value := by
  rw [strip_lowerText]
  exact new_eq_ok.1 h

theorem eq_iff_counter {e e' : Email u} (h : Email.new u s = .ok e) (h' : Email.new u s' = .ok e')
    (operation : String) (limit : ℤ) (window : ℕ) :
    e = e' ↔ (checkEmail u s operation limit window).redisKey =
      (checkEmail u s' operation limit window).redisKey := by
  rw [checkEmail_redisKey, checkEmail_redisKey, emailKey_inj, strip_lower_eq_value h,
    strip_lower_eq_value h']
  exact ⟨fun he => by rw [he], Email.ext_value⟩

theorem toDomain_toUserModel (user : User u) : (toUserModel user).toDomain u = .ok user := by
  unfold UserModel.toDomain toUserModel
  simp only [Email.new_value]

end Forms

def Reloads (u : Unicode) (t : Tables) : Prop :=
  ∀ m ∈ t.users, ∃ user, m.toDomain u = .ok user ∧ toUserModel user = m

theorem reloads_of_wellFormed {u : Unicode} {t : Tables} (h : t.WellFormed u) : Reloads u t := by
  intro m hm
  obtain ⟨e, he, hd⟩ := h.toDomain hm
  refine ⟨_, hd, ?_⟩
  rw [toUserModel, he]

def serveAll (g : GlobalContainer) : List (Faults × Request) → World → World
  | [], w => w
  | (faults, r) :: rest, w => serveAll g rest (after g faults r w)

theorem serveAll_wellFormed (g : GlobalContainer) (requests : List (Faults × Request)) {w : World}
    (hw : w.db.Fresh) (h : w.db.committed.WellFormed g.unicode) :
    (serveAll g requests w).db.committed.WellFormed g.unicode := by
  induction requests generalizing w with
  | nil => exact h
  | cons x rest ih =>
    obtain ⟨faults, r⟩ := x
    exact ih (after_fresh g faults r w) (after_wellFormed g faults r hw h)

theorem empty_wellFormed (u : Unicode) : (⟨[], [], []⟩ : Tables).WellFormed u := by
  constructor <;> simp [KeyedRows.Keyed]

/-- The three places that normalise an address agree, and a normal form has one `@`, no white
space and no upper-case letter. -/
theorem email_forms_agree {g : GlobalContainer} {s s' : String} {e e' : Email g.unicode}
    (h : Email.new g.unicode s = .ok e) (h' : Email.new g.unicode s' = .ok e') :
    (∀ (operation : String) (limit : ℤ) (window : ℕ),
        e = e' ↔ (checkEmail g.unicode s operation limit window).redisKey =
          (checkEmail g.unicode s' operation limit window).redisKey) ∧
      strip (g.unicode.lowerText s) = e.value ∧
      Email.new g.unicode e.value = .ok e ∧
      (∀ user : User g.unicode, (toUserModel user).toDomain g.unicode = .ok user) ∧
      (∀ requests w, w.db.Fresh → w.db.committed = ⟨[], [], []⟩ →
        Reloads g.unicode (serveAll g requests w).db.committed) ∧
      e.value.toList.count '@' = 1 ∧
      ∀ c ∈ e.value.toList, c.toNat < 128 ∧ isSpace c = false ∧ c.isUpper = false := by
  refine ⟨fun operation limit window => eq_iff_counter h h' operation limit window,
    strip_lower_eq_value h, Email.new_value e, toDomain_toUserModel, ?_,
    matchAddress_at _ e.matches, ?_⟩
  · intro requests w hw hempty
    refine reloads_of_wellFormed (serveAll_wellFormed g requests hw ?_)
    rw [hempty]
    exact empty_wellFormed g.unicode
  · intro c hc
    obtain ⟨hascii, hspace⟩ := matchAddress_plain _ e.matches c hc
    exact ⟨hascii, hspace, e.not_upper c hc⟩

section Sample
open SampleContainer

theorem email_forms_agree_alice :
    Email.new sample.unicode " Alice@Example.COM" = .ok aliceEmail ∧
      strip (sample.unicode.lowerText " Alice@Example.COM") = aliceEmail.value := by
  have h : Email.new sample.unicode " Alice@Example.COM" = .ok aliceEmail :=
    new_eq_ok.2 (by decide +kernel)
  exact ⟨h, (email_forms_agree h (Email.new_value aliceEmail)).2.1⟩

end Sample

end AuthService.EmailForms
