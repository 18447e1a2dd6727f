import AuthService.AccountEffects
import AuthService.VisitTriples

set_option autoImplicit false

/-! What any sequence of requests makes of the accounts, whatever documents they bring and
whichever calls and commits fail. -/
namespace AuthService.AccountIntegrity
open Uuids PythonText DomainModel KeyedRows AccountTables Transactions FallibleState Fallible
open FallibleTriples ExpiringMaps JsonText GraphqlDocuments RedisSessions RequestPorts CommandHandlers
open GraphqlResolvers HandlerRuns AccountEffects RateLimitMiddleware IdempotencyExtension EmailCounters
open RequestTriples HttpService VisitTriples LabelledRuns

/-- The columns of an account that no handler writes. -/
structure SameAccount (m m' : UserModel) : Prop where
  id : m'.id = m.id
  email : m'.email = m.email
  isActive : m'.isActive = m.isActive
  createdAt : m'.createdAt = m.createdAt

theorem SameAccount.refl (m : UserModel) : SameAccount m m := ⟨rfl, rfl, rfl, rfl⟩

theorem SameAccount.trans {m m' m'' : UserModel} (h : SameAccount m m') (h' : SameAccount m' m'') :
    SameAccount m m'' :=
  ⟨h'.id.trans h.id, h'.email.trans h.email, h'.isActive.trans h.isActive,
    h'.createdAt.trans h.createdAt⟩

/-- A reset row, which may have been used since. -/
structure SameToken (r r' : PasswordResetTokenModel) : Prop where
  id : r'.id = r.id
  userId : r'.userId = r.userId
  token : r'.token = r.token
  expiresAt : r'.expiresAt = r.expiresAt
  used : r.used = true → r'.used = true

theorem SameToken.refl (r : PasswordResetTokenModel) : SameToken r r := ⟨rfl, rfl, rfl, rfl, fun h => h⟩

theorem SameToken.trans {r r' r'' : PasswordResetTokenModel} (h : SameToken r r')
    (h' : SameToken r' r'') : SameToken r r'' :=
  ⟨h'.id.trans h.id, h'.userId.trans h.userId, h'.token.trans h.token,
    h'.expiresAt.trans h.expiresAt, fun hu => h'.used (h.used hu)⟩

/-- What the root fields of a request were entitled to so far: rows of new accounts, rows issued
for an address, and accounts, with their address, that got a new hash. -/
structure Warrant where
  registered : UserModel → Prop
  issued : String → PasswordResetTokenModel → Prop
  reset : UUID → String → String → Prop

structure Warrant.Le (K K' : Warrant) : Prop where
  registered : ∀ m, K.registered m → K'.registered m
  issued : ∀ address row, K.issued address row → K'.issued address row
  reset : ∀ id address newHash, K.reset id address newHash → K'.reset id address newHash

theorem Warrant.Le.refl (K : Warrant) : K.Le K := ⟨fun _ => id, fun _ _ => id, fun _ _ _ => id⟩

def Kept (t t' : Tables) : Prop := ∀ m ∈ t.users, ∃ m' ∈ t'.users, SameAccount m m'

theorem Kept.of_eq {t t' : Tables} (h : t'.users = t.users) : Kept t t' :=
  fun m hm => ⟨m, h ▸ hm, .refl m⟩

theorem Kept.trans {t t' t'' : Tables} (h : Kept t t') (h' : Kept t' t'') : Kept t t'' := by
  intro m hm
  obtain ⟨m', hm', hs⟩ := h m hm
  obtain ⟨m'', hm'', hs'⟩ := h' m' hm'
  exact ⟨m'', hm'', hs.trans hs'⟩

/-- A row of the tables `t₀`, or one that was issued for the address of its owner. -/
def Known (K : Warrant) (t₀ t : Tables) (r : PasswordResetTokenModel) : Prop :=
  r ∈ t₀.passwordResetTokens ∨ ∃ m ∈ t.users, m.id = r.userId ∧ K.issued m.email r

/-- What a request has made of the tables `t₀`. -/
structure Grown (u : Unicode) (K : Warrant) (t₀ t : Tables) : Prop where
  tables : t.WellFormed u
  kept : Kept t₀ t
  accounts : ∀ m' ∈ t.users, ∃ m, (m ∈ t₀.users ∨ K.registered m) ∧ SameAccount m m' ∧
    (m'.hashedPassword = m.hashedPassword ∨ K.reset m.id m.email m'.hashedPassword)
  tokens : ∀ r' ∈ t.passwordResetTokens, ∃ r, Known K t₀ t r ∧ SameToken r r'
  trail : t₀.authEvents <+: t.authEvents

section Grown
variable {u : Unicode} {K K' : Warrant} {t₀ t t' : Tables}

theorem Grown.refl (K : Warrant) (h : t₀.WellFormed u) : Grown u K t₀ t₀ where
  tables := h
  kept := .of_eq rfl
  accounts := fun m hm => ⟨m, .inl hm, .refl m, .inl rfl⟩
  tokens := fun r hr => ⟨r, .inl hr, .refl r⟩
  trail := List.prefix_refl _

theorem Grown.step (h : Grown u K t₀ t) (hK : K.Le K') (tables : t'.WellFormed u) (kept : Kept t t')
    (accounts : ∀ m' ∈ t'.users, K'.registered m' ∨ ∃ m ∈ t.users, SameAccount m m' ∧
      (m'.hashedPassword = m.hashedPassword ∨ K'.reset m.id m.email m'.hashedPassword))
    (tokens : ∀ r' ∈ t'.passwordResetTokens, (∃ m ∈ t'.users, m.id = r'.userId ∧ K'.issued m.email r') ∨
      ∃ r ∈ t.passwordResetTokens, SameToken r r')
    (trail : t.authEvents <+: t'.authEvents) : Grown u K' t₀ t' := by
  refine ⟨tables, h.kept.trans kept, ?_, ?_, h.trail.trans trail⟩
  · intro m' hm'
    rcases accounts m' hm' with hnew | ⟨m, hm, hsame, hhash⟩
    · exact ⟨m', .inr hnew, .refl m', .inl rfl⟩
    · obtain ⟨m₀, hm₀, hsame₀, hhash₀⟩ := h.accounts m hm
      refine ⟨m₀, hm₀.imp_right (hK.registered _), hsame₀.trans hsame, ?_⟩
      rcases hhash with hhash | hreset
      · rcases hhash₀ with hhash₀ | hreset₀
        · exact .inl (hhash.trans hhash₀)
        · rw [hhash]
          exact .inr (hK.reset _ _ _ hreset₀)
      · rw [hsame₀.id, hsame₀.email] at hreset
        exact .inr hreset
  · intro r' hr'
    rcases tokens r' hr' with hissued | ⟨r, hr, hsame⟩
    · exact ⟨r', .inr hissued, .refl r'⟩
    · obtain ⟨r₀, hknown, hsame₀⟩ := h.tokens r hr
      refine ⟨r₀, ?_, hsame₀.trans hsame⟩
      rcases hknown with hold | ⟨m, hm, hid, hissued⟩
      · exact .inl hold
      · obtain ⟨m', hm', hsame'⟩ := kept m hm
        refine .inr ⟨m', hm', hsame'.id.trans hid, ?_⟩
        rw [hsame'.email]
        exact hK.issued _ _ hissued

theorem Grown.mono (h : Grown u K t₀ t) (hK : K.Le K') : Grown u K' t₀ t :=
  h.step hK h.tables (.of_eq rfl) (fun m hm => .inr ⟨m, hm, .refl m, .inl rfl⟩)
    (fun r hr => .inr ⟨r, hr, .refl r⟩) (List.prefix_refl _)

theorem Grown.sameUsers (h : Grown u K t₀ t) (hK : K.Le K') (tables : t'.WellFormed u)
    (users : t'.users = t.users)
    (tokens : ∀ r' ∈ t'.passwordResetTokens, (∃ m ∈ t'.users, m.id = r'.userId ∧ K'.issued m.email r') ∨
      ∃ r ∈ t.passwordResetTokens, SameToken r r')
    (trail : t.authEvents <+: t'.authEvents) : Grown u K' t₀ t' :=
  h.step hK tables (.of_eq users) (fun m hm => .inr ⟨m, users ▸ hm, .refl m, .inl rfl⟩) tokens trail

theorem Grown.insertEvent (h : Grown u K t₀ t) (row : AuthEventModel) :
    Grown u K t₀ ((Statement.insertEvent row).apply t) :=
  h.sameUsers (.refl K) (h.tables.insertEvent row) rfl (fun r hr => .inr ⟨r, hr, .refl r⟩)
    (List.prefix_append _ _)

theorem Grown.deleteAll (h : Grown u K t₀ t) (uid : UUID) :
    Grown u K t₀ ((t.deleteAllByUserId uid).apply t) :=
  h.sameUsers (.refl K) (h.tables.deleteAll uid) rfl
    (fun r hr => .inr ⟨r, List.mem_of_mem_filter hr, .refl r⟩) (List.prefix_refl _)

theorem Grown.insertUser (h : Grown u K t₀ t) (hK : K.Le K') {row : UserModel}
    (tables : ((Statement.insertUser row).apply t).WellFormed u) (hrow : K'.registered row) :
    Grown u K' t₀ ((Statement.insertUser row).apply t) := by
  refine h.step hK tables (fun m hm => ⟨m, List.mem_append_left _ hm, .refl m⟩) ?_
    (fun r hr => .inr ⟨r, hr, .refl r⟩) (List.prefix_refl _)
  intro m' hm'
  rcases List.mem_append.1 hm' with hm' | hm'
  · exact .inr ⟨m', hm', .refl m', .inl rfl⟩
  · rw [List.mem_singleton.1 hm']
    exact .inl hrow

theorem Grown.changePassword (h : Grown u K t₀ t) (hK : K.Le K') {m : UserModel} (hm : m ∈ t.users)
    (newHash : String) (tables : ((Statement.updateUser m (withPassword newHash m)).apply
      t).WellFormed u)
    (hreset : K'.reset m.id m.email newHash) :
    Grown u K' t₀ ((Statement.updateUser m (withPassword newHash m)).apply t) := by
  have husers := update_users h.tables hm newHash
  refine h.step hK tables ?_ ?_ (fun r hr => .inr ⟨r, hr, .refl r⟩) (List.prefix_refl _)
  · intro x hx
    refine ⟨if x.id = m.id then withPassword newHash x else x, ?_, ?_⟩
    · rw [husers]
      exact mem_amend.2 ⟨x, hx, rfl⟩
    · split_ifs <;> exact ⟨rfl, rfl, rfl, rfl⟩
  · intro m' hm'
    rw [husers] at hm'
    obtain ⟨x, hx, rfl⟩ := mem_amend.1 hm'
    by_cases hid : x.id = m.id
    · obtain rfl := h.tables.userIds.unique hx hm hid
      rw [if_pos rfl]
      exact .inr ⟨x, hx, ⟨rfl, rfl, rfl, rfl⟩, .inr hreset⟩
    · rw [if_neg hid]
      exact .inr ⟨x, hx, .refl x, .inl rfl⟩

theorem Grown.consume (h : Grown u K t₀ t) {row : PasswordResetTokenModel}
    (hrow : row ∈ t.passwordResetTokens)
    (tables : ((Statement.updateResetToken row (consumed row)).apply t).WellFormed u) :
    Grown u K t₀ ((Statement.updateResetToken row (consumed row)).apply t) := by
  refine h.sameUsers (.refl K) tables rfl ?_ (List.prefix_refl _)
  intro r' hr'
  rw [update_resetTokens h.tables hrow] at hr'
  obtain ⟨r, hr, rfl⟩ := mem_amend.1 hr'
  refine .inr ⟨r, hr, ?_⟩
  split_ifs
  · exact ⟨rfl, rfl, rfl, rfl, fun _ => rfl⟩
  · exact .refl r

theorem Grown.insertResetToken (h : Grown u K t₀ t) (hK : K.Le K') {row : PasswordResetTokenModel}
    (tables : ((Statement.insertResetToken row).apply t).WellFormed u)
    (hrow : ∃ m ∈ t.users, m.id = row.userId ∧ K'.issued m.email row) :
    Grown u K' t₀ ((Statement.insertResetToken row).apply t) := by
  refine h.sameUsers hK tables rfl ?_ (List.prefix_refl _)
  intro r' hr'
  rcases List.mem_append.1 hr' with hr' | hr'
  · exact .inr ⟨r', hr', .refl r'⟩
  · rw [List.mem_singleton.1 hr']
    exact .inl hrow

end Grown

/-- The session of a request that began at the time `n` with the tables `t₀`. -/
structure Inside (u : Unicode) (t₀ : Tables) (n : ℕ) (K : Warrant) (w : World) : Prop where
  committed : w.db.committed = t₀
  now : w.redis.now = n
  view : Grown u K t₀ w.tables

section Inside
variable {u : Unicode} {t₀ : Tables} {n : ℕ} {K K' : Warrant} {w : World}

theorem Inside.mono (h : Inside u t₀ n K w) (hK : K.Le K') : Inside u t₀ n K' w :=
  ⟨h.committed, h.now, h.view.mono hK⟩

theorem Inside.flush (h : Inside u t₀ n K w) {stmt : Statement}
    (hview : Grown u K' t₀ (stmt.apply w.tables)) :
    Inside u t₀ n K' { w with db := w.db.flush [stmt] } :=
  ⟨h.committed, h.now, by rw [tables_flush]; exact hview⟩

theorem inside_steady (ht : t₀.WellFormed u) : Steady (Inside u t₀ n K) where
  rollback := by
    intro w h
    refine ⟨h.committed, h.now, ?_⟩
    change Grown u K t₀ w.db.committed
    rw [h.committed]
    exact .refl K ht
  event := fun w row h => h.flush (h.view.insertEvent row)
  redis := fun w r n' h hr => ⟨h.committed, hr.trans h.now, h.view⟩
  signed := fun w signed h => ⟨h.committed, h.now, h.view⟩
  dummy := fun w hash h => ⟨h.committed, h.now, h.view⟩

theorem Inside.closed (ht : t₀.WellFormed u) (h : Inside u t₀ n K w) (commits : Bool) :
    Grown u K t₀ (if commits then w.db.commit Statement.apply else w.db.discard).committed := by
  have hstart : Grown u K t₀ w.db.committed := by
    rw [h.committed]
    exact .refl K ht
  cases commits with
  | false => exact hstart
  | true =>
    change Grown u K t₀ (if w.db.aborted then w.db.committed else w.db.view Statement.apply)
    split_ifs
    · exact hstart
    · exact h.view

end Inside

/-- The warrant behind a request covers what the request may do. -/
def Licensed (g : GlobalContainer) (t₀ : Tables) (n : ℕ) (K K' : Warrant) : Request → Prop
  | .register email password d =>
    (∀ address, Email.new g.unicode email = .ok address →
      K'.registered (registeredRow g ⟨email, password⟩ d address n)) ∧
    (∀ m, K.registered m → m.id ≠ d.userId) ∧ ∀ m ∈ t₀.users, m.id ≠ d.userId
  | .requestPasswordReset email _ d =>
    (∀ address uid, Email.new g.unicode email = .ok address →
      K'.issued address.value (toResetTokenModel (requestedToken g d uid n))) ∧
    (∀ r ∈ t₀.passwordResetTokens, r.id ≠ d.tokenId) ∧ ∀ address r, K.issued address r →
    r.id ≠ d.tokenId
  | .resetPassword token newPassword _ d =>
    ∀ address r, r ∈ t₀.passwordResetTokens ∨ K.issued address r → r.token = g.sha256 token →
      r.used = false → (n : ℤ) < r.expiresAt →
        K'.reset r.userId address (g.hashpw newPassword d.salt)
  | _ => True

section Handlers
variable {g : GlobalContainer} {faults : Faults} {t₀ : Tables} {n : ℕ} {K K' : Warrant}

theorem register_inside (ht : t₀.WellFormed g.unicode) (hK : K.Le K') {email password : String}
    {d : RegisterDraws} (hl : Licensed g t₀ n K K' (.register email password d)) :
    Triple (Inside g.unicode t₀ n K) (register g faults email password d)
      (fun _ => Inside g.unicode t₀ n K') (fun _ => Inside g.unicode t₀ n K') := by
  obtain ⟨hnew, hunregistered, habsent⟩ := hl
  have hmono : ∀ w, Inside g.unicode t₀ n K w → Inside g.unicode t₀ n K' w := fun w h => h.mono hK
  refine .handle (.bind ?_ (fun _ => stays_pure _)) (fun e => ?_)
  · unfold registerUser
    refine .bind (triple_checked hmono _) (fun address => .of_fact fun haddress => ?_)
    refine .bind (triple_checked hmono _) (fun _ => .of_fact fun _ => ?_)
    refine .bind (triple_query (inside_steady ht).settled.readable hmono) (fun existing => ?_)
    cases existing with
    | some _ => exact .raise _ (fun w h => hmono w h.1)
    | none =>
      refine .bind (triple_now (Q := fun time w => time = n ∧ Inside g.unicode t₀ n K w)
        (fun w h => ⟨h.1.now, h.1⟩)) (fun createdAt => .of_fact fun htime => ?_)
      subst htime
      refine triple_flush (inside_steady ht).settled hmono (fun w stmt h hs => ?_)
      have hfresh : ∀ m ∈ w.tables.users, m.id ≠ d.userId := by
        intro m hm hid
        obtain ⟨m₀, hold | hr, hsame, -⟩ := h.view.accounts m hm
        · exact habsent m₀ hold (hsame.id.symm.trans hid)
        · exact hunregistered m₀ hr (hsame.id.symm.trans hid)
      obtain ⟨-, ⟨-, rfl⟩ | ⟨old, hold, -⟩⟩ := saveUser_ok hs
      · exact h.flush (h.view.insertUser hK (h.view.tables.saveUser hs) (hnew address haddress))
      · obtain ⟨hmem, hid⟩ := lookup_some hold
        exact absurd hid (hfresh old hmem)
  · cases e <;> first | exact stays_pure _ | exact stays_raise _

theorem requestReset_inside (ht : t₀.WellFormed g.unicode) (hK : K.Le K') {email : String}
    {ip : Option String} {d : RequestResetDraws}
    (hl : Licensed g t₀ n K K' (.requestPasswordReset email ip d)) :
    Triple (Inside g.unicode t₀ n K) (requestReset g faults email ip d)
      (fun _ => Inside g.unicode t₀ n K') (fun _ => Inside g.unicode t₀ n K') := by
  obtain ⟨hissued, habsent, hunissued⟩ := hl
  have hmono : ∀ w, Inside g.unicode t₀ n K w → Inside g.unicode t₀ n K' w := fun w h => h.mono hK
  refine .handle (.bind ?_ (fun _ => stays_pure _)) (fun e => ?_)
  · unfold requestPasswordReset
    refine .bind (triple_checked hmono _) (fun address => .of_fact fun haddress => ?_)
    refine .bind (triple_query (inside_steady ht).settled.readable hmono) (fun found => ?_)
    cases found with
    | none => exact .raise _ (fun w h => hmono w h.1)
    | some user =>
      -- the DELETE leaves the account that was found
      refine .bind (Q := fun _ w => Inside g.unicode t₀ n K w ∧
          ∃ m ∈ w.tables.users, m.id = user.id ∧ m.email = address.value)
        (triple_flush (inside_steady ht).settled (fun w h => hmono w h.1) ?_) (fun _ => ?_)
      · intro w stmt h hs
        obtain rfl := Except.ok.inj hs
        obtain ⟨m, hl, hd⟩ := findByEmail_stored h.2
        obtain ⟨hm, hname⟩ := lookup_some hl
        refine ⟨h.1.flush (h.1.view.deleteAll _), m, ?_, (toDomain_ok hd).1.symm, hname⟩
        rw [tables_flush]
        exact hm
      refine .bind (triple_now (Q := fun time w => time = n ∧ Inside g.unicode t₀ n K w ∧
        ∃ m ∈ w.tables.users, m.id = user.id ∧ m.email = address.value)
          (fun w h => ⟨h.1.now, h⟩)) (fun time => .of_fact fun htime => ?_)
      subst htime
      refine .bind (Q := fun _ => Inside g.unicode t₀ time K')
        (triple_flush (inside_steady ht).settled (fun w h => hmono w h.1) ?_) (fun _ => ?_)
      · intro w stmt h hs
        obtain ⟨hin, m, hm, hid, hname⟩ := h
        have hfresh : ∀ r ∈ w.tables.passwordResetTokens,
          r.id ≠ (requestedToken g d user.id time).id := by
          intro r hr hrid
          obtain ⟨r₀, hold | ⟨x, -, -, hx⟩, hsame⟩ := hin.view.tokens r hr
          · exact habsent r₀ hold (hsame.id.symm.trans hrid)
          · exact hunissued _ r₀ hx (hsame.id.symm.trans hrid)
        obtain rfl := saveResetToken_fresh hfresh hs
        refine hin.flush (hin.view.insertResetToken hK (hin.view.tables.saveResetToken hs)
          ⟨m, hm, hid, ?_⟩)
        rw [hname]
        exact hissued address user.id haddress
      refine .bind (Q := fun _ => Inside g.unicode t₀ time K') ⟨fun w h => ?_⟩ (fun _ => ?_)
      · unfold sendResetEmail
        cases faults .sendResetEmail with
        | some _ => exact h
        | none => exact ⟨h.committed, h.now, h.view⟩
      exact .bind stays_now (fun _ => stays_tryRecord (inside_steady ht).settled _)
  · cases e <;> first | exact stays_pure _ | exact stays_raise _

structure Opened (g : GlobalContainer) (token : String) (n : ℕ) (t : Tables)
    (stored resetToken : PasswordResetToken)
    (user : User g.unicode) : Prop where
  found : t.findByToken (g.sha256 token) = some stored
  usable : stored.consume n = .ok resetToken
  owner : t.findById g.unicode resetToken.userId = .ok (some user)

theorem Inside.resetsUser (hK : K.Le K') {token newPassword : String} {ip : Option String}
    {d : ResetDraws} (hl : Licensed g t₀ n K K' (.resetPassword token newPassword ip d)) {w : World}
    (h : Inside g.unicode t₀ n K w) {stored resetToken : PasswordResetToken} {user : User g.unicode}
    (ho : Opened g token n w.tables stored resetToken user) {stmt : Statement}
    (hs : w.tables.saveUser (user.changePassword (g.hashpw newPassword d.salt)) = .ok stmt) :
    Inside g.unicode t₀ n K' { w with db := w.db.flush [stmt] } ∧
      ∃ row ∈ (World.tables { w with db := w.db.flush [stmt] }).passwordResetTokens,
        resetToken = (consumed row).toDomain := by
  have hview := h.view
  obtain ⟨row, m, hrow, rfl, rfl, hm, hid, hd⟩ :=
    WellFormed.reset_rows hview.tables ho.found ho.usable ho.owner
  have hhash : (g.hashpw newPassword d.salt).length ≤ columnWidth := by
    rw [g.hashpw_length]
    decide
  have hsave := WellFormed.saveUser_changePassword hview.tables hm hd hhash
  have hwf := hview.tables.saveUser hs
  obtain rfl := Except.ok.inj (hsave.symm.trans hs)
  obtain ⟨hmem, htoken⟩ := lookup_some hrow
  obtain ⟨hbefore, hunused, -⟩ := PasswordResetToken.consume_ok.1 ho.usable
  refine ⟨h.flush (hview.changePassword hK hm _ hwf ?_), row, ?_, rfl⟩
  · obtain ⟨r₀, hknown, hsame⟩ := hview.tokens row hmem
    have hknown' : r₀ ∈ t₀.passwordResetTokens ∨ K.issued m.email r₀ := by
      rcases hknown with hold | ⟨x, hx, hxid, hissued⟩
      · exact .inl hold
      · obtain rfl := hview.tables.userIds.unique hx hm (by rw [hxid, ← hsame.userId, hid])
        exact .inr hissued
    have hfree : r₀.used = false := by
      cases hu : r₀.used with
      | false => rfl
      | true =>
        have hrow' : row.used = false := hunused
        rw [hsame.used hu] at hrow'
        cases hrow'
    have hreset := hl m.email r₀ hknown' (hsame.token.symm.trans htoken) hfree
      (by rw [← hsame.expiresAt]; exact hbefore)
    rwa [← hsame.userId, ← hid] at hreset
  · rw [tables_flush]
    exact hmem

theorem reset_inside (ht : t₀.WellFormed g.unicode) (hK : K.Le K') {token newPassword : String}
    {ip : Option String} {d : ResetDraws}
    (hl : Licensed g t₀ n K K' (.resetPassword token newPassword ip d)) :
    Triple (Inside g.unicode t₀ n K) (reset g faults token newPassword ip d)
      (fun _ => Inside g.unicode t₀ n K') (fun _ => Inside g.unicode t₀ n K') := by
  have hmono : ∀ w, Inside g.unicode t₀ n K w → Inside g.unicode t₀ n K' w := fun w h => h.mono hK
  have hsettled : Settled (Inside g.unicode t₀ n K') := (inside_steady ht).settled
  refine .handle (.bind ?_ (fun _ => stays_pure _)) (fun e => ?_)
  · unfold resetPassword
    refine .bind (triple_checked hmono _) (fun _ => .of_fact fun _ => ?_)
    refine .bind (triple_query hsettled.readable hmono) (fun found => ?_)
    cases found with
    | none => exact .raise _ (fun w h => hmono w h.1)
    | some stored =>
      refine .bind (triple_now (Q := fun time w => time = n ∧ Inside g.unicode t₀ n K w ∧
          w.tables.findByToken (g.sha256 token) = some stored)
        (fun w h => ⟨h.1.now, h.1, Except.ok.inj h.2⟩)) (fun time => .of_fact fun htime => ?_)
      subst htime
      refine .bind (triple_checked (fun w h => hmono w h.1) _) (fun resetToken => .of_fact fun hc => ?_)
      refine .bind (triple_query hsettled.readable (fun w h => hmono w h.1)) (fun found => ?_)
      cases found with
      | none => exact .raise _ (fun w h => hmono w h.1.1)
      | some user =>
        refine .bind (Q := fun _ w => Inside g.unicode t₀ time K' w ∧
            ∃ row ∈ w.tables.passwordResetTokens, resetToken = (consumed row).toDomain)
          (triple_flush hsettled (fun w h => hmono w h.1.1) ?_) (fun _ => ?_)
        · intro w stmt h hs
          exact h.1.1.resetsUser hK hl ⟨h.1.2, hc, h.2⟩ hs
        refine .bind (Q := fun _ => Inside g.unicode t₀ time K')
          (triple_flush hsettled (fun w h => h.1) ?_) (fun _ => ?_)
        · rintro w stmt ⟨h, row, hrow, rfl⟩ hs
          have hsave := WellFormed.saveResetToken_consumed h.view.tables hrow
          have hwf := h.view.tables.saveResetToken hs
          obtain rfl := Except.ok.inj (hsave.symm.trans hs)
          exact h.flush (h.view.consume hrow hwf)
        refine .bind (stays_revokeAll hsettled) (fun _ => ?_)
        exact .bind stays_now (fun _ => stays_tryRecord hsettled _)
  · cases e <;> first | exact stays_pure _ | exact stays_raise _

theorem resolve_inside (ht : t₀.WellFormed g.unicode) (hK : K.Le K') {r : Request}
    (hl : Licensed g t₀ n K K' r) :
    Triple (Inside g.unicode t₀ n K) (resolve g faults r) (fun _ => Inside g.unicode t₀ n K')
      (fun _ => Inside g.unicode t₀ n K') := by
  have hmono : ∀ w, Inside g.unicode t₀ n K w → Inside g.unicode t₀ n K' w := fun w h => h.mono hK
  have hsteady : Steady (Inside g.unicode t₀ n K') := inside_steady ht
  cases r with
  | register email password d => exact register_inside ht hK hl
  | login email password device ip d => exact (stays_login hsteady _ _ _ _ _).pre hmono
  | refreshToken token ip d => exact (stays_refresh hsteady _ _ _).pre hmono
  | revokeSession header sessionId ip d => exact (stays_revoke hsteady.settled _ _ _ _).pre hmono
  | requestPasswordReset email ip d => exact requestReset_inside ht hK hl
  | resetPassword token newPassword ip d => exact reset_inside ht hK hl
  | me header =>
    exact (stays_bind (stays_me hsteady.settled.readable _) (fun _ => stays_pure _)).pre hmono

end Handlers

/-! ## One visit -/

/-- The row of a reset request for the address, at a root field of the visit. -/
def IssuedAt (g : GlobalContainer) (parse : String → Option Document) (v : Visit) (n i : ℕ)
    (address : String) (row : PasswordResetTokenModel) : Prop :=
  ∃ email ip a uid, PerformsAt parse v i (.requestPasswordReset email ip (v.chance i).requestReset) ∧
    Email.new g.unicode email = .ok a ∧ a.value = address ∧
    row = toResetTokenModel (requestedToken g (v.chance i).requestReset uid n)

/-- The row of an account that the root field at this position registers. -/
def RegisteredAt (g : GlobalContainer) (parse : String → Option Document) (v : Visit) (n i : ℕ)
    (m : UserModel) : Prop :=
  ∃ email password a, PerformsAt parse v i (.register email password (v.chance i).register) ∧
    Email.new g.unicode email = .ok a ∧
    m = registeredRow g ⟨email, password⟩ (v.chance i).register a n

def warrantAt (g : GlobalContainer) (parse : String → Option Document) (v : Visit) (t₀ : Tables)
    (n i : ℕ) : Warrant where
  registered m := ∃ j < i, RegisteredAt g parse v n j m
  issued address row := ∃ j < i, IssuedAt g parse v n j address row
  reset id address newHash := ∃ j < i, ∃ token newPassword ip d r,
    PerformsAt parse v j (.resetPassword token newPassword ip d) ∧
    newHash = g.hashpw newPassword d.salt ∧
    (r ∈ t₀.passwordResetTokens ∨ ∃ k < j, IssuedAt g parse v n k address r) ∧ r.userId = id ∧
    r.token = g.sha256 token ∧ r.used = false ∧ (n : ℤ) < r.expiresAt

section Visit
variable {g : GlobalContainer} {word : Char → Bool} {parse : String → Option Document} {v : Visit}
  {t₀ : Tables} {n : ℕ}

theorem warrantAt_le {i j : ℕ} (h : i ≤ j) :
    (warrantAt g parse v t₀ n i).Le (warrantAt g parse v t₀ n j) where
  registered := fun _ ⟨k, hk, he⟩ => ⟨k, hk.trans_le h, he⟩
  issued := fun _ _ ⟨k, hk, he⟩ => ⟨k, hk.trans_le h, he⟩
  reset := fun _ _ _ ⟨k, hk, he⟩ => ⟨k, hk.trans_le h, he⟩

theorem mutationRequest_draws {h : HttpRequest} {x : Chance} {f : RootField} {r : Request}
    (hr : mutationRequest h x f = some r) :
    (∀ email password d, r = .register email password d → d = x.register) ∧
      (∀ email password device ip d, r = .login email password device ip d → d = x.login) ∧
      ∀ email ip d, r = .requestPasswordReset email ip d → d = x.requestReset := by
  unfold mutationRequest at hr
  simp only [Option.bind_eq_bind] at hr
  split at hr
  all_goals simp only [Option.bind_eq_some_iff, Option.some.injEq, reduceCtorEq] at hr
  · obtain ⟨input, -, email, -, password, -, rfl⟩ := hr
    simp
  · obtain ⟨input, -, email, -, password, -, device, -, rfl⟩ := hr
    refine ⟨by simp, ?_, by simp⟩
    rintro _ _ _ _ _ ⟨⟩
    rfl
  · obtain ⟨input, -, token, -, rfl⟩ := hr
    simp
  · obtain ⟨input, -, sid, -, rfl⟩ := hr
    simp
  · obtain ⟨input, -, email, -, rfl⟩ := hr
    simp
  · obtain ⟨input, -, token, -, newPassword, -, rfl⟩ := hr
    simp

theorem performsAt_licensed (hfresh : FreshIds parse v t₀) {i : ℕ} {r : Request}
    (h : PerformsAt parse v i r) :
    Licensed g t₀ n (warrantAt g parse v t₀ n i) (warrantAt g parse v t₀ n (i + 1)) r := by
  have hi := h.lt
  obtain ⟨f, hf, hr⟩ := h
  obtain ⟨hregister, -, hrequest⟩ := mutationRequest_draws hr
  cases r with
  | register email password d =>
    obtain rfl := hregister email password d rfl
    refine ⟨fun address ha => ⟨i, Nat.lt_succ_self i, email, password, address, ⟨f, hf, hr⟩,
      ha, rfl⟩, ?_,
      hfresh.users i hi⟩
    rintro m ⟨j, hj, email', password', a, -, -, rfl⟩
    exact hfresh.distinctUsers j i hj hi
  | requestPasswordReset email ip d =>
    obtain rfl := hrequest email ip d rfl
    refine ⟨fun address uid ha => ⟨i, Nat.lt_succ_self i, email, ip, address, uid, ⟨f, hf, hr⟩, ha,
      rfl, rfl⟩,
      hfresh.tokens i hi, ?_⟩
    rintro address row ⟨j, hj, email', ip', a, uid, -, -, -, rfl⟩
    exact hfresh.distinctTokens j i hj hi
  | resetPassword token newPassword ip d =>
    intro address row hknown htoken hunused hbefore
    exact ⟨i, Nat.lt_succ_self i, token, newPassword, ip, d, row, ⟨f, hf, hr⟩, rfl, hknown, rfl, htoken,
      hunused, hbefore⟩
  | login | refreshToken | revokeSession | me => trivial

abbrev InsideAt (g : GlobalContainer) (parse : String → Option Document) (v : Visit) (t₀ : Tables)
    (n i : ℕ) : World → Prop :=
  Inside g.unicode t₀ n (warrantAt g parse v t₀ n i)

theorem along_inside (ht : t₀.WellFormed g.unicode) (hfresh : FreshIds parse v t₀) :
    Along g parse v (InsideAt g parse v t₀ n) where
  mono := fun i _ h => h.mono (warrantAt_le (Nat.le_succ i))
  resolves := fun i _ _ h =>
    resolve_inside ht (warrantAt_le (Nat.le_succ i)) (performsAt_licensed (g := g) (n := n) hfresh h)

theorem insideAt_start {w : World} (ht : t₀.WellFormed g.unicode) (hw : w.db.Fresh)
    (hw₀ : w.db.committed = t₀) : InsideAt g parse v t₀ w.redis.now 0 { w with commands := 0 } := by
  refine ⟨hw₀, rfl, ?_⟩
  change Grown g.unicode _ t₀ (w.db.view Statement.apply)
  rw [Session.view_fresh _ hw, hw₀]
  exact .refl _ ht

theorem executed_grown (ht : t₀.WellFormed g.unicode) (hfresh : FreshIds parse v t₀)
    {c : ExecutionContext} (hc : contextOf parse v.request = some c) {w : World} (hw : w.db.Fresh)
    (hw₀ : w.db.committed = t₀) :
    (executed g v c w).2.db.Fresh ∧
      Grown g.unicode (warrantAt g parse v t₀ w.redis.now
        (executedFields parse v.request.post).length) t₀
        (executed g v c w).2.db.committed := by
  obtain ⟨w', hin, heq⟩ := executed_along (along_inside (n := w.redis.now) ht hfresh)
    (inside_steady ht).settled.readable hc (insideAt_start ht hw hw₀)
  rw [heq]
  refine ⟨?_, hin.closed ht v.commits⟩
  cases v.commits <;> exact ⟨rfl, rfl⟩

theorem visit_grown (word : Char → Bool) (s : HttpState) (hs : s.world.db.Fresh)
    (ht : s.world.db.committed.WellFormed g.unicode) (hfresh : FreshIds parse v s.world.db.committed) :
    (visit g word parse v s).2.world.db.Fresh ∧
      Grown g.unicode (warrantAt g parse v s.world.db.committed s.world.redis.now
          (executedFields parse v.request.post).length) s.world.db.committed
        (visit g word parse v s).2.world.db.committed := by
  rcases visit_cases g word parse v s with hsame | ⟨c, hc, heq⟩
  · rw [hsame]
    exact ⟨hs, .refl _ ht⟩
  · rw [heq]
    exact executed_grown ht hfresh hc hs rfl

end Visit

/-- A step that asks for a reset of the address, with this raw token in its mail. -/
def AsksReset (g : GlobalContainer) (parse : String → Option Document) (address raw : String)
    (x : HttpState × HttpEvent) : Prop :=
  ∃ v email ip d a, x.2 = .visit v ∧ Performs parse v (.requestPasswordReset email ip d) ∧
    Email.new g.unicode email = .ok a ∧ a.value = address ∧ d.rawToken.text = raw

/-- The step resets the password to what gives this hash, with a token that an earlier request
for the address has drawn and that has not expired. -/
def Authorised (g : GlobalContainer) (parse : String → Option Document) (address newHash : String)
    (v : Visit) (b : HttpState) (older : List (HttpState × HttpEvent)) : Prop :=
  ∃ token newPassword ip d, Performs parse v (.resetPassword token newPassword ip d) ∧
    newHash = g.hashpw newPassword d.salt ∧
    ∃ raw, g.sha256 raw = g.sha256 token ∧ ∃ y ∈ (b, .visit v) :: older,
      AsksReset g parse address raw y ∧
      (b.world.redis.now : ℤ) < minutesAfter g.resetTokenExpireMinutes y.1.world.redis.now

/-- Every account is still there with what no handler writes, and no audit event has gone. -/
structure Preserved (t t' : Tables) : Prop where
  accounts : Kept t t'
  trail : t.authEvents <+: t'.authEvents

theorem Preserved.refl (t : Tables) : Preserved t t := ⟨.of_eq rfl, List.prefix_refl _⟩

theorem Preserved.trans {t t' t'' : Tables} (h : Preserved t t') (h' : Preserved t' t'') :
    Preserved t t'' :=
  ⟨h.accounts.trans h'.accounts, h.trail.trans h'.trail⟩

def Sourced (g : GlobalContainer) (parse : String → Option Document)
    (p : List (HttpState × HttpEvent)) (t : Tables) (row : PasswordResetTokenModel) : Prop :=
  ∃ y ∈ p, ∃ v j r, y.2 = .visit v ∧ SameToken r row ∧
    ∃ m ∈ t.users, m.id = row.userId ∧ IssuedAt g parse v y.1.world.redis.now j m.email r

structure RunInvariant (g : GlobalContainer) (parse : String → Option Document)
    (p : List (HttpState × HttpEvent)) (s : HttpState) : Prop where
  session : s.world.db.Fresh
  tables : s.world.db.committed.WellFormed g.unicode
  sourced : ∀ row ∈ s.world.db.committed.passwordResetTokens, Sourced g parse p s.world.db.committed row

section Runs
variable {g : GlobalContainer} {word : Char → Bool} {parse : String → Option Document}

theorem invariant_step {p : List (HttpState × HttpEvent)} {s s' : HttpState} {e : HttpEvent}
    (h : RunInvariant g parse p s) (hs : HttpStep g word parse s e s') :
    RunInvariant g parse ((s, e) :: p) s' := by
  cases hs with
  | wait d =>
    refine ⟨h.session, h.tables, fun row hrow => ?_⟩
    obtain ⟨y, hy, hrest⟩ := h.sourced row hrow
    exact ⟨y, List.mem_cons_of_mem _ hy, hrest⟩
  | visit v fresh =>
    obtain ⟨hsession, hgrown⟩ := visit_grown word s h.session h.tables fresh
    refine ⟨hsession, hgrown.tables, fun row hrow => ?_⟩
    obtain ⟨r, hold | ⟨m, hm, hid, j, -, hissued⟩, hsame⟩ := hgrown.tokens row hrow
    · obtain ⟨y, hy, vy, j, r₀, hvy, hsame₀, m, hm, hid, hissued⟩ := h.sourced r hold
      obtain ⟨m', hm', hm''⟩ := hgrown.kept m hm
      refine ⟨y, List.mem_cons_of_mem _ hy, vy, j, r₀, hvy, hsame₀.trans hsame, m', hm', ?_, ?_⟩
      · rw [hm''.id, hid, hsame.userId]
      · rw [hm''.email]
        exact hissued
    · exact ⟨(s, .visit v), List.mem_cons_self, v, j, r, rfl, hsame, m, hm, hid.trans hsame.userId.symm,
        hissued⟩

theorem run_invariant {s s' : HttpState} {p : List (HttpState × HttpEvent)} (hs : Opens g s)
    (h : Runs (http g word parse) s p s') : RunInvariant g parse p s' := by
  refine h.history (RunInvariant g parse) (fun _ _ _ _ hI hstep => invariant_step hI hstep) ?_
  refine ⟨hs.session, hs.tables, ?_⟩
  rw [hs.noTokens]
  exact fun row hrow => absurd hrow List.not_mem_nil

theorem preserved_step {s s' : HttpState} {e : HttpEvent} (hsession : s.world.db.Fresh)
    (ht : s.world.db.committed.WellFormed g.unicode) (hs : HttpStep g word parse s e s') :
    Preserved s.world.db.committed s'.world.db.committed := by
  cases hs with
  | wait d => exact .refl _
  | visit v fresh =>
    obtain ⟨-, hgrown⟩ := visit_grown word s hsession ht fresh
    exact ⟨hgrown.kept, hgrown.trail⟩

/-- Whatever is sent and whatever fails: the tables meet the constraints of the schema, no account
goes or changes its address, its activity or its age, and the audit trail is only appended to. -/
theorem accounts_preserved {s b s' : HttpState} {p q : List (HttpState × HttpEvent)} (hs : Opens g s)
    (h : Runs (http g word parse) s p b) (h' : Runs (http g word parse) b q s') :
    s'.world.db.committed.WellFormed g.unicode ∧
      Preserved b.world.db.committed s'.world.db.committed := by
  refine ⟨(run_invariant hs (h.trans h')).tables, ?_⟩
  induction h' with
  | refl => exact .refl _
  | next front hstep ih =>
    have hI := run_invariant hs (h.trans front)
    exact ih.trans (preserved_step hI.session hI.tables hstep)

/-- The hash of an account stays, or the step presents a token that a reset request for the
address of this account has drawn, and sets the password to what it presents. -/
theorem password_changes_authorised {s b s' : HttpState} {newer older : List (HttpState × HttpEvent)}
    {v : Visit} (hs : Opens g s)
    (h : Runs (http g word parse) s (newer ++ (b, .visit v) :: older) s') {m m' : UserModel}
    (hm : m ∈ b.world.db.committed.users)
    (hm' : m' ∈ (visit g word parse v b).2.world.db.committed.users) (hid : m'.id = m.id) :
    m'.hashedPassword = m.hashedPassword ∨
      Authorised g parse m.email m'.hashedPassword v b older := by
  obtain ⟨b', hbefore, hstep, -⟩ := h.split
  have hI := run_invariant hs hbefore
  cases hstep with
  | visit _ fresh =>
    obtain ⟨-, hgrown⟩ := visit_grown word b hI.session hI.tables fresh
    obtain ⟨m₀, hm₀ | ⟨j, hj, email, password, a, -, -, rfl⟩, hsame, hhash⟩ := hgrown.accounts m' hm'
    · obtain rfl := hI.tables.userIds.unique hm₀ hm (hsame.id.symm.trans hid)
      rcases hhash with hhash | ⟨i, -, token, newPassword, ip, d, r, hperforms, hnew, hknown, hrid,
        htoken, -,
        hexp⟩
      · exact .inl hhash
      refine .inr ⟨token, newPassword, ip, d, ⟨i, hperforms⟩, hnew, ?_⟩
      rcases hknown with hold | ⟨j, -, hissued⟩
      · obtain ⟨y, hy, vy, j, r₀, hvy, hsame₀, x, hx, hxid, email, ip', a, uid, hp, ha, haddr, rfl⟩ :=
          hI.sourced r hold
        obtain rfl := hI.tables.userIds.unique hx hm₀ (hxid.trans hrid)
        refine ⟨_, hsame₀.token.symm.trans htoken, y, List.mem_cons_of_mem _ hy,
          ⟨vy, email, ip', _, a, hvy, ⟨j, hp⟩, ha, haddr, rfl⟩, ?_⟩
        rw [hsame₀.expiresAt] at hexp
        exact hexp
      · obtain ⟨email, ip', a, uid, hp, ha, haddr, rfl⟩ := hissued
        exact ⟨_, htoken, _, List.mem_cons_self,
          ⟨v, email, ip', _, a, rfl, ⟨j, hp⟩, ha, haddr, rfl⟩, hexp⟩
    · exact absurd (hid.symm.trans hsame.id) (fresh.users j hj m hm)

end Runs

section Sample
open SampleContainer

theorem accounts_preserved_reset :
    resetHttp.world.db.committed.WellFormed sample.unicode ∧
      Preserved askedHttp.world.db.committed resetHttp.world.db.committed :=
  accounts_preserved sampleHttp_opens
    (Runs.single (HttpStep.visit sampleHttp askVisit askVisit_fresh))
    (Runs.single (HttpStep.visit askedHttp resetVisit resetVisit_fresh))

theorem password_changes_authorised_reset :
    Authorised sample parseResets "alice@example.com" hashTwo resetVisit askedHttp
      [(sampleHttp, .visit askVisit)] := by
  have hm' : (⟨alice, "alice@example.com", hashTwo, true, startTime⟩ : UserModel) ∈
      (visit sample isWordChar parseResets resetVisit askedHttp).2.world.db.committed.users := by
    decide +kernel
  have hm : aliceRow ∈ askedHttp.world.db.committed.users := by
    rw [askedHttp_users]
    exact List.mem_singleton_self _
  have hruns : Runs (http sample isWordChar parseResets) sampleHttp
      ([] ++ (askedHttp, .visit resetVisit) :: [(sampleHttp, .visit askVisit)]) resetHttp := reset_runs
  rcases password_changes_authorised sampleHttp_opens hruns hm hm' rfl with hsame | h
  · exact absurd hsame (by decide)
  · exact h

end Sample

end AuthService.AccountIntegrity
