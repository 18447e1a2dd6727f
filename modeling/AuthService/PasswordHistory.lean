import AuthService.AccountEffects
import AuthService.BearerAuthentication

set_option autoImplicit false

/-! Which password an account was last given, and which passwords a login accepts. -/
namespace AuthService.PasswordHistory
open Uuids PythonText DomainModel KeyedRows AccountTables Transactions FallibleState Fallible
open LabelledRuns RedisSessions RequestPorts RedisTokenStore CommandHandlers GraphqlResolvers
  HandlerRuns
open SessionDiscipline AccountEffects ServiceRuns BearerAuthentication

/-- `s.encode("utf-8")`. -/
def bytes (s : String) : List UInt8 := s.toUTF8.data.toList

theorem bytes_length (s : String) : (bytes s).length = s.utf8ByteSize := by
  simp [bytes]

theorem bytes_injective : Function.Injective bytes := fun _ _ h =>
  String.toByteArray_inj.1 (ByteArray.ext (Array.toList_inj.1 h))

def bcryptBytes (s : String) : List UInt8 := (bytes s).take maxBytes

/-- The documented outcome of `checkpw(q, hashpw(password, salt))`. -/
def BcryptChecks (g : GlobalContainer) (q password salt : String) : Prop :=
  g.checkpw q (g.hashpw password salt) = some (decide (bcryptBytes q = bcryptBytes password))

/-- `q` goes on after a password of the full length. -/
def Overlong (q password : String) : Prop :=
  password.utf8ByteSize = maxBytes ∧ ∃ rest, rest ≠ [] ∧ bytes q = bytes password ++ rest

theorem bcryptBytes_eq {q password : String} (h : password.utf8ByteSize ≤ maxBytes) :
    bcryptBytes q = bcryptBytes password ↔ q = password ∨ Overlong q password := by
  have hp : bcryptBytes password = bytes password :=
    List.take_of_length_le (by rwa [bytes_length])
  rw [hp]
  constructor
  · intro hq
    by_cases hlen : (bytes q).length ≤ maxBytes
    · left
      rw [bcryptBytes, List.take_of_length_le hlen] at hq
      exact bytes_injective hq
    · right
      have hsplit : bytes q = bytes password ++ (bytes q).drop maxBytes := by
        rw [← hq, bcryptBytes, List.take_append_drop]
      refine ⟨?_, (bytes q).drop maxBytes, ?_, hsplit⟩
      · rw [← bytes_length, ← hq, bcryptBytes, List.length_take]
        omega
      · intro hnil
        rw [List.drop_eq_nil_iff] at hnil
        exact hlen hnil
  · rintro (rfl | ⟨hfull, rest, -, hq⟩)
    · exact hp
    · rw [bcryptBytes, hq, List.take_append_of_le_length (by rw [bytes_length, hfull]),
        List.take_of_length_le (by rw [bytes_length, hfull])]

theorem overlong_ne {q password : String} (h : Overlong q password) : q ≠ password := by
  obtain ⟨-, rest, hne, hq⟩ := h
  rintro rfl
  exact hne (List.append_right_eq_self.1 hq.symm)

def Sets (g : GlobalContainer) (u : UUID) (password salt : String) (x : ServiceState × Event) : Prop :=
  (∃ email d message, x.2 = .request (.register email password d) ∧ d.userId = u ∧ d.salt = salt ∧
      answer g noFaults (.register email password d) x.1.world = .operationResult true message) ∨
    ∃ token ip d message row, x.2 = .request (.resetPassword token password ip d) ∧ d.salt = salt ∧
      answer g noFaults (.resetPassword token password ip d) x.1.world =
        .operationResult true message ∧
      row ∈ x.1.world.db.committed.passwordResetTokens ∧ row.token = g.sha256 token ∧ row.userId = u

/-- The password most recently set for the user. -/
def LastSet (g : GlobalContainer) (u : UUID) (password salt : String) (p : History) : Prop :=
  Since (Sets g u password salt) (fun x => ∀ password' salt', ¬ Sets g u password' salt' x) p

inductive HashEffect (g : GlobalContainer) (x : ServiceState × Event) (s' : ServiceState) : Prop where
  | quiet (users : s'.world.db.committed.users = x.1.world.db.committed.users)
      (silent : ∀ u password salt, ¬ Sets g u password salt x) : HashEffect g x s'
  | set {u : UUID} {password salt : String}
      (hash : ∀ m ∈ s'.world.db.committed.users, m.id = u →
        m.hashedPassword = g.hashpw password salt)
      (others : ∀ m ∈ s'.world.db.committed.users, m.id ≠ u → m ∈ x.1.world.db.committed.users)
      (short : password.utf8ByteSize ≤ maxBytes)
      (sets : ∀ u' password' salt', Sets g u' password' salt' x ↔
        u' = u ∧ password' = password ∧ salt' = salt) : HashEffect g x s'

def Settled (g : GlobalContainer) (s : ServiceState) : Prop :=
  s.world.db.Fresh ∧ s.world.db.committed.WellFormed g.unicode

theorem settled_step {g : GlobalContainer} {s s' : ServiceState} {e : Event} (h : Settled g s)
    (hstep : ServiceStep g s e s') : Settled g s' := by
  cases hstep with
  | wait d => exact h
  | request r _ =>
    have hdb := after_fresh g noFaults r s.world
    have ht := after_wellFormed g noFaults r h.1 h.2
    generalize after g noFaults r s.world = w' at hdb ht ⊢
    cases r <;> exact ⟨hdb, ht⟩

section Effects
variable {g : GlobalContainer} {s : ServiceState}

theorem not_sets {e : Event} (hr : ∀ email password d, e ≠ .request (.register email password d))
    (hp : ∀ token password ip d, e ≠ .request (.resetPassword token password ip d)) (u : UUID)
    (password salt : String) : ¬ Sets g u password salt (s, e) := by
  rintro (⟨email, d, _, he, -⟩ | ⟨token, ip, d, _, _, he, -⟩)
  · exact hr email password d he
  · exact hp token password ip d he

theorem register_hashes (h : Settled g s) (email password : String) (d : RegisterDraws) :
    HashEffect g (s, .request (.register email password d))
      (recordDraws (.register email password d)
        (after g noFaults (.register email password d) s.world) s) := by
  obtain ⟨hafter, hok, herr⟩ := serve_register g noFaults s.world email password d
  have hout := registerUser_effect (g := g) (w := { s.world with commands := 0 }) h.1 h.2
    ⟨email, password⟩ d
  generalize registerUser g noFaults ⟨email, password⟩ d { s.world with commands := 0 } = out
    at hafter hok herr hout
  have hdb : (recordDraws (.register email password d)
      (after g noFaults (.register email password d) s.world) s).world.db =
      out.2.db.commit Statement.apply := by rw [recordDraws_world, hafter]
  cases hout with
  | refused same =>
    refine .quiet ?_ ?_
    · rw [hdb, same]
    · rintro u pw salt (⟨_, _, m, hx, -, -, hm⟩ | ⟨_, _, _, _, _, hx, -⟩)
      · simp only [Event.request.injEq, Request.register.injEq] at hx
        obtain ⟨rfl, rfl, rfl⟩ := hx
        have hfail := herr _ rfl
        rw [hm] at hfail
        simp [Answer.failed] at hfail
      · simp at hx
  | @done address p w' named hp alive users =>
    have hcommit : (recordDraws (.register email password d)
        (after g noFaults (.register email password d) s.world) s).world.db.committed =
        w'.tables := by rw [hdb, Session.commit_committed _ _ alive, World.tables]
    refine @HashEffect.set _ _ _ d.userId password d.salt ?_ ?_ ?_ ?_
    · intro m hm hid
      rw [hcommit] at hm
      rcases users with ⟨hnew, hu⟩ | hu
      · rw [hu] at hm
        rcases List.mem_append.1 hm with hm | hm
        · exact absurd hid (hnew m hm)
        · rw [List.mem_singleton.1 hm]
          rfl
      · rw [hu] at hm
        obtain ⟨r, hr, rfl⟩ := mem_amend.1 hm
        split_ifs at hid ⊢ with hrid
        · rfl
        · exact absurd hid hrid
    · intro m hm hid
      rw [hcommit] at hm
      rcases users with ⟨-, hu⟩ | hu
      · rw [hu] at hm
        rcases List.mem_append.1 hm with hm | hm
        · exact hm
        · rw [List.mem_singleton.1 hm] at hid
          exact absurd rfl hid
      · rw [hu] at hm
        obtain ⟨r, hr, rfl⟩ := mem_amend.1 hm
        split_ifs at hid ⊢ with hrid
        · exact absurd rfl hid
        · exact hr
    · have hv : p.value = password := PlainPassword.new_ok hp
      rw [← hv]
      exact p.short
    · intro u' pw' salt'
      constructor
      · rintro (⟨_, _, m, hx, rfl, rfl, -⟩ | ⟨_, _, _, _, _, hx, -⟩)
        · simp only [Event.request.injEq, Request.register.injEq] at hx
          obtain ⟨rfl, rfl, rfl⟩ := hx
          exact ⟨rfl, rfl, rfl⟩
        · simp at hx
      · rintro ⟨rfl, rfl, rfl⟩
        exact .inl ⟨email, d, _, rfl, rfl, rfl, hok () rfl⟩

theorem resetsUser_unique {t : Tables} {u : Unicode} (ht : t.WellFormed u)
    {row row' : PasswordResetTokenModel} (h : row ∈ t.passwordResetTokens)
    (h' : row' ∈ t.passwordResetTokens) (he : row.token = row'.token) : row.userId = row'.userId := by
  rw [ht.tokens.unique h h' he]

theorem reset_hashes (h : Settled g s) (token password : String) (ip : Option String)
    (d : ResetDraws) :
    HashEffect g (s, .request (.resetPassword token password ip d))
      (recordDraws (.resetPassword token password ip d)
        (after g noFaults (.resetPassword token password ip d) s.world) s) := by
  obtain ⟨hafter, hok, herr⟩ := serve_reset g noFaults s.world token password ip d
  have hout := resetPassword_effect (g := g) (w := { s.world with commands := 0 }) h.1 h.2
    ⟨token, password, ip⟩ d
  generalize resetPassword g noFaults ⟨token, password, ip⟩ d { s.world with commands := 0 } = out
    at hafter hok herr hout
  have hdb : (recordDraws (.resetPassword token password ip d)
      (after g noFaults (.resetPassword token password ip d) s.world) s).world.db =
      out.2.db.commit Statement.apply := by rw [recordDraws_world, hafter]
  have hstop : ∀ e, out.1 = .error e → out.2 = { s.world with commands := 0 } →
      HashEffect g (s, .request (.resetPassword token password ip d))
        (recordDraws (.resetPassword token password ip d)
          (after g noFaults (.resetPassword token password ip d) s.world) s) := by
    intro e he hsame
    refine .quiet ?_ ?_
    · rw [hdb, hsame, Session.commit_of_fresh _ h.1]
    · rintro u pw salt (⟨_, _, _, hx, -⟩ | ⟨_, _, _, m, _, hx, -, hm, -⟩)
      · simp at hx
      · simp only [Event.request.injEq, Request.resetPassword.injEq] at hx
        obtain ⟨rfl, rfl, rfl, rfl⟩ := hx
        have hfail := herr e he
        rw [hm] at hfail
        simp [Answer.failed] at hfail
  cases hout with
  | weak _ => exact hstop _ rfl rfl
  | missing _ => exact hstop _ rfl rfl
  | refused _ _ => exact hstop _ rfl rfl
  | @done row w' p hp found usable alive users tokens =>
    obtain ⟨hrow, htok⟩ := lookup_some found
    have hcommit : (recordDraws (.resetPassword token password ip d)
        (after g noFaults (.resetPassword token password ip d) s.world) s).world.db.committed =
        w'.tables := by rw [hdb, Session.commit_committed _ _ alive, World.tables]
    refine @HashEffect.set _ _ _ row.userId password d.salt ?_ ?_ ?_ ?_
    · intro m hm hid
      rw [hcommit, users] at hm
      obtain ⟨r, hr, rfl⟩ := mem_amend.1 hm
      split_ifs at hid ⊢ with hrid
      · rfl
      · exact absurd hid hrid
    · intro m hm hid
      rw [hcommit, users] at hm
      obtain ⟨r, hr, rfl⟩ := mem_amend.1 hm
      split_ifs at hid ⊢ with hrid
      · exact absurd hrid hid
      · exact hr
    · have hv : p.value = password := PlainPassword.new_ok hp
      rw [← hv]
      exact p.short
    · intro u' pw' salt'
      constructor
      · rintro (⟨_, _, _, hx, -⟩ | ⟨_, _, _, _, row', hx, rfl, -, hrow', htok', rfl⟩)
        · simp at hx
        · simp only [Event.request.injEq, Request.resetPassword.injEq] at hx
          obtain ⟨rfl, rfl, rfl, rfl⟩ := hx
          exact ⟨resetsUser_unique h.2 hrow' hrow (htok'.trans htok.symm), rfl, rfl⟩
      · rintro ⟨rfl, rfl, rfl⟩
        exact .inr ⟨token, ip, d, _, row, rfl, rfl, hok () rfl, hrow, htok, rfl⟩

def SameUsers (t t' : Tables) : Prop := t.users = t'.users

theorem SameUsers.refl (t : Tables) : SameUsers t t := rfl

theorem SameUsers.trans {t t' t'' : Tables} (h : SameUsers t t') (h' : SameUsers t' t'') :
    SameUsers t t'' :=
  Eq.trans h h'

def KeepsUsers (stmt : Statement) : Prop := ∀ t, SameUsers (stmt.apply t) t

theorem allows_saveToken (token : PasswordResetToken) :
    Allows (Session.Extends KeepsUsers) (Tables.saveResetToken token) := by
  intro s stmt h
  refine Session.Extends.flush ?_ s
  obtain ⟨-, ⟨-, rfl⟩ | ⟨old, -, rfl⟩⟩ := saveResetToken_ok h
  · exact fun _ => rfl
  · exact fun _ => rfl

theorem requestReset_users (email : String) (ip : Option String) (d : RequestResetDraws) {w : World}
    (hw : w.db.Fresh) : SameUsers
      (after g noFaults (.requestPasswordReset email ip d) w).db.committed w.db.committed := by
  have hk : Keeps (overDb (Session.Extends KeepsUsers))
      (resolve g noFaults (.requestPasswordReset email ip d)) := by
    refine keeps_requestReset (extends_discipline KeepsUsers) ?_ ?_ allows_saveToken email ip d
    · intro row s stmt h
      rw [← Except.ok.inj h]
      exact Session.Extends.flush (fun _ => rfl) s
    · intro userId s stmt h
      rw [← Except.ok.inj h]
      exact Session.Extends.flush (fun _ => rfl) s
  rw [after_eq]
  exact Session.Extends.after_commit Statement.apply SameUsers.refl (fun _ _ _ => SameUsers.trans)
    (fun stmt t h => h t) hw (hk { w with commands := 0 })

theorem hash_effect (h : Settled g s) {e : Event} {s' : ServiceState} (hstep : ServiceStep g s e s') :
    HashEffect g (s, e) s' := by
  cases hstep with
  | wait d => exact .quiet rfl (not_sets (by simp) (by simp))
  | request r _ =>
    have haudit : auditOnly r = true → HashEffect g (s, .request r)
        (recordDraws r (after g noFaults r s.world) s) := by
      intro hr
      refine .quiet ?_ (not_sets ?_ ?_)
      · rw [recordDraws_world, (after_sameAccounts g noFaults hr h.1).1]
      · rintro _ _ _ he
        rw [Event.request.inj he] at hr
        simp [auditOnly] at hr
      · rintro _ _ _ _ he
        rw [Event.request.inj he] at hr
        simp [auditOnly] at hr
    cases r with
    | register email password d => exact register_hashes h email password d
    | resetPassword token password ip d => exact reset_hashes h token password ip d
    | requestPasswordReset email ip d =>
      refine .quiet ?_ (not_sets (by simp) (by simp))
      rw [recordDraws_world]
      exact requestReset_users email ip d h.1
    | login email password device ip d => exact haudit rfl
    | refreshToken token ip d => exact haudit rfl
    | revokeSession header text ip d => exact haudit rfl
    | me header => exact haudit rfl

end Effects

structure Remembered (g : GlobalContainer) (p : History) (s : ServiceState) : Prop where
  settled : Settled g s
  hash : ∀ m ∈ s.world.db.committed.users, ∀ password salt, LastSet g m.id password salt p →
    m.hashedPassword = g.hashpw password salt ∧ password.utf8ByteSize ≤ maxBytes

theorem remembered_step {g : GlobalContainer} {p : History} {s s' : ServiceState} {e : Event}
    (h : Remembered g p s) (hstep : ServiceStep g s e s') : Remembered g ((s, e) :: p) s' := by
  refine ⟨settled_step h.settled hstep, ?_⟩
  intro m hm password salt hlast
  cases hash_effect h.settled hstep with
  | quiet users silent =>
    rcases since_cons.1 hlast with hset | ⟨-, hlast⟩
    · exact absurd hset (silent _ _ _)
    · rw [users] at hm
      exact h.hash m hm password salt hlast
  | @set u pw sa hash others short sets =>
    rcases since_cons.1 hlast with hset | ⟨hnone, hlast⟩
    · obtain ⟨hu, rfl, rfl⟩ := (sets _ _ _).1 hset
      exact ⟨hash m hm hu, short⟩
    · have hne : m.id ≠ u := by
        rintro rfl
        exact hnone pw sa ((sets _ _ _).2 ⟨rfl, rfl, rfl⟩)
      exact h.hash m (others m hm hne) password salt hlast

theorem remembered_runs {g : GlobalContainer} {s v : ServiceState} {p : History} (hs : Starts g s)
    (h : Runs (service g) s p v) : Remembered g p v := by
  refine h.history (Remembered g) (fun _ _ _ _ hI hstep => remembered_step hI hstep) ?_
  refine ⟨⟨hs.session, hs.tables⟩, ?_⟩
  rintro m - password salt hlast
  exact absurd hlast since_nil

section Login
variable {g : GlobalContainer} {w : World}

theorem authenticateUser_ok_iff (hdb : w.db.Fresh) (ht : w.db.committed.WellFormed g.unicode)
    {cmd : AuthenticateUserCommand} (d : LoginDraws) {address : Email g.unicode}
    (haddr : Email.new g.unicode cmd.email = .ok address) {m : UserModel}
    (hm : m ∈ w.db.committed.users) (hmail : m.email = address.value) (hact : m.isActive = true) :
    (∃ pair, (authenticateUser g noFaults cmd d w).1 = .ok pair) ↔
      verify g cmd.password m.hashedPassword = true := by
  have hview : w.tables = w.db.committed := Session.view_fresh _ hdb
  obtain ⟨user, hl, hd⟩ := WellFormed.findByEmail ht hm
  obtain ⟨-, hhash, hactive, -, -⟩ := toDomain_ok hd
  have hfound : findByEmail g noFaults address w = (.ok (some user), w) := by
    rw [findByEmail, query_run rfl hdb.2, hview, ← hmail, hl]
  unfold authenticateUser
  rw [haddr, bind_ok (ofExcept_run _ _), bind_ok hfound]
  simp only [hactive, hhash, hact, Bool.true_eq_false, if_false]
  cases hv : verify g cmd.password m.hashedPassword with
  | false =>
    simp only [↓reduceIte]
    rw [bind_ok recordLoginFailed_run, raise_run]
    simp
  | true =>
    simp only [Bool.true_eq_false, ↓reduceIte]
    rw [bind_ok (generateAccessToken_run _ _ _), createSession,
      bind_ok (command_run quiet_noFaults), bind_ok now_run, bind_ok (tryRecord_run _), pure_run]
    exact iff_of_true ⟨_, rfl⟩ trivial

end Login

/-- A login accepts exactly the password last set, unless the submitted text goes on after a
password of 72 bytes. -/
theorem login_accepts_iff {g : GlobalContainer} {s v : ServiceState} {p : History} (hs : Starts g s)
    (h : Runs (service g) s p v) {m : UserModel} (hm : m ∈ v.world.db.committed.users)
    (hact : m.isActive = true) {text : String} {address : Email g.unicode}
    (haddr : Email.new g.unicode text = .ok address) (hmail : m.email = address.value)
    {password salt : String} (hlast : LastSet g m.id password salt p) (q : String)
    (hbcrypt : BcryptChecks g q password salt) (device ip : Option String) (d : LoginDraws) :
    ((∃ pair, (authenticateUser g noFaults ⟨text, q, device, ip⟩ d v.world).1 = .ok pair) ↔
      q = password) ↔ ¬ Overlong q password := by
  obtain ⟨⟨hdb, ht⟩, hhash⟩ := remembered_runs hs h
  obtain ⟨hstored, hshort⟩ := hhash m hm password salt hlast
  have hlogin := @authenticateUser_ok_iff g v.world hdb ht ⟨text, q, device, ip⟩ d address haddr m
    hm hmail hact
  have hverify : verify g q m.hashedPassword = true ↔ q = password ∨ Overlong q password := by
    rw [verify, hstored, hbcrypt, Option.getD_some, decide_eq_true_eq, bcryptBytes_eq hshort]
  rw [hlogin, hverify]
  constructor
  · rintro hiff hover
    exact overlong_ne hover (hiff.1 (.inr hover))
  · intro hover
    exact or_iff_left hover

section Sample
open SampleContainer

def bobDraws : RegisterDraws := ⟨bob, saltThree⟩

def registerBob : Request := .register "bob@example.com" longPassword bobDraws

def bobRegistered : ServiceState :=
  recordDraws registerBob (after sample noFaults registerBob initialWorld) sampleStart

theorem bobRegistered_runs :
    Runs (service sample) sampleStart [(sampleStart, .request registerBob)] bobRegistered :=
  .single (ServiceStep.request sampleStart registerBob trivial)

theorem bobRegistered_last :
    LastSet sample bob longPassword saltThree [(sampleStart, .request registerBob)] := by
  refine since_cons.2 (.inl (.inl ⟨"bob@example.com", bobDraws, "User registered successfully", rfl,
    rfl, rfl, ?_⟩))
  change answer sample noFaults registerBob initialWorld = _
  decide +kernel

def bobEmail : Email sample.unicode :=
  ⟨"bob@example.com", bob_accepted, bob_normalized⟩

def bobRow : UserModel := ⟨bob, "bob@example.com", hashThree, true, startTime⟩

theorem login_accepts_iff_long :
    ∃ pair, (authenticateUser sample noFaults ⟨"bob@example.com", longPassword, none, none⟩ loginDraws
      bobRegistered.world).1 = .ok pair := by
  refine ((login_accepts_iff (m := bobRow) sampleStart_starts bobRegistered_runs ?_ rfl
    (Email.new_value bobEmail) rfl bobRegistered_last longPassword ?_ none none loginDraws).2
      (fun h => overlong_ne h rfl)).2 rfl
  · decide +kernel
  · unfold BcryptChecks
    decide +kernel

/-- The 73rd byte of a submitted password does not matter. -/
theorem overlong_password_accepted : ∃ pair,
    (authenticateUser sample noFaults ⟨"bob@example.com", longPassword ++ "1", none, none⟩ loginDraws
      bobRegistered.world).1 = .ok pair ∧ longPassword ++ "1" ≠ longPassword ∧
    LastSet sample bob longPassword saltThree [(sampleStart, .request registerBob)] ∧
    Runs (service sample) sampleStart [(sampleStart, .request registerBob)] bobRegistered := by
  refine ⟨_, rfl, ?_, bobRegistered_last, bobRegistered_runs⟩
  decide +kernel

end Sample

end AuthService.PasswordHistory
