import AuthService.ThreadOrigins

set_option autoImplicit false

/-! Where the password hashes come from when requests of every kind run next to each other. -/
namespace AuthService.HashOrigins
open Uuids PythonText DomainModel KeyedRows AccountTables Transactions RedisSessions RequestPorts
open CommandHandlers LabelledRuns ThreadPools ReadCommitted SessionThreads PasswordThreads
open RegistrationThreads RequestThreads

def written : Statement → Option (UUID × String)
  | .insertUser row => some (row.id, row.hashedPassword)
  | .updateUser old new => some (old.id, new.hashedPassword)
  | _ => none

structure Writes (P : UUID → String → Prop) (stmt : Statement) : Prop where
  related : ∀ uid hash, written stmt = some (uid, hash) → P uid hash

def Hashed (P : UUID → String → Prop) (t : Tables) : Prop := ∀ m ∈ t.users, P m.id m.hashedPassword

section Statements
variable {P P' : UUID → String → Prop}

theorem Writes.mono (hP : ∀ uid hash, P uid hash → P' uid hash) {stmt : Statement} (h : Writes P stmt) :
    Writes P' stmt :=
  ⟨fun uid hash hw => hP uid hash (h.related uid hash hw)⟩

theorem Writes.nothing {stmt : Statement} (h : written stmt = none) : Writes P stmt := by
  refine ⟨fun uid hash hw => ?_⟩
  rw [h] at hw
  cases hw

theorem Writes.pair {stmt : Statement} {uid : UUID} {hash : String}
    (h : written stmt = some (uid, hash))
    (hp : P uid hash) : Writes P stmt := by
  refine ⟨fun uid' hash' hw => ?_⟩
  obtain ⟨rfl, rfl⟩ := Prod.mk.inj (Option.some.inj (h.symm.trans hw))
  exact hp

theorem Hashed.apply {t : Tables} (h : Hashed P t) {stmt : Statement} (hs : Writes P stmt) :
    Hashed P (stmt.apply t) := by
  intro m hm
  cases stmt with
  | insertUser row =>
    rcases List.mem_append.1 hm with hm | hm
    · exact h m hm
    · rw [List.mem_singleton.1 hm]
      exact hs.related _ _ rfl
  | updateUser old new =>
    obtain ⟨x, hx, rfl⟩ := mem_amend.1 hm
    split_ifs with hid
    · simp only [UserModel.patch, changed]
      split_ifs
      · exact h x hx
      · rw [hid]
        exact hs.related _ _ rfl
    · exact h x hx
  | insertResetToken | updateResetToken | deleteResetTokens | insertEvent => exact h m hm

theorem Hashed.replay {t : Tables} (h : Hashed P t) {log : List Statement}
    (hs : ∀ stmt ∈ log, Writes P stmt) :
    Hashed P (replay Statement.apply log t) := by
  induction log generalizing t with
  | nil => exact h
  | cons stmt log ih =>
    exact ih (h.apply (hs stmt List.mem_cons_self)) (fun x hx => hs x (List.mem_cons_of_mem _ hx))

theorem saveUser_writes {u : Unicode} {t : Tables} {user : User u} {stmt : Statement}
    (hs : t.saveUser user = .ok stmt) (hp : P user.id user.hashedPassword) : Writes P stmt := by
  obtain ⟨-, ⟨-, rfl⟩ | ⟨old, hold, rfl⟩⟩ := saveUser_ok hs
  · exact .pair rfl hp
  · refine .pair rfl ?_
    rw [(lookup_some hold).2]
    exact hp

end Statements

def intended {g : GlobalContainer} : RequestThread g → Option (UUID × String)
  | .register (.saving _ user) => some (user.id, user.hashedPassword)
  | .password (.consumed command d _ token) => some (token.userId, g.hashpw command.newPassword d.salt)
  | .password (.owned command d _ _ owner _) => some (owner.id, g.hashpw command.newPassword d.salt)
  | _ => none

def pending {g : GlobalContainer} : RequestThread g → List Statement
  | .register (.saved _ stmt) => [stmt]
  | .password (.userSaved _ _ _ _ _ s₁) => [s₁]
  | .password (.revoking _ _ _ s₁ s₂ _) => [s₁, s₂]
  | _ => []

structure Entitled {g : GlobalContainer} (P : UUID → String → Prop) (t : RequestThread g) : Prop where
  plan : ∀ uid hash, intended t = some (uid, hash) → P uid hash
  log : ∀ stmt ∈ pending t, Writes P stmt

/-- A registration for its own new account, or a reset with an unused token of the account that
has not expired. -/
inductive Authorises {g : GlobalContainer} {ι : Type} (σ : Stores ι) :
    RequestThread g → UUID → String → Prop where
  | register (command : RegisterUserCommand) (d : RegisterDraws) (createdAt : ℕ) :
      Authorises σ (.register (.request command d createdAt)) d.userId
        (g.hashpw command.password d.salt)
  | reset (command : ResetPasswordCommand) (d : ResetDraws) {row : PasswordResetTokenModel}
      (stored : row ∈ σ.db.tables.passwordResetTokens) (token : row.token = g.sha256 command.token)
      (unused : row.used = false) (alive : (σ.redis.now : ℤ) < row.expiresAt) :
      Authorises σ (.password (.reset command d)) row.userId (g.hashpw command.newPassword d.salt)

section Requests
variable {g : GlobalContainer} {ι : Type} {i : ι} {P P' : UUID → String → Prop}

theorem Entitled.mono (hP : ∀ uid hash, P uid hash → P' uid hash) {t : RequestThread g}
    (h : Entitled P t) : Entitled P' t :=
  ⟨fun uid hash hi => hP _ _ (h.plan uid hash hi), fun stmt hs => (h.log stmt hs).mono hP⟩

theorem Entitled.idle {t : RequestThread g} (hi : intended t = none) (hp : pending t = []) :
    Entitled P t := by
  refine ⟨fun uid hash h => ?_, fun stmt h => ?_⟩
  · rw [hi] at h
    cases h
  · rw [hp] at h
    cases h

theorem Entitled.intends {t : RequestThread g} {uid : UUID} {hash : String}
    (hi : intended t = some (uid, hash)) (hp : pending t = []) (h : P uid hash) : Entitled P t := by
  refine ⟨fun uid' hash' hi' => ?_, fun stmt hs => ?_⟩
  · obtain ⟨rfl, rfl⟩ := Prod.mk.inj (Option.some.inj (hi.symm.trans hi'))
    exact h
  · rw [hp] at hs
    cases hs

theorem Entitled.flushed {t : RequestThread g} (hi : intended t = none)
    (h : ∀ stmt ∈ pending t, Writes P stmt) : Entitled P t := by
  refine ⟨fun uid hash hi' => ?_, h⟩
  rw [hi] at hi'
  cases hi'

theorem select_entitled {t : Tables} (createdAt : ℕ) {command : RegisterUserCommand} {d : RegisterDraws}
    (hp : P d.userId (g.hashpw command.password d.salt)) :
    Entitled P (.register (RegisterThread.select t command d createdAt : RegisterThread g)) := by
  unfold RegisterThread.select
  split
  · exact .idle rfl rfl
  · split
    · exact .idle rfl rfl
    · split
      · exact .idle rfl rfl
      · exact .idle rfl rfl
      · exact .intends rfl rfl hp

theorem selectToken_entitled {σ : Stores ι} {command : ResetPasswordCommand} {d : ResetDraws}
    (hauth : ∀ uid hash, Authorises σ (.password (.reset command d : PasswordThread g)) uid hash →
      P uid hash) :
    Entitled P (.password (PasswordThread.selectToken σ.db.tables σ.redis.now command d :
      PasswordThread g)) := by
  unfold PasswordThread.selectToken
  split
  · exact .idle rfl rfl
  · split
    · exact .idle rfl rfl
    · rename_i stored hstored
      split
      · exact .idle rfl rfl
      · rename_i token hconsume
        obtain ⟨hmem, htoken⟩ := lookup_some hstored
        obtain ⟨halive, hunused, rfl⟩ := PasswordResetToken.consume_ok.1 hconsume
        exact .intends rfl rfl (hauth _ _ (.reset command d hmem htoken hunused halive))

variable [DecidableEq ι]

theorem register_entitled (hP : ∀ uid hash, P uid hash → P' uid hash) {σ : Stores ι} {db : Database ι}
    {t t' : RegisterThread g} (htables : Hashed P σ.db.tables) (ht : Entitled P (.register t))
    (hauth : ∀ uid hash, Authorises σ (.register t) uid hash → P' uid hash)
    (h : t.step i σ.db = some (db, t')) : Hashed P' db.tables ∧ Entitled P' (.register t') := by
  have htables' : Hashed P' σ.db.tables := fun m hm => hP _ _ (htables m hm)
  cases t with
  | request command d createdAt =>
    cases h
    exact ⟨htables', select_entitled createdAt (hauth _ _ (.register command d createdAt))⟩
  | saving command user =>
    simp only [RegisterThread.step, RegisterThread.insert] at h
    split_ifs at h
    split at h <;> cases h
    · exact ⟨htables', .idle rfl rfl⟩
    · rename_i stmt hsave
      refine ⟨htables', .flushed rfl fun s hs => ?_⟩
      rw [List.mem_singleton.1 hs]
      exact saveUser_writes hsave (hP _ _ (ht.plan _ _ rfl))
  | saved command stmt =>
    cases h
    exact ⟨htables'.replay fun s hs => (ht.log s hs).mono hP, .idle rfl rfl⟩
  | answered command answer => cases h

theorem selectOwner_entitled {t : Tables} {command : ResetPasswordCommand} {d : ResetDraws}
    {stored : PasswordResetTokenModel} {token : PasswordResetToken}
    (hp : P token.userId (g.hashpw command.newPassword d.salt)) :
    Entitled P (.password (PasswordThread.selectOwner t command d stored token :
      PasswordThread g)) := by
  rcases ResetThreads.selectOwner_cases (g := g) t command d stored token with
    hnext | ⟨owner, user, howner, -, hnext⟩
  · rw [hnext]
    exact .idle rfl rfl
  · rw [hnext]
    refine .intends rfl rfl ?_
    rw [(lookup_some howner).2]
    exact hp

theorem updateUser_entitled {db db' : Database ι} {command : ResetPasswordCommand} {d : ResetDraws}
    {stored : PasswordResetTokenModel} {token : PasswordResetToken} {owner : UserModel}
    {user : User g.unicode} {th : PasswordThread g}
    (hp : P owner.id (g.hashpw command.newPassword d.salt))
    (h : PasswordThread.updateUser i db command d stored token owner user = some (db', th)) :
    db'.tables = db.tables ∧ Entitled P (.password th) := by
  obtain ⟨hsame, rfl | rfl⟩ := ResetThreads.updateUser_cases h
  · exact ⟨hsame, .idle rfl rfl⟩
  · refine ⟨hsame, .flushed rfl fun s hs => ?_⟩
    rw [List.mem_singleton.1 hs]
    exact .pair rfl hp

theorem updateToken_entitled {db db' : Database ι} {command : ResetPasswordCommand} {d : ResetDraws}
    {stored : PasswordResetTokenModel} {token : PasswordResetToken} {owner : UserModel} {s₁ : Statement}
    {th : PasswordThread g} (hs₁ : Writes P s₁)
    (h : PasswordThread.updateToken i db command d stored token owner s₁ = some (db', th)) :
    db'.tables = db.tables ∧ Entitled P (.password th) := by
  obtain ⟨hsame, rfl | rfl⟩ := ResetThreads.updateToken_cases h
  · exact ⟨hsame, .idle rfl rfl⟩
  · refine ⟨hsame, .flushed rfl fun s hs => ?_⟩
    rcases List.mem_cons.1 hs with rfl | hs
    · exact hs₁
    · rw [List.mem_singleton.1 hs]
      exact .nothing rfl

theorem password_entitled (hP : ∀ uid hash, P uid hash → P' uid hash) {σ σ' : Stores ι}
    {t t' : PasswordThread g} (htables : Hashed P σ.db.tables) (ht : Entitled P (.password t))
    (hauth : ∀ uid hash, Authorises σ (.password t) uid hash → P' uid hash)
    (h : t.step i σ = some (σ', t')) : Hashed P' σ'.db.tables ∧ Entitled P' (.password t') := by
  have htables' : Hashed P' σ.db.tables := fun m hm => hP _ _ (htables m hm)
  cases t with
  | login command d =>
    cases h
    refine ⟨htables', ?_⟩
    unfold PasswordThread.selectUser
    split
    · exact .idle rfl rfl
    · split
      · exact .idle rfl rfl
      · split
        · exact .idle rfl rfl
        · split_ifs <;> exact .idle rfl rfl
  | opening command d row t =>
    simp only [PasswordThread.step] at h
    split at h <;> cases h
    · exact ⟨htables', .idle rfl rfl⟩
    · refine ⟨htables'.replay fun s hs => ?_, .idle rfl rfl⟩
      rw [List.mem_singleton.1 hs]
      exact .nothing rfl
  | refusing event =>
    cases h
    refine ⟨htables'.replay fun s hs => ?_, .idle rfl rfl⟩
    rw [List.mem_singleton.1 hs]
    exact .nothing rfl
  | reset command d =>
    cases h
    exact ⟨htables', selectToken_entitled hauth⟩
  | consumed command d stored token =>
    cases h
    exact ⟨htables', selectOwner_entitled (hP _ _ (ht.plan _ _ rfl))⟩
  | owned command d stored token owner user =>
    obtain ⟨⟨db', th⟩, hx, heq⟩ := Option.map_eq_some_iff.1 h
    cases heq
    obtain ⟨hsame, hentitled⟩ := updateUser_entitled (hP _ _ (ht.plan _ _ rfl)) hx
    simp only [hsame]
    exact ⟨htables', hentitled⟩
  | userSaved command d stored token owner s₁ =>
    obtain ⟨⟨db', th⟩, hx, heq⟩ := Option.map_eq_some_iff.1 h
    cases heq
    obtain ⟨hsame, hentitled⟩ := updateToken_entitled
      ((ht.log s₁ (List.mem_singleton_self _)).mono hP) hx
    simp only [hsame]
    exact ⟨htables', hentitled⟩
  | revoking command d owner s₁ s₂ t =>
    simp only [PasswordThread.step] at h
    split at h <;> cases h
    · exact ⟨htables', .flushed rfl fun s hs => (ht.log s hs).mono hP⟩
    · refine ⟨htables'.replay fun s hs => ?_, .idle rfl rfl⟩
      simp only [List.mem_cons, List.not_mem_nil, or_false] at hs
      rcases hs with rfl | rfl | rfl
      · exact (ht.log _ List.mem_cons_self).mono hP
      · exact (ht.log _ (List.mem_cons_of_mem _ (List.mem_singleton_self _))).mono hP
      · exact .nothing rfl
  | loggedIn | loginFailed | resetDone | resetFailed => cases h

theorem request_entitled (hP : ∀ uid hash, P uid hash → P' uid hash) {σ σ' : Stores ι}
    {t t' : RequestThread g} (htables : Hashed P σ.db.tables) (ht : Entitled P t)
    (hauth : ∀ uid hash, Authorises σ t uid hash → P' uid hash) (h : t.step i σ = some (σ', t')) :
    Hashed P' σ'.db.tables ∧ Entitled P' t' := by
  cases t with
  | register t =>
    obtain ⟨⟨db, t'⟩, hx, heq⟩ := Option.map_eq_some_iff.1 h
    cases heq
    exact register_entitled hP htables ht hauth hx
  | password t =>
    obtain ⟨⟨σ', t'⟩, hx, heq⟩ := Option.map_eq_some_iff.1 h
    cases heq
    exact password_entitled hP htables ht hauth hx
  | session t =>
    obtain ⟨x, -, heq⟩ := Option.map_eq_some_iff.1 h
    cases heq
    exact ⟨fun m hm => hP _ _ (htables m hm), .idle rfl rfl⟩

end Requests

section Runs
variable {g : GlobalContainer} {ι : Type}

/-- The hash was there at the beginning, or a step of the history has authorised it. -/
def Origin (c : Pool ι (Stores ι) (RequestThread g))
    (p : List (Pool ι (Stores ι) (RequestThread g) × Turn ι)) (uid : UUID) (hash : String) : Prop :=
  (∃ m ∈ c.shared.db.tables.users, m.id = uid ∧ m.hashedPassword = hash) ∨
    ∃ x ∈ p, ∃ i, x.2 = .run i ∧ Authorises x.1.shared (x.1.thread i) uid hash

theorem Origin.cons {c : Pool ι (Stores ι) (RequestThread g)}
    {p : List (Pool ι (Stores ι) (RequestThread g) × Turn ι)} {uid : UUID} {hash : String}
    (h : Origin c p uid hash) (x : Pool ι (Stores ι) (RequestThread g) × Turn ι) :
    Origin c (x :: p) uid hash := by
  rcases h with hold | ⟨y, hy, hauth⟩
  · exact .inl hold
  · exact .inr ⟨y, List.mem_cons_of_mem _ hy, hauth⟩

variable [DecidableEq ι]

structure HashesKnown (c : Pool ι (Stores ι) (RequestThread g))
    (p : List (Pool ι (Stores ι) (RequestThread g) × Turn ι))
    (d : Pool ι (Stores ι) (RequestThread g)) :
    Prop where
  tables : Hashed (Origin c p) d.shared.db.tables
  threads : ∀ i, Entitled (Origin c p) (d.thread i)

theorem hashesKnown_step {c d e : Pool ι (Stores ι) (RequestThread g)}
    {p : List (Pool ι (Stores ι) (RequestThread g) × Turn ι)} {l : Turn ι} (h : HashesKnown c p d)
    (hs : (requestPool g ι).step d l e) : HashesKnown c ((d, l) :: p) e := by
  have hmono : ∀ uid hash, Origin c p uid hash → Origin c ((d, l) :: p) uid hash :=
    fun _ _ hp => hp.cons _
  cases hs with
  | @env σ henv =>
    refine ⟨fun m hm => ?_, fun i => (h.threads i).mono hmono⟩
    simp only [henv.1] at hm
    exact hmono _ _ (h.tables m hm)
  | @run σ t i hrun =>
    obtain ⟨htables, hentitled⟩ := request_entitled hmono h.tables (h.threads i)
      (fun uid hash hauth => .inr ⟨_, List.mem_cons_self, i, rfl, hauth⟩) hrun
    refine ⟨htables, fun j => ?_⟩
    by_cases hj : j = i
    · subst hj
      simpa only [Function.update_self] using hentitled
    · simpa only [Function.update_of_ne hj] using (h.threads j).mono hmono

/-- Whatever the order of the statements of all requests: the hash of an account was there at the
beginning, is that of its own registration, or was set by a reset that had found an unused token
of this account which had not expired. -/
theorem hashes_authorised {c d : Pool ι (Stores ι) (RequestThread g)}
    {p : List (Pool ι (Stores ι) (RequestThread g) × Turn ι)} (hc : Launch c)
    (h : Runs (requestPool g ι) c p d) :
    ∀ m ∈ d.shared.db.tables.users, Origin c p m.id m.hashedPassword := by
  have hstart : HashesKnown c [] c := by
    refine ⟨fun m hm => .inl ⟨m, hm, rfl, rfl⟩, fun i => ?_⟩
    have hi := hc.start i
    generalize c.thread i = t at hi
    cases t with
    | register t => cases t <;> first | exact .idle rfl rfl | cases hi
    | password t => cases t <;> first | exact .idle rfl rfl | cases hi
    | session t => exact .idle rfl rfl
  exact (h.history (HashesKnown c) (fun _ _ _ _ hI hs => hashesKnown_step hI hs) hstart).tables

end Runs

section Sample
open SampleContainer ResetThreads

def resetBesideLogin : Pool Bool (Stores Bool) (RequestThread sample) where
  shared := ⟨⟨aliceTables, fun _ => none⟩, Redis.blank startTime⟩
  thread i := if i then .password (.reset (resetCommand "Passw0rd2") ⟨saltTwo, jtiTwo⟩)
    else .password (.login loginCommand loginDraws)

def resetSchedule : List (Move Bool (Stores Bool)) :=
  [.run true, .run false, .run true, .run true, .run true, .run true, .run true, .run true]

theorem hashes_authorised_reset : ∃ p d, Runs (requestPool sample Bool) resetBesideLogin p d ∧
    d.shared.db.tables.users.map UserModel.hashedPassword = [hashTwo] ∧
    ∀ m ∈ d.shared.db.tables.users, Origin resetBesideLogin p m.id m.hashedPassword := by
  have hplay : (play (fun i σ t => RequestThread.step i σ t) resetSchedule resetBesideLogin).any
      (fun d => decide (d.shared.db.tables.users.map UserModel.hashedPassword = [hashTwo])) = true := by
    decide +kernel
  obtain ⟨d, hd, hhash⟩ := (Option.any_eq_true _ _).1 hplay
  obtain ⟨p, hp⟩ : ∃ p, Runs (requestPool sample Bool) resetBesideLogin p d :=
    play_runs (fun _ _ _ _ _ h => h) (by simp [resetSchedule]) hd
  exact ⟨p, d, hp, of_decide_eq_true hhash,
    hashes_authorised ⟨fun _ => rfl, fun i => by cases i <;> rfl⟩ hp⟩

end Sample

end AuthService.HashOrigins
