import AuthService.BulkRevocation
import AuthService.ResetThreads

set_option autoImplicit false

/-! Logins next to a password reset: which sessions of the old password are alive once the
reset is over. -/
namespace AuthService.OutdatedSessions
open Uuids PythonText DomainModel KeyedRows AccountTables Transactions ExpiringMaps RedisSessions
open RequestPorts CommandHandlers LabelledRuns ThreadPools ReadCommitted SessionThreads BulkRevocation
open PasswordThreads
open ResetThreads (completed selectToken_cases selectOwner_cases updateUser_cases updateToken_cases)

section Requests
variable {g : GlobalContainer}

def resets : PasswordThread g → Bool
  | .reset _ _ => true
  | .consumed _ _ _ _ => true
  | .owned _ _ _ _ _ _ => true
  | .userSaved _ _ _ _ _ _ => true
  | .revoking _ _ _ _ _ _ => true
  | .resetDone _ _ _ => true
  | .resetFailed => true
  | _ => false

def session : PasswordThread g → Option UUID
  | .login _ d => some d.sessionId
  | .opening _ d _ _ => some d.sessionId
  | .loggedIn d _ => some d.sessionId
  | _ => none

/-- A login whose session has been written, with the user row that it was checked against. -/
def opened : PasswordThread g → Option (LoginDraws × UserModel)
  | .opening _ d row (.loggedIn _) => some (d, row)
  | .loggedIn d row => some (d, row)
  | _ => none

/-- The row that a login was checked against which is about to write its session. -/
def opens : PasswordThread g → Option UserModel
  | .opening _ _ row (.login _ _ _) => some row
  | _ => none

def late : SessionThread → Bool
  | .clearing _ _ => true
  | .revokeEach _ _ => true
  | .revokingEach _ _ _ _ => true
  | .returned _ => true
  | _ => false

@[simp] theorem late_loop (gone ids : List UUID) : late (SessionThread.loop gone ids) = true := by
  cases ids <;> rfl

def swept : PasswordThread g → Option UserModel
  | .revoking _ _ owner _ _ t => if late t then some owner else none
  | .resetDone _ _ owner => some owner
  | _ => none

def ownerOf : PasswordThread g → Option UserModel
  | .owned _ _ _ _ owner _ => some owner
  | .userSaved _ _ _ _ owner _ => some owner
  | .revoking _ _ owner _ _ _ => some owner
  | .resetDone _ _ owner => some owner
  | _ => none

def remaining : PasswordThread g → List UUID
  | .revoking _ _ _ _ _ (.clearing _ ids) => ids
  | .revoking _ _ _ _ _ t => todo t
  | _ => []

/-- A login was checked against the row that a reset is replacing. -/
def outdated : Option UserModel → Option UserModel → Bool
  | some row, some owner => row.id = owner.id && row.hashedPassword = owner.hashedPassword
  | _, _ => false

end Requests

/-- One reset and any number of logins, each with a session id of its own. -/
structure Launch {g : GlobalContainer} {ι : Type} (r₀ : ι) (c : Pool ι (Stores ι) (PasswordThread g)) :
    Prop where
  reset : ∃ command d, c.thread r₀ = .reset command d
  logins : ∀ i, i ≠ r₀ → ∃ command d, c.thread i = .login command d
  distinct : ∀ i j, i ≠ j → ∀ s, session (c.thread i) = some s → session (c.thread j) ≠ some s

def loginPool (g : GlobalContainer) (ι : Type) [DecidableEq ι] (r₀ : ι) :
    System (Pool ι (Stores ι) (PasswordThread g)) (Turn ι) :=
  (passwordProgram g ι).system (Launch r₀)

/-- No login that was checked against the old row writes its session behind the SMEMBERS. -/
def Undisturbed {g : GlobalContainer} {ι : Type} (c : Pool ι (Stores ι) (PasswordThread g)) :
    Turn ι → Prop
  | .env => True
  | .run i => ∀ j, outdated (opens (c.thread i)) (swept (c.thread j)) = false

instance {g : GlobalContainer} {ι : Type} [Fintype ι] (c : Pool ι (Stores ι) (PasswordThread g))
    (l : Turn ι) : Decidable (Undisturbed c l) :=
  match l with
  | .env => inferInstanceAs (Decidable True)
  | .run i =>
    inferInstanceAs (Decidable (∀ j, outdated (opens (c.thread i)) (swept (c.thread j)) = false))

section Effects
variable {g : GlobalContainer} {ι : Type}

def Shaped : PasswordThread g → Prop
  | .opening _ d row t => (∃ device, t = .login row.id device d) ∨ t = .loggedIn d
  | .revoking _ _ owner _ _ t => t = .revokeAll owner.id ∨ late t = true
  | _ => True

/-- A session of the row is listed until the SMEMBERS, and behind it the reset comes to it. -/
def Pending (r : Redis) (th : PasswordThread g) (row : UserModel) (s : UUID) (deadline : ℕ) : Prop :=
  match swept th with
  | none => Member r row.id s deadline
  | some owner => outdated (some row) (some owner) = true → s ∈ remaining th

section Pending
variable {r : Redis} {th : PasswordThread g} {row : UserModel} {s : UUID} {deadline : ℕ}
variable {nowIso jti token : String} {u : UUID} {device : Option String} {accessTtl refreshTtl : ℕ}

theorem Pending.create (h : Pending r th row s deadline) {sid : UUID}
    (hle : deadline ≤ r.now + seconds refreshTtl) :
    Pending (createPipeline nowIso sid u jti token device accessTtl refreshTtl r) th row s
      deadline := by
  unfold Pending at h ⊢
  split at h
  · exact h.create hle
  · exact h

theorem pending_created (htime : outdated (some row) (swept th) = false) :
    Pending (createPipeline nowIso s row.id jti token device accessTtl refreshTtl r) th row s
      (r.now + seconds refreshTtl) := by
  unfold Pending
  split
  · exact member_create
  · rename_i owner hswept
    intro hold
    rw [hswept, hold] at htime
    cases htime

theorem Pending.advance {δ : ℕ} (h : Pending r th row s deadline) (hlt : r.now + δ < deadline) :
    Pending (r.advance δ) th row s deadline := by
  unfold Pending at h ⊢
  split at h
  · exact h.advance hlt
  · exact h

end Pending

inductive StepEffect (g : GlobalContainer) (σ σ' : Stores ι) :
    PasswordThread g → PasswordThread g → Prop where
  | login {th th' : PasswordThread g} (kind : resets th = false ∧ resets th' = false)
      (store : σ'.redis = σ.redis) (users : σ'.db.tables.users = σ.db.tables.users)
      (draws : ∀ s, session th' = some s → session th = some s)
      (written : ∀ x, opened th' = some x → opened th = some x) (shaped : Shaped th') :
      StepEffect g σ σ' th th'
  | create {command : AuthenticateUserCommand} {d : LoginDraws} {row : UserModel}
      {device : Option String} (nowIso : String)
      (store : σ'.redis = createPipeline nowIso d.sessionId row.id d.jti.str d.refreshToken.text device
        g.accessTokenTtlSeconds g.refreshTokenTtlSeconds σ.redis)
      (users : σ'.db = σ.db) :
      StepEffect g σ σ' (.opening command d row (.login row.id device d))
        (.opening command d row (.loggedIn d))
  | reset {th th' : PasswordThread g} (kind : resets th = true ∧ resets th' = true)
      (time : σ'.redis.now = σ.redis.now)
      (sessions : ∀ s e, σ'.redis.session s = some e → σ.redis.session s = some e)
      (pending : ∀ row s deadline, σ'.redis.session s ≠ none → Pending σ.redis th row s deadline →
        Pending σ'.redis th' row s deadline)
      (users : completed th' = false → σ'.db.tables.users = σ.db.tables.users)
      (unfinished : completed th = false)
      (owner : ∀ o, ownerOf th' = some o → ownerOf th = some o ∨ o ∈ σ.db.tables.users)
      (shaped : Shaped th') : StepEffect g σ σ' th th'

theorem selectUser_cases (t : Tables) (now : ℕ) (command : AuthenticateUserCommand) (d : LoginDraws) :
    PasswordThread.selectUser t now command d = (.loginFailed : PasswordThread g) ∨
    (∃ event, PasswordThread.selectUser t now command d = (.refusing event : PasswordThread g)) ∨
    ∃ row device, PasswordThread.selectUser t now command d =
      (.opening command d row (.login row.id device d) : PasswordThread g) := by
  unfold PasswordThread.selectUser
  cases Email.new g.unicode command.email with
  | error e => exact .inl rfl
  | ok email =>
    simp only
    cases lookup UserModel.email email.value t.users with
    | none => exact .inr (.inl ⟨_, rfl⟩)
    | some row =>
      simp only
      cases hd : row.toDomain g.unicode with
      | error e => exact .inl rfl
      | ok user =>
        simp only
        split_ifs
        · exact .inr (.inl ⟨_, rfl⟩)
        · exact .inr (.inl ⟨_, rfl⟩)
        · rw [(toDomain_ok hd).1]
          exact .inr (.inr ⟨row, _, rfl⟩)

/-- A reset in front of its SMEMBERS, or one that has failed. -/
structure Early (th : PasswordThread g) : Prop where
  kind : resets th = true
  swept : swept th = none
  unfinished : completed th = false
  shaped : Shaped th

theorem Early.effect {σ σ' : Stores ι} {th th' : PasswordThread g} (h : Early th) (h' : Early th')
    (store : σ'.redis = σ.redis) (users : σ'.db.tables.users = σ.db.tables.users)
    (owner : ∀ o, ownerOf th' = some o → ownerOf th = some o ∨ o ∈ σ.db.tables.users) :
    StepEffect g σ σ' th th' := by
  refine .reset ⟨h.kind, h'.kind⟩ (by rw [store]) (by rw [store]; exact fun _ _ he => he) ?_
    (fun _ => users) h.unfinished owner h'.shaped
  intro row s deadline _ hp
  rw [Pending, h.swept] at hp
  rw [Pending, h'.swept, store]
  exact hp

theorem early_failed : Early (.resetFailed : PasswordThread g) := ⟨rfl, rfl, rfl, trivial⟩

section Step
variable [DecidableEq ι]

theorem remaining_late (command : ResetPasswordCommand) (d : ResetDraws) (owner : UserModel)
    (s₁ s₂ : Statement) (gone ids : List UUID) :
    remaining (.revoking command d owner s₁ s₂ (SessionThread.loop gone ids) : PasswordThread g) =
      ids := by
  cases ids <;> rfl

omit [DecidableEq ι] in
theorem late_effect {σ : Stores ι} {r : Redis} {command : ResetPasswordCommand} {d : ResetDraws}
    {owner : UserModel} {s₁ s₂ : Statement} {t t' : SessionThread} (hlate : late t = true)
    (hlate' : late t' = true) (time : r.now = σ.redis.now)
    (sessions : ∀ s e, r.session s = some e → σ.redis.session s = some e)
    (left : ∀ s, r.session s ≠ none →
      s ∈ remaining (.revoking command d owner s₁ s₂ t : PasswordThread g) →
        s ∈ remaining (.revoking command d owner s₁ s₂ t' : PasswordThread g)) :
    StepEffect g σ { σ with redis := r } (.revoking command d owner s₁ s₂ t)
      (.revoking command d owner s₁ s₂ t') := by
  refine .reset ⟨rfl, rfl⟩ time sessions ?_ (fun _ => rfl) rfl (fun o ho => .inl ho) (.inr hlate')
  intro row s deadline halive hp
  simp only [Pending, swept, hlate, hlate', if_true] at hp ⊢
  exact fun hold => left s halive (hp hold)

omit [DecidableEq ι] in
theorem revoking_effect {σ : Stores ι} {r : Redis} {command : ResetPasswordCommand} {d : ResetDraws}
    {owner : UserModel} {s₁ s₂ : Statement} {t t' : SessionThread}
    (hshaped : t = .revokeAll owner.id ∨ late t = true) (hs : t.step g σ.redis = some (r, t')) :
    StepEffect g σ { σ with redis := r } (.revoking command d owner s₁ s₂ t)
      (.revoking command d owner s₁ s₂ t') := by
  have hbulk : bulk t = true := by
    rcases hshaped with rfl | hlate
    · rfl
    · cases t <;> first | rfl | cases hlate
  have hstep := bulkStep_of_step hbulk hs
  cases hstep with
  | login u device draws =>
    rcases hshaped with h | h <;> cases h
  | members u =>
    have hu : u = owner.id := by
      rcases hshaped with h | h
      · cases h
        rfl
      · cases h
    subst hu
    refine .reset ⟨rfl, rfl⟩ rfl (fun _ _ he => he) ?_ (fun _ => rfl) rfl (fun o ho => .inl ho)
      (.inr rfl)
    intro row s deadline _ hp
    have hmember : Member σ.redis row.id s deadline := hp
    intro hold
    obtain ⟨ids, deadline', hids, hmem, -⟩ := hmember
    have hid : row.id = owner.id := by
      simp only [outdated, Bool.and_eq_true, decide_eq_true_eq] at hold
      exact hold.1
    change s ∈ (σ.redis.sessions.value owner.id).getD []
    rw [← hid, ExpiringMap.value_of_entry hids]
    exact hmem
  | clear u ids =>
    refine late_effect rfl (late_loop _ _) rfl (fun _ _ he => he) ?_
    intro s _ hmem
    rw [remaining_late]
    exact hmem
  | gone gone sid rest absent =>
    refine late_effect rfl (late_loop _ _) rfl (fun _ _ he => he) ?_
    intro s halive hmem
    rw [remaining_late]
    rcases List.mem_cons.1 hmem with rfl | hmem
    · exact absurd absent halive
    · exact hmem
  | found gone sid rest data =>
    exact late_effect rfl rfl rfl (fun _ _ he => he) fun _ _ hmem => hmem
  | revoke gone sid data rest =>
    refine late_effect rfl (late_loop _ _) rfl ?_ ?_
    · intro s e he
      rw [revoke_session] at he
      split_ifs at he
      exact he
    · intro s halive hmem
      rw [remaining_late]
      rcases List.mem_cons.1 hmem with rfl | hmem
      · exact absurd (by rw [revoke_session, if_pos rfl]) halive
      · exact hmem

omit [DecidableEq ι] in
/-- The COMMIT of a reset, when the bulk revocation has nothing left to do. -/
theorem finish_effect {σ : Stores ι} {command : ResetPasswordCommand} {d : ResetDraws}
    {owner : UserModel}
    {s₁ s₂ : Statement} {t : SessionThread} (hshaped : t = .revokeAll owner.id ∨ late t = true)
    (hstop : t.step g σ.redis = none) (db : Database ι) :
    StepEffect g σ { σ with db := db } (.revoking command d owner s₁ s₂ t)
      (.resetDone command d owner) := by
  have hlate : late t = true := by
    rcases hshaped with rfl | hlate
    · cases hstop
    · exact hlate
  have hnone : remaining (.revoking command d owner s₁ s₂ t : PasswordThread g) = [] := by
    cases t with
    | returned gone => rfl
    | revokeEach gone ids =>
      cases ids with
      | nil => rfl
      | cons => cases hstop
    | clearing | revokingEach => cases hstop
    | _ => cases hlate
  refine .reset ⟨rfl, rfl⟩ rfl (fun _ _ he => he) ?_
    (by simp [completed]) rfl (fun o ho => .inl ho) trivial
  intro row s deadline _ hp
  simp only [Pending, swept, hlate, if_true, hnone] at hp
  exact fun hold => absurd (hp hold) List.not_mem_nil

theorem step_effect {σ σ' : Stores ι} {i : ι} {th th' : PasswordThread g} (hshaped : Shaped th)
    (hs : th.step i σ = some (σ', th')) : StepEffect g σ σ' th th' := by
  cases th with
  | login command d =>
    obtain ⟨rfl, rfl⟩ := Prod.mk.inj (Option.some.inj hs)
    rcases selectUser_cases (g := g) σ.db.tables σ.redis.now command d with
      heq | ⟨event, heq⟩ | ⟨row, device, heq⟩
    · rw [heq]
      exact .login ⟨rfl, rfl⟩ rfl rfl (by simp [session]) (by simp [opened]) trivial
    · rw [heq]
      exact .login ⟨rfl, rfl⟩ rfl rfl (by simp [session]) (by simp [opened]) trivial
    · rw [heq]
      exact .login ⟨rfl, rfl⟩ rfl rfl (fun _ h => h) (by simp [opened]) (.inl ⟨device, rfl⟩)
  | opening command d row t =>
    rcases hshaped with ⟨device, rfl⟩ | rfl
    · obtain ⟨rfl, rfl⟩ := Prod.mk.inj (Option.some.inj hs)
      exact .create _ rfl rfl
    · obtain ⟨rfl, rfl⟩ := Prod.mk.inj (Option.some.inj hs)
      exact .login ⟨rfl, rfl⟩ rfl rfl (fun _ h => h) (fun _ h => h) trivial
  | refusing event =>
    obtain ⟨rfl, rfl⟩ := Prod.mk.inj (Option.some.inj hs)
    exact .login ⟨rfl, rfl⟩ rfl rfl (by simp [session]) (by simp [opened]) trivial
  | reset command d =>
    have hearly : Early (.reset command d : PasswordThread g) := ⟨rfl, rfl, rfl, trivial⟩
    obtain ⟨rfl, rfl⟩ := Prod.mk.inj (Option.some.inj hs)
    rcases selectToken_cases (g := g) σ.db.tables σ.redis.now command d with heq |
      ⟨-, stored, -, -, heq⟩
    · rw [heq]
      exact hearly.effect early_failed rfl rfl (by simp [ownerOf])
    · rw [heq]
      exact hearly.effect ⟨rfl, rfl, rfl, trivial⟩ rfl rfl (by simp [ownerOf])
  | consumed command d stored token =>
    have hearly : Early (.consumed command d stored token : PasswordThread g) :=
      ⟨rfl, rfl, rfl, trivial⟩
    obtain ⟨rfl, rfl⟩ := Prod.mk.inj (Option.some.inj hs)
    rcases selectOwner_cases (g := g) σ.db.tables command d stored token with
      heq | ⟨owner, user, hl, -, heq⟩
    · rw [heq]
      exact hearly.effect early_failed rfl rfl (by simp [ownerOf])
    · rw [heq]
      refine hearly.effect ⟨rfl, rfl, rfl, trivial⟩ rfl rfl ?_
      rintro o ho
      cases ho
      exact .inr (lookup_some hl).1
  | owned command d stored token owner user =>
    have hearly : Early (.owned command d stored token owner user : PasswordThread g) :=
      ⟨rfl, rfl, rfl, trivial⟩
    obtain ⟨⟨db', t'⟩, hup, hout⟩ := Option.map_eq_some_iff.1 hs
    obtain ⟨rfl, rfl⟩ := Prod.mk.inj hout
    obtain ⟨htables, rfl | rfl⟩ := updateUser_cases hup
    · exact hearly.effect early_failed rfl (by rw [htables]) (by simp [ownerOf])
    · exact hearly.effect ⟨rfl, rfl, rfl, trivial⟩ rfl (by rw [htables]) fun o ho => .inl ho
  | userSaved command d stored token owner s₁ =>
    have hearly : Early (.userSaved command d stored token owner s₁ : PasswordThread g) :=
      ⟨rfl, rfl, rfl, trivial⟩
    obtain ⟨⟨db', t'⟩, hup, hout⟩ := Option.map_eq_some_iff.1 hs
    obtain ⟨rfl, rfl⟩ := Prod.mk.inj hout
    obtain ⟨htables, rfl | rfl⟩ := updateToken_cases hup
    · exact hearly.effect early_failed rfl (by rw [htables]) (by simp [ownerOf])
    · exact hearly.effect ⟨rfl, rfl, rfl, .inl rfl⟩ rfl (by rw [htables]) fun o ho => .inl ho
  | revoking command d owner s₁ s₂ t =>
    simp only [PasswordThread.step] at hs
    split at hs
    · rename_i r t' hstep
      obtain ⟨rfl, rfl⟩ := Prod.mk.inj (Option.some.inj hs)
      exact revoking_effect hshaped hstep
    · rename_i hstop
      obtain ⟨rfl, rfl⟩ := Prod.mk.inj (Option.some.inj hs)
      exact finish_effect hshaped hstop _
  | loggedIn | loginFailed | resetDone | resetFailed => cases hs

end Step

end Effects

section Runs
variable {g : GlobalContainer} {ι : Type} {r₀ : ι}

structure Guarded (g : GlobalContainer) (r₀ : ι) (c v : Pool ι (Stores ι) (PasswordThread g)) :
    Prop where
  kinds : ∀ i, resets (v.thread i) = true ↔ i = r₀
  shaped : ∀ i, Shaped (v.thread i)
  distinct : ∀ i j, i ≠ j → ∀ s, session (v.thread i) = some s → session (v.thread j) ≠ some s
  sessions : ∀ i d row, opened (v.thread i) = some (d, row) →
    ∀ e, v.shared.redis.session d.sessionId = some e → ∃ deadline, e.deadline = some deadline ∧
      deadline ≤ v.shared.redis.now + seconds g.refreshTokenTtlSeconds ∧
      Pending v.shared.redis (v.thread r₀) row d.sessionId deadline
  users : completed (v.thread r₀) = false → v.shared.db.tables.users = c.shared.db.tables.users
  owner : ∀ o, ownerOf (v.thread r₀) = some o → o ∈ c.shared.db.tables.users

theorem resets_session {th : PasswordThread g} (h : resets th = true) : session th = none := by
  cases th <;> first | rfl | cases h

theorem resets_opened {th : PasswordThread g} (h : resets th = true) : opened th = none := by
  cases th <;> first | rfl | cases h

theorem opened_session {th : PasswordThread g} {d : LoginDraws} {row : UserModel} (hshaped : Shaped th)
    (h : opened th = some (d, row)) : session th = some d.sessionId := by
  cases th with
  | opening command d' row' t =>
    rcases hshaped with ⟨device, rfl⟩ | rfl
    · cases h
    · cases h
      rfl
  | loggedIn d' row' =>
    cases h
    rfl
  | _ => cases h

theorem Launch.guarded {c : Pool ι (Stores ι) (PasswordThread g)} (h : Launch r₀ c) :
    Guarded g r₀ c c := by
  obtain ⟨command, d, hr⟩ := h.reset
  have hthread : ∀ i, (i = r₀ ∧ c.thread i = .reset command d) ∨
      (i ≠ r₀ ∧ ∃ command d, c.thread i = .login command d) := by
    intro i
    by_cases hi : i = r₀
    · exact .inl ⟨hi, hi ▸ hr⟩
    · exact .inr ⟨hi, h.logins i hi⟩
  refine ⟨?_, ?_, h.distinct, ?_, fun _ => rfl, by simp [hr, ownerOf]⟩
  · intro i
    rcases hthread i with ⟨hi, heq⟩ | ⟨hi, command, d, heq⟩
    · rw [heq]
      exact iff_of_true rfl hi
    · rw [heq]
      exact iff_of_false (by simp [resets]) hi
  · intro i
    rcases hthread i with ⟨-, heq⟩ | ⟨-, command, d, heq⟩
    · rw [heq]
      trivial
    · rw [heq]
      trivial
  · intro i d row hopened
    rcases hthread i with ⟨-, heq⟩ | ⟨-, command, d, heq⟩
    · rw [heq] at hopened
      cases hopened
    · rw [heq] at hopened
      cases hopened

variable [DecidableEq ι]

theorem Guarded.distinct_update {c v : Pool ι (Stores ι) (PasswordThread g)} (h : Guarded g r₀ c v)
    {i : ι} {th' : PasswordThread g}
    (hdraws : ∀ s, session th' = some s → session (v.thread i) = some s) :
    ∀ j k, j ≠ k → ∀ s, session (Function.update v.thread i th' j) = some s →
      session (Function.update v.thread i th' k) ≠ some s := by
  have hsame : ∀ j s, session (Function.update v.thread i th' j) = some s →
      session (v.thread j) = some s := by
    intro j s hs
    by_cases hj : j = i
    · subst hj
      exact hdraws s (by simpa using hs)
    · simpa [Function.update_of_ne hj] using hs
  exact fun j k hjk s hj hk => h.distinct j k hjk s (hsame j s hj) (hsame k s hk)

theorem guarded_login {c v : Pool ι (Stores ι) (PasswordThread g)} (h : Guarded g r₀ c v) {i : ι}
    {σ : Stores ι} {th' : PasswordThread g}
    (kind : resets (v.thread i) = false ∧ resets th' = false) (store : σ.redis = v.shared.redis)
    (users : σ.db.tables.users = v.shared.db.tables.users)
    (draws : ∀ s, session th' = some s → session (v.thread i) = some s)
    (written : ∀ x, opened th' = some x → opened (v.thread i) = some x) (shaped : Shaped th') :
    Guarded g r₀ c ⟨σ, Function.update v.thread i th'⟩ := by
  have hir : r₀ ≠ i := by
    rintro rfl
    rw [(h.kinds r₀).2 rfl] at kind
    cases kind.1
  have hreset : Function.update v.thread i th' r₀ = v.thread r₀ := Function.update_of_ne hir _ _
  refine ⟨?_, ?_, h.distinct_update draws, ?_, ?_, ?_⟩
  · refine (Function.forall_update_iff v.thread fun j t => resets t = true ↔ j = r₀).2
      ⟨?_, fun j _ => h.kinds j⟩
    simp [kind.2, Ne.symm hir]
  · exact (Function.forall_update_iff v.thread fun _ t => Shaped t).2 ⟨shaped, fun j _ => h.shaped j⟩
  · intro j d row hopened
    have hold : opened (v.thread j) = some (d, row) := by
      by_cases hj : j = i
      · subst hj
        exact written _ (by simpa using hopened)
      · simpa [Function.update_of_ne hj] using hopened
    simp only [store, hreset]
    exact h.sessions j d row hold
  · simp only [hreset, users]
    exact h.users
  · simp only [hreset]
    exact h.owner

theorem guarded_create {c v : Pool ι (Stores ι) (PasswordThread g)} (h : Guarded g r₀ c v) {i : ι}
    {command : AuthenticateUserCommand} {d : LoginDraws} {row : UserModel} {device : Option String}
    (ht : v.thread i = .opening command d row (.login row.id device d))
    (hC : Undisturbed v (.run i)) (nowIso : String) {σ : Stores ι}
    (store : σ.redis = createPipeline nowIso d.sessionId row.id d.jti.str d.refreshToken.text device
      g.accessTokenTtlSeconds g.refreshTokenTtlSeconds v.shared.redis) (users : σ.db = v.shared.db) :
    Guarded g r₀ c ⟨σ, Function.update v.thread i (.opening command d row (.loggedIn d))⟩ := by
  have hir : r₀ ≠ i := by
    rintro rfl
    have hkind := (h.kinds r₀).2 rfl
    rw [ht] at hkind
    cases hkind
  have hreset : Function.update v.thread i (.opening command d row (.loggedIn d)) r₀ = v.thread r₀ :=
    Function.update_of_ne hir _ _
  have hsession : session (v.thread i) = some d.sessionId := by rw [ht]; rfl
  refine ⟨?_, ?_, h.distinct_update (by rw [ht]; exact fun _ hs => hs), ?_, ?_, ?_⟩
  · refine (Function.forall_update_iff v.thread fun j t => resets t = true ↔ j = r₀).2
      ⟨?_, fun j _ => h.kinds j⟩
    simp [resets, Ne.symm hir]
  · exact (Function.forall_update_iff v.thread fun _ t => Shaped t).2 ⟨.inr rfl, fun j _ => h.shaped j⟩
  · intro j d' row' hopened e he
    simp only [store, hreset, create_now] at he ⊢
    rw [create_session] at he
    by_cases hj : j = i
    · subst hj
      simp only [Function.update_self, opened, Option.some.injEq, Prod.mk.injEq] at hopened
      obtain ⟨rfl, rfl⟩ := hopened
      rw [if_pos rfl, Option.some.injEq] at he
      subst he
      have htime := hC r₀
      rw [ht] at htime
      exact ⟨_, rfl, le_refl _, pending_created htime⟩
    · simp only [Function.update_of_ne hj] at hopened
      have hne : d'.sessionId ≠ d.sessionId := by
        intro heq
        refine h.distinct j i hj d'.sessionId (opened_session (h.shaped j) hopened) ?_
        rw [hsession, heq]
      rw [if_neg hne] at he
      obtain ⟨deadline, hdead, hle, hp⟩ := h.sessions j d' row' hopened e he
      exact ⟨deadline, hdead, hle, hp.create hle⟩
  · simp only [hreset, users]
    exact h.users
  · simp only [hreset]
    exact h.owner

theorem guarded_reset {c v : Pool ι (Stores ι) (PasswordThread g)} (h : Guarded g r₀ c v)
    {σ : Stores ι} {th' : PasswordThread g} (kind : resets th' = true)
    (time : σ.redis.now = v.shared.redis.now)
    (sessions : ∀ s e, σ.redis.session s = some e → v.shared.redis.session s = some e)
    (pending : ∀ row s deadline, σ.redis.session s ≠ none →
      Pending v.shared.redis (v.thread r₀) row s deadline → Pending σ.redis th' row s deadline)
    (users : completed th' = false → σ.db.tables.users = v.shared.db.tables.users)
    (unfinished : completed (v.thread r₀) = false)
    (owner : ∀ o, ownerOf th' = some o → ownerOf (v.thread r₀) = some o ∨ o ∈ v.shared.db.tables.users)
    (shaped : Shaped th') : Guarded g r₀ c ⟨σ, Function.update v.thread r₀ th'⟩ := by
  refine ⟨?_, ?_, h.distinct_update (by simp [resets_session kind]), ?_, ?_, ?_⟩
  · exact (Function.forall_update_iff v.thread fun j t => resets t = true ↔ j = r₀).2
      ⟨iff_of_true kind rfl, fun j _ => h.kinds j⟩
  · exact (Function.forall_update_iff v.thread fun _ t => Shaped t).2 ⟨shaped, fun j _ => h.shaped j⟩
  · intro j d row hopened e he
    have hj : j ≠ r₀ := by
      rintro rfl
      simp [resets_opened kind] at hopened
    simp only [Function.update_of_ne hj, Function.update_self] at hopened ⊢
    obtain ⟨deadline, hdead, hle, hp⟩ := h.sessions j d row hopened e (sessions _ e he)
    have halive : σ.redis.session d.sessionId ≠ none := Option.ne_none_iff_exists'.2 ⟨e, he⟩
    exact ⟨deadline, hdead, by rw [time]; exact hle, pending row _ deadline halive hp⟩
  · simp only [Function.update_self]
    exact fun hdone => (users hdone).trans (h.users unfinished)
  · simp only [Function.update_self]
    intro o ho
    rcases owner o ho with hold | hnew
    · exact h.owner o hold
    · rw [h.users unfinished] at hnew
      exact hnew

theorem Guarded.step {c v v' : Pool ι (Stores ι) (PasswordThread g)} {l : Turn ι}
    (h : Guarded g r₀ c v) (hC : Undisturbed v l) (hs : PoolStep (passwordProgram g ι) v l v') :
    Guarded g r₀ c v' := by
  cases hs with
  | @run σ th' i hs =>
    have heffect := step_effect (h.shaped i) hs
    generalize hth : v.thread i = th at heffect
    cases heffect with
    | login kind store users draws written shaped =>
      subst hth
      exact guarded_login h kind store users draws written shaped
    | create nowIso store users => exact guarded_create h hth hC nowIso store users
    | reset kind time sessions pending users unfinished owner shaped =>
      obtain rfl : i = r₀ := (h.kinds i).1 (by rw [hth]; exact kind.1)
      subst hth
      exact guarded_reset h kind.2 time sessions pending users unfinished owner shaped
  | @env σ hs =>
    obtain ⟨hdb, δ, hredis⟩ := hs
    refine ⟨h.kinds, h.shaped, h.distinct, ?_, ?_, h.owner⟩
    · intro j d row hopened e he
      simp only [hredis] at he ⊢
      obtain ⟨hold, halive⟩ := advance_session.1 he
      obtain ⟨deadline, hdead, hle, hp⟩ := h.sessions j d row hopened e hold
      have hlt : v.shared.redis.now + δ < deadline := by
        simpa [Entry.aliveAt, hdead] using halive
      exact ⟨deadline, hdead, by rw [advance_now]; omega, hp.advance hlt⟩
    · simp only [hdb]
      exact h.users

/-- In every run without such a login, once the reset is completed no session is alive that a
login has opened with the row that the reset has replaced. -/
theorem reset_ends_old_sessions {c d : Pool ι (Stores ι) (PasswordThread g)}
    {p : List (Pool ι (Stores ι) (PasswordThread g) × Turn ι)} (hc : Launch r₀ c)
    (h : Runs (loginPool g ι r₀) c p d) (hp : Meets Undisturbed p) {command : ResetPasswordCommand}
    {draws : ResetDraws} {owner : UserModel} (hdone : d.thread r₀ = .resetDone command draws owner) :
    owner ∈ c.shared.db.tables.users ∧ ∀ i login row, d.thread i = .loggedIn login row →
      row.id = owner.id → row.hashedPassword = owner.hashedPassword →
        d.shared.redis.session login.sessionId = none := by
  have hguarded : Guarded g r₀ c d := h.invariant_of_meets (Guarded g r₀ c) Undisturbed
    (fun _ _ _ hI hx hs => hI.step hx hs) hp hc.guarded
  refine ⟨hguarded.owner owner (by rw [hdone]; rfl), ?_⟩
  intro i login row hi hid hhash
  by_contra halive
  obtain ⟨e, he⟩ := Option.ne_none_iff_exists'.1 halive
  obtain ⟨deadline, -, -, hpending⟩ := hguarded.sessions i login row (by rw [hi]; rfl) e he
  rw [hdone] at hpending
  have hold : outdated (some row) (some owner) = true := by
    simp [outdated, hid, hhash]
  exact absurd (hpending hold) List.not_mem_nil

end Runs

section Sample
open SampleContainer ResetThreads

def loginAndReset : Pool Bool (Stores Bool) (PasswordThread sample) where
  shared := ⟨⟨aliceTables, fun _ => none⟩, Redis.blank startTime⟩
  thread i :=
    if i then .reset (resetCommand "Passw0rd2") ⟨saltTwo, jtiTwo⟩ else .login loginCommand loginDraws

theorem loginAndReset_launch : OutdatedSessions.Launch true loginAndReset where
  reset := ⟨_, _, rfl⟩
  logins i hi := by
    cases i with
    | false => exact ⟨_, _, rfl⟩
    | true => exact absurd rfl hi
  distinct i j hij s hi hj := by
    cases i <;> cases j <;> simp [loginAndReset, session] at hij hi hj

/-- The rows that the login and the reset have read, once both are over, and the owner of the
session of the login. -/
def ending (c : Pool Bool (Stores Bool) (PasswordThread sample)) :
    Option (UUID × UserModel) × Option UserModel × Option UUID :=
  (match c.thread false with
    | .loggedIn d row => some (d.sessionId, row)
    | _ => none,
    match c.thread true with
    | .resetDone _ _ owner => some owner
    | _ => none,
    (c.shared.redis.session.value sessionOne).bind SessionHash.userId)

theorem ending_some {c : Pool Bool (Stores Bool) (PasswordThread sample)} {sid : UUID}
    {row owner : UserModel} {user : Option UUID} (h : ending c = (some (sid, row), some owner, user)) :
    (∃ d, c.thread false = .loggedIn d row ∧ d.sessionId = sid) ∧
      (∃ command draws, c.thread true = .resetDone command draws owner) ∧
      (c.shared.redis.session.value sessionOne).bind SessionHash.userId = user := by
  obtain ⟨hlogin, hrest⟩ := Prod.mk.inj h
  obtain ⟨hreset, huser⟩ := Prod.mk.inj hrest
  refine ⟨?_, ?_, huser⟩
  · split at hlogin
    · rename_i heq
      cases hlogin
      exact ⟨_, heq, rfl⟩
    · cases hlogin
  · split at hreset
    · rename_i heq
      cases hreset
      exact ⟨_, _, heq⟩
    · cases hreset

def loginFirst : List (Move Bool (Stores Bool)) :=
  List.replicate 3 (.run false) ++ List.replicate 9 (.run true)

theorem reset_ends_old_sessions_loginFirst :
    ∃ p d login owner, Runs (loginPool sample Bool true) loginAndReset p d ∧
      d.thread false = .loggedIn login aliceRow ∧ owner = aliceRow ∧
      owner ∈ loginAndReset.shared.db.tables.users ∧ ∀ i login row, d.thread i = .loggedIn login row →
        row.id = owner.id → row.hashedPassword = owner.hashedPassword →
          d.shared.redis.session login.sessionId = none := by
  have hend : (playMeeting OutdatedSessions.Undisturbed (fun i σ t => t.step i σ) loginFirst
      loginAndReset).map ending = some (some (sessionOne, aliceRow), some aliceRow, none) := by
    decide +kernel
  obtain ⟨d, hd, hout⟩ := Option.map_eq_some_iff.1 hend
  obtain ⟨⟨login, hlogin, -⟩, ⟨command, draws, hdone⟩, -⟩ := ending_some hout
  obtain ⟨p, hp, hmeets⟩ : ∃ p, Runs (loginPool sample Bool true) loginAndReset p d ∧
      Meets OutdatedSessions.Undisturbed p :=
    playMeeting_runs (fun _ _ _ _ _ hs => hs) (by simp [loginFirst]) hd
  exact ⟨p, d, login, aliceRow, hp, hlogin, rfl,
    reset_ends_old_sessions loginAndReset_launch hp hmeets hdone⟩

def loginLate : List (Move Bool (Stores Bool)) :=
  [.run false] ++ List.replicate 7 (.run true) ++ List.replicate 2 (.run false)

/-- A session of the old password outlives the reset. -/
theorem late_login_outlives_reset :
    ∃ p d login command draws, OutdatedSessions.Launch true loginAndReset ∧
      Runs (loginPool sample Bool true) loginAndReset p d ∧
      d.thread false = .loggedIn login aliceRow ∧ d.thread true = .resetDone command draws aliceRow ∧
      (d.shared.redis.session.value login.sessionId).bind SessionHash.userId = some aliceRow.id := by
  have hend : (play (fun i σ t => t.step i σ) loginLate loginAndReset).map ending =
      some (some (sessionOne, aliceRow), some aliceRow, some alice) := by
    decide +kernel
  obtain ⟨d, hd, hout⟩ := Option.map_eq_some_iff.1 hend
  obtain ⟨⟨login, hlogin, hid⟩, ⟨command, draws, hdone⟩, huser⟩ := ending_some hout
  obtain ⟨p, hp⟩ : ∃ p, Runs (loginPool sample Bool true) loginAndReset p d :=
    play_runs (fun _ _ _ _ _ hs => hs) (by simp [loginLate]) hd
  exact ⟨p, d, login, command, draws, loginAndReset_launch, hp, hlogin, hdone, by rw [hid]; exact huser⟩

end Sample

end AuthService.OutdatedSessions
