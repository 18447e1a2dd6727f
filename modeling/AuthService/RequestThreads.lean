import AuthService.PoolTermination
import AuthService.RegistrationThreads
import AuthService.ResetThreads
import Mathlib.Data.Prod.Lex

set_option autoImplicit false

/-! Requests of every kind next to each other, on one database and one Redis. -/
namespace AuthService.RequestThreads
open Uuids PythonText DomainModel AccountTables Transactions RedisSessions RequestPorts
open CommandHandlers LabelledRuns ThreadPools PoolTermination ReadCommitted SessionThreads
open PasswordThreads RegistrationThreads

/-- A registration, a login or a reset, or the Redis commands of a refresh or a revocation. -/
inductive RequestThread (g : GlobalContainer) where
  | register (t : RegisterThread g)
  | password (t : PasswordThread g)
  | session (t : SessionThread)

namespace RequestThread
variable {g : GlobalContainer}

def step {ι : Type} [DecidableEq ι] (i : ι) (σ : Stores ι) : RequestThread g →
    Option (Stores ι × RequestThread g)
  | .register t => (t.step i σ.db).map fun x => ({ σ with db := x.1 }, .register x.2)
  | .password t => (t.step i σ).map fun x => (x.1, .password x.2)
  | .session t => (t.step g σ.redis).map fun x => ({ σ with redis := x.1 }, .session x.2)

def starts : RequestThread g → Bool
  | .register (.request _ _ _) => true
  | .password (.login _ _) => true
  | .password (.reset _ _) => true
  | .session t => t.start
  | _ => false

def finished : RequestThread g → Bool
  | .register (.answered _ _) => true
  | .password (.loggedIn _ _) => true
  | .password .loginFailed => true
  | .password (.resetDone _ _ _) => true
  | .password .resetFailed => true
  | .session t => t.finished
  | _ => false

end RequestThread

/-- Any number of requests, with time passing and keys vanishing from Redis. -/
def requestProgram (g : GlobalContainer) (ι : Type) [DecidableEq ι] :
    Program ι (Stores ι) (RequestThread g) where
  step i σ t σ' t' := t.step i σ = some (σ', t')
  env σ σ' := σ'.db = σ.db ∧ vanishing σ.redis σ'.redis

section Termination
variable {g : GlobalContainer}

/-- What is left of the Redis commands of a thread; a bulk revocation has to read first how
many sessions there are. -/
def sessionMeasure : SessionThread → ℕ × ℕ
  | .login _ _ _ => (0, 1)
  | .refresh _ _ => (0, 3)
  | .claimed _ _ _ => (0, 2)
  | .rotating _ _ _ _ _ => (0, 1)
  | .bearer _ _ _ => (0, 5)
  | .ownership _ _ => (0, 4)
  | .revokeHandler _ => (0, 3)
  | .revoke _ => (0, 2)
  | .revoking _ _ => (0, 1)
  | .revokeAll _ => (1, 0)
  | .clearing _ ids => (0, 2 * ids.length + 1)
  | .revokeEach _ ids => (0, 2 * ids.length)
  | .revokingEach _ _ _ rest => (0, 2 * rest.length + 1)
  | _ => (0, 0)

def registerMeasure : RegisterThread g → ℕ × ℕ
  | .request _ _ _ => (0, 3)
  | .saving _ _ => (0, 2)
  | .saved _ _ => (0, 1)
  | .answered _ _ => (0, 0)

def passwordMeasure : PasswordThread g → ℕ × ℕ
  | .login _ _ => (0, 3)
  | .opening _ _ _ t => ((sessionMeasure t).1, (sessionMeasure t).2 + 1)
  | .refusing _ => (0, 1)
  | .reset _ _ => (1, 5)
  | .consumed _ _ _ _ => (1, 4)
  | .owned _ _ _ _ _ _ => (1, 3)
  | .userSaved _ _ _ _ _ _ => (1, 2)
  | .revoking _ _ _ _ _ t => ((sessionMeasure t).1, (sessionMeasure t).2 + 1)
  | _ => (0, 0)

def requestMeasure : RequestThread g → ℕ ×ₗ ℕ
  | .register t => toLex (registerMeasure t)
  | .password t => toLex (passwordMeasure t)
  | .session t => toLex (sessionMeasure t)

theorem toLex_lt {a b : ℕ × ℕ} : toLex a < toLex b ↔ a.1 < b.1 ∨ a.1 = b.1 ∧ a.2 < b.2 :=
  Prod.Lex.toLex_lt_toLex

theorem loop_measure (gone ids : List UUID) :
    sessionMeasure (SessionThread.loop gone ids) = (0, 2 * ids.length) := by
  cases ids <;> rfl

theorem session_descends {r r' : Redis} {t t' : SessionThread} (h : t.step g r = some (r', t')) :
    toLex (sessionMeasure t') < toLex (sessionMeasure t) := by
  rw [toLex_lt]
  cases t with
  | login _ _ _ => cases h; simp [sessionMeasure]
  | refresh token d =>
    cases h
    simp only [SessionThread.afterGetdel]
    split
    · simp [sessionMeasure]
    · split <;> simp [sessionMeasure]
  | claimed token d sid =>
    cases h
    simp only [SessionThread.afterHgetall]
    split
    · simp [sessionMeasure]
    · split <;> simp [sessionMeasure]
  | rotating _ _ _ _ _ => cases h; simp [sessionMeasure]
  | bearer userId jti sid =>
    cases h
    simp only [SessionThread.afterExists]
    split <;> simp [sessionMeasure]
  | ownership userId sid =>
    cases h
    simp only [SessionThread.afterOwnership]
    split
    · simp [sessionMeasure]
    · split <;> simp [sessionMeasure]
  | revokeHandler _ => cases h; simp [sessionMeasure]
  | revoke sid =>
    cases h
    simp only [SessionThread.afterRevokeRead]
    split <;> simp [sessionMeasure]
  | revoking _ _ => cases h; simp [sessionMeasure]
  | revokeAll _ => cases h; simp [sessionMeasure]
  | clearing userId ids =>
    cases h
    rw [loop_measure]
    simp [sessionMeasure]
  | revokeEach gone ids =>
    cases ids with
    | nil => cases h
    | cons sid rest =>
      cases h
      simp only [SessionThread.afterEachRead]
      split
      · rw [loop_measure]
        simp [sessionMeasure]
      · refine .inr ⟨rfl, ?_⟩
        simp only [sessionMeasure, List.length_cons]
        omega
  | revokingEach gone sid data rest =>
    cases h
    rw [loop_measure]
    simp [sessionMeasure]
  | loggedIn _ => cases h
  | refreshed _ _ _ => cases h
  | refreshFailed => cases h
  | declined => cases h
  | returned _ => cases h

section Statements
variable {ι : Type} [DecidableEq ι] {i : ι}

theorem register_descends {db db' : Database ι} {t t' : RegisterThread g}
    (h : t.step i db = some (db', t')) : toLex (registerMeasure t') < toLex (registerMeasure t) := by
  rw [toLex_lt]
  cases t with
  | request command d createdAt =>
    cases h
    unfold RegisterThread.select
    split
    · simp [registerMeasure]
    · split
      · simp [registerMeasure]
      · split <;> simp [registerMeasure]
  | saving command user =>
    change RegisterThread.insert i db command user = some (db', t') at h
    unfold RegisterThread.insert at h
    split_ifs at h
    split at h <;> cases h <;> simp [registerMeasure]
  | saved command stmt =>
    cases h
    simp [registerMeasure]
  | answered _ _ => cases h

theorem selectUser_measure (t : Tables) (now : ℕ) (command : AuthenticateUserCommand) (d : LoginDraws) :
    (passwordMeasure (PasswordThread.selectUser t now command d : PasswordThread g)).1 = 0 ∧
      (passwordMeasure (PasswordThread.selectUser t now command d : PasswordThread g)).2 ≤ 2 := by
  unfold PasswordThread.selectUser
  split
  · simp [passwordMeasure]
  · split
    · simp [passwordMeasure]
    · split
      · simp [passwordMeasure]
      · split_ifs <;> simp [passwordMeasure, sessionMeasure]

theorem password_descends {σ σ' : Stores ι} {t t' : PasswordThread g} (h : t.step i σ = some (σ', t')) :
    toLex (passwordMeasure t') < toLex (passwordMeasure t) := by
  rw [toLex_lt]
  cases t with
  | login command d =>
    cases h
    obtain ⟨h1, h2⟩ := selectUser_measure (g := g) σ.db.tables σ.redis.now command d
    refine .inr ⟨h1, ?_⟩
    simp only [passwordMeasure] at h2 ⊢
    omega
  | opening command d row t =>
    simp only [PasswordThread.step] at h
    split at h
    · rename_i r u hu
      cases h
      have hlt := toLex_lt.1 (session_descends hu)
      simp only [passwordMeasure]
      omega
    · cases h
      simp only [passwordMeasure]
      omega
  | refusing event => cases h; simp [passwordMeasure]
  | reset command d =>
    cases h
    rcases ResetThreads.selectToken_cases (g := g) σ.db.tables σ.redis.now command d with
      hs | ⟨-, stored, -, -, hs⟩ <;> rw [hs] <;> simp [passwordMeasure]
  | consumed command d stored token =>
    cases h
    rcases ResetThreads.selectOwner_cases (g := g) σ.db.tables command d stored token with
      hs | ⟨owner, user, -, -, hs⟩ <;> rw [hs] <;> simp [passwordMeasure]
  | owned command d stored token owner user =>
    obtain ⟨⟨db', th⟩, hx, he⟩ := Option.map_eq_some_iff.1 h
    cases he
    rcases (ResetThreads.updateUser_cases hx).2 with rfl | rfl <;> simp [passwordMeasure]
  | userSaved command d stored token owner s₁ =>
    obtain ⟨⟨db', th⟩, hx, he⟩ := Option.map_eq_some_iff.1 h
    cases he
    rcases (ResetThreads.updateToken_cases hx).2 with rfl | rfl <;>
      simp [passwordMeasure, sessionMeasure]
  | revoking command d owner s₁ s₂ t =>
    simp only [PasswordThread.step] at h
    split at h
    · rename_i r u hu
      cases h
      have hlt := toLex_lt.1 (session_descends hu)
      simp only [passwordMeasure]
      omega
    · cases h
      simp only [passwordMeasure]
      omega
  | loggedIn _ _ => cases h
  | loginFailed => cases h
  | resetDone _ _ _ => cases h
  | resetFailed => cases h

theorem request_descends {σ σ' : Stores ι} {t t' : RequestThread g} (h : t.step i σ = some (σ', t')) :
    requestMeasure t' < requestMeasure t := by
  cases t with
  | register t =>
    obtain ⟨x, hx, he⟩ := Option.map_eq_some_iff.1 h
    cases he
    exact register_descends hx
  | password t =>
    obtain ⟨x, hx, he⟩ := Option.map_eq_some_iff.1 h
    cases he
    exact password_descends hx
  | session t =>
    obtain ⟨x, hx, he⟩ := Option.map_eq_some_iff.1 h
    cases he
    exact session_descends hx

theorem program_descends : Descends (requestProgram g ι) requestMeasure :=
  fun _ _ _ _ _ h => request_descends h

end Statements

end Termination

/-! ## Locks -/

namespace RequestThread
variable {g : GlobalContainer}

/-- The kind of lock a request may hold at this point: a transaction that has inserted an account
has its address, one that has changed a password the user row, and then the reset row. -/
def mayHold : RequestThread g → LockKey → Prop
  | .register (.saved _ _), .email _ => True
  | .password (.userSaved _ _ _ _ _ _), .user _ => True
  | .password (.revoking _ _ _ _ _ _), .user _ => True
  | .password (.revoking _ _ _ _ _ _), .resetToken _ => True
  | _, _ => False

def wants : RequestThread g → Option LockKey
  | .register (.saving _ user) => some (.email user.email.value)
  | .password (.owned _ _ _ _ owner _) => some (.user owner.id)
  | .password (.userSaved _ _ stored _ _ _) => some (.resetToken stored.id)
  | _ => none

end RequestThread

def lockRank : LockKey → ℕ
  | .email _ => 0
  | .user _ => 1
  | .resetToken _ => 2

def Held {g : GlobalContainer} {ι : Type} (c : Pool ι (Stores ι) (RequestThread g)) : Prop :=
  ∀ k i, c.shared.db.locks k = some i → (c.thread i).mayHold k

section Locks
variable {g : GlobalContainer}

theorem not_finished_of_mayHold {t : RequestThread g} {k : LockKey} (h : t.mayHold k) :
    t.finished = false := by
  cases t with
  | register t => cases t <;> first | rfl | exact h.elim
  | password t => cases t <;> first | rfl | exact h.elim
  | session t => exact h.elim

/-- A waiting request only holds locks that come before the one it waits for. -/
theorem rank_lt_of_wants {t : RequestThread g} {k l : LockKey} (hw : t.wants = some k)
    (hl : t.mayHold l) : lockRank l < lockRank k := by
  cases t with
  | register t =>
    cases t with
    | saving command user => exact hl.elim
    | request | saved | answered => cases hw
  | password t =>
    cases t with
    | owned command d stored token owner user => exact hl.elim
    | userSaved command d stored token owner s₁ =>
      cases hw
      cases l with
      | user id => exact Nat.one_lt_two
      | email | resetToken => exact hl.elim
    | _ => cases hw
  | session t => cases hw

section Moves
variable {ι : Type} [DecidableEq ι] {i : ι}

theorem session_moves {t : SessionThread} (h : t.finished = false) (r : Redis) :
    (t.step g r).isSome = true := by
  cases t with
  | revokeEach gone ids =>
    cases ids with
    | nil => cases h
    | cons sid rest => rfl
  | _ => first | rfl | cases h

theorem update_isSome {db : Database ι} {k : LockKey} (sent : Bool) (hfree : db.locks.Free i k) :
    ∃ db', db.update i k sent = some db' := by
  obtain ⟨db', hdb, -⟩ := update_free sent hfree
  exact ⟨db', hdb⟩

theorem password_moves {σ : Stores ι} {t : PasswordThread g}
    (h : (RequestThread.password t).finished = false)
    (hfree : ∀ k, (RequestThread.password t).wants = some k → σ.db.locks.Free i k) :
    (t.step i σ).isSome = true := by
  cases t with
  | opening command d row t =>
    simp only [PasswordThread.step]
    split <;> rfl
  | revoking command d owner s₁ s₂ t =>
    simp only [PasswordThread.step]
    split <;> rfl
  | owned command d stored token owner user =>
    obtain ⟨db', hdb⟩ := update_isSome (decide (toUserModel
      (user.changePassword (g.hashpw command.newPassword d.salt)) ≠ owner)) (hfree _ rfl)
    simp only [PasswordThread.step, PasswordThread.updateUser, hdb, Option.isSome_map]
    split <;> rfl
  | userSaved command d stored token owner s₁ =>
    obtain ⟨db', hdb⟩ := update_isSome (decide (toResetTokenModel token ≠ stored)) (hfree _ rfl)
    simp only [PasswordThread.step, PasswordThread.updateToken, hdb, Option.isSome_map]
    split <;> rfl
  | _ => first | rfl | cases h

theorem request_moves (σ : Stores ι) {t : RequestThread g} (h : t.finished = false)
    (hfree : ∀ k, t.wants = some k → σ.db.locks.Free i k) : (t.step i σ).isSome = true := by
  cases t with
  | register t =>
    simp only [RequestThread.step, Option.isSome_map]
    cases t with
    | saving command user =>
      change (RegisterThread.insert i σ.db command user).isSome = true
      unfold RegisterThread.insert
      rw [if_pos (hfree _ rfl)]
      split <;> rfl
    | answered command answer => cases h
    | request | saved => rfl
  | password t =>
    simp only [RequestThread.step, Option.isSome_map]
    exact password_moves h hfree
  | session t =>
    simp only [RequestThread.step, Option.isSome_map]
    exact session_moves h σ.redis

/-- The locks after a step: those of the others are as they were, and the request may hold its own. -/
def Passes (i : ι) (before after : Locks LockKey ι) (t t' : RequestThread g) : Prop :=
  (∀ k, before k = some i → t.mayHold k) →
    ∀ k j, after k = some j → (j = i → t'.mayHold k) ∧ (j ≠ i → before k = some j)

omit [DecidableEq ι] in
theorem passes_same {before : Locks LockKey ι} {t t' : RequestThread g}
    (hkeep : ∀ k, t.mayHold k → t'.mayHold k) : Passes i before before t t' :=
  fun hold k _ hk => ⟨fun hj => hkeep k (hold k (hj ▸ hk)), fun _ => hk⟩

omit [DecidableEq ι] in
theorem passes_idle {before : Locks LockKey ι} {t t' : RequestThread g} (h : ∀ k, ¬ t.mayHold k) :
    Passes i before before t t' :=
  passes_same (fun k hk => absurd hk (h k))

theorem passes_release {before : Locks LockKey ι} {t t' : RequestThread g} :
    Passes i before (before.release i) t t' := by
  intro _ k j hk
  unfold Locks.release at hk
  split_ifs at hk with hi
  exact ⟨fun hj => absurd (hj ▸ hk) hi, fun _ => hk⟩

omit [DecidableEq ι] in
theorem passes_take {before : Locks LockKey ι} {k : LockKey} {t t' : RequestThread g}
    (hkeep : ∀ k, t.mayHold k → t'.mayHold k) (htake : t'.mayHold k) :
    Passes i before (before.acquire i k) t t' := by
  intro hold k' j hk
  simp only [Locks.acquire, Function.update_apply] at hk
  split_ifs at hk with hkey
  · obtain rfl := Option.some.inj hk
    rw [hkey]
    exact ⟨fun _ => htake, fun hne => absurd rfl hne⟩
  · exact passes_same hkeep hold k' j hk

theorem passes_update {db db' : Database ι} {k : LockKey} {sent : Bool}
    (h : db.update i k sent = some db') {t t' : RequestThread g}
    (hkeep : ∀ k, t.mayHold k → t'.mayHold k) (htake : t'.mayHold k) :
    Passes i db.locks db'.locks t t' := by
  unfold Database.update at h
  split_ifs at h
  · rw [← Option.some.inj h]
    exact passes_take hkeep htake
  · rw [← Option.some.inj h]
    exact passes_same hkeep

theorem register_passes {db db' : Database ι} {t t' : RegisterThread g}
    (h : t.step i db = some (db', t')) :
    Passes i db.locks db'.locks (RequestThread.register t) (.register t') := by
  cases t with
  | request command d createdAt =>
    cases h
    exact passes_idle (fun _ => id)
  | saving command user =>
    change RegisterThread.insert i db command user = some (db', t') at h
    unfold RegisterThread.insert at h
    split_ifs at h
    split at h
    · cases h
      exact passes_idle (fun _ => id)
    · cases h
      exact passes_take (fun _ hk => hk.elim) trivial
  | saved command stmt =>
    cases h
    exact passes_release
  | answered command answer => cases h

theorem password_passes {σ σ' : Stores ι} {t t' : PasswordThread g} (h : t.step i σ = some (σ', t')) :
    Passes i σ.db.locks σ'.db.locks (RequestThread.password t) (.password t') := by
  cases t with
  | login command d =>
    cases h
    exact passes_idle (fun _ => id)
  | opening command d row t =>
    simp only [PasswordThread.step] at h
    split at h
    · cases h
      exact passes_idle (fun _ => id)
    · cases h
      exact passes_release
  | refusing event =>
    cases h
    exact passes_release
  | reset command d =>
    cases h
    exact passes_idle (fun _ => id)
  | consumed command d stored token =>
    cases h
    exact passes_idle (fun _ => id)
  | owned command d stored token owner user =>
    obtain ⟨x, hx, he⟩ := Option.map_eq_some_iff.1 h
    cases he
    unfold PasswordThread.updateUser at hx
    simp only at hx
    split at hx
    · cases hx
    · rename_i db' hdb
      split at hx
      · rw [← Option.some.inj hx]
        exact passes_release
      · rw [← Option.some.inj hx]
        exact passes_update hdb (fun _ hk => hk.elim) trivial
  | userSaved command d stored token owner s₁ =>
    obtain ⟨x, hx, he⟩ := Option.map_eq_some_iff.1 h
    cases he
    unfold PasswordThread.updateToken at hx
    simp only at hx
    split at hx
    · cases hx
    · rename_i db' hdb
      split at hx
      · rw [← Option.some.inj hx]
        exact passes_release
      · rw [← Option.some.inj hx]
        refine passes_update hdb (fun k hk => ?_) trivial
        cases k with
        | user id => trivial
        | email | resetToken => exact hk.elim
  | revoking command d owner s₁ s₂ t =>
    simp only [PasswordThread.step] at h
    split at h
    · cases h
      exact passes_same (fun k hk => by cases k <;> first | exact trivial | exact hk.elim)
    · cases h
      exact passes_release
  | loggedIn | loginFailed | resetDone | resetFailed => cases h

theorem request_passes {σ σ' : Stores ι} {t t' : RequestThread g} (h : t.step i σ = some (σ', t')) :
    Passes i σ.db.locks σ'.db.locks t t' := by
  cases t with
  | register t =>
    obtain ⟨x, hx, he⟩ := Option.map_eq_some_iff.1 h
    cases he
    exact register_passes hx
  | password t =>
    obtain ⟨x, hx, he⟩ := Option.map_eq_some_iff.1 h
    cases he
    exact password_passes hx
  | session t =>
    obtain ⟨x, -, he⟩ := Option.map_eq_some_iff.1 h
    cases he
    exact passes_idle (fun _ => id)

end Moves

section Runs
variable {ι : Type} [DecidableEq ι]

/-- Requests before their first statement, on any tables and any Redis, and no lock. -/
structure Launch (c : Pool ι (Stores ι) (RequestThread g)) : Prop where
  unlocked : ∀ k, c.shared.db.locks k = none
  start : ∀ i, (c.thread i).starts = true

def requestPool (g : GlobalContainer) (ι : Type) [DecidableEq ι] :
    System (Pool ι (Stores ι) (RequestThread g)) (Turn ι) :=
  (requestProgram g ι).system Launch

theorem held_step {c d : Pool ι (Stores ι) (RequestThread g)} {l : Turn ι} (h : Held c)
    (hs : (requestPool g ι).step c l d) : Held d := by
  cases hs with
  | env henv =>
    intro k i hk
    simp only at hk
    rw [henv.1] at hk
    exact h k i hk
  | @run s t i hrun =>
    have hpasses := request_passes hrun (fun k hk => h k i hk)
    intro k j hk
    obtain ⟨hown, hother⟩ := hpasses k j hk
    by_cases hj : j = i
    · subst hj
      simpa only [Function.update_self] using hown rfl
    · simp only [Function.update_of_ne hj]
      exact h k j (hother hj)

/-- Some request that is not at its end can go on: nobody waits in a circle. -/
theorem some_moves [Finite ι] {c : Pool ι (Stores ι) (RequestThread g)} (h : Held c)
    (hbusy : ∃ i, ¬ (c.thread i).finished = true) : ∃ i d, (requestPool g ι).step c (.run i) d := by
  obtain ⟨i₀, hi₀⟩ := hbusy
  obtain ⟨i, hi, hfree⟩ := some_unblocked (fun i => (c.thread i).finished = false) c.shared.db.locks
    (fun i => (c.thread i).wants) lockRank (fun k i hk => not_finished_of_mayHold (h k i hk))
    (fun i k hw l hl => rank_lt_of_wants hw (h l i hl)) (Bool.eq_false_iff.2 hi₀)
  have hlocks : ∀ k, (c.thread i).wants = some k → c.shared.db.locks.Free i k := by
    intro k hk
    cases hl : c.shared.db.locks k with
    | none => exact .inl hl
    | some j =>
      rw [← hfree k hk j hl]
      exact .inr hl
  obtain ⟨x, hx⟩ := Option.isSome_iff_exists.1 (request_moves c.shared hi hlocks)
  exact ⟨i, _, PoolStep.run i hx⟩

/-- Registrations, logins, resets, refreshes and revocations next to each other: whatever has
happened, all that have begun can still be brought to their end, where no lock is left, and none
of them runs for ever. -/
theorem requests_complete [Finite ι] {c d : Pool ι (Stores ι) (RequestThread g)}
    {p : List (Pool ι (Stores ι) (RequestThread g) × Turn ι)} (hc : Launch c)
    (h : Runs (requestPool g ι) c p d) :
    (∃ q e, Runs (requestPool g ι) d q e ∧ (∀ x ∈ q, x.2 ≠ .env) ∧
      (∀ i, (e.thread i).finished = true) ∧ ∀ k, e.shared.db.locks k = none) ∧
    ∀ (run : ℕ → Pool ι (Stores ι) (RequestThread g)) (turn : ℕ → Turn ι),
      (∀ n, (requestPool g ι).step (run n) (turn n) (run (n + 1))) → {n | turn n ≠ .env}.Finite := by
  have hstart : Held c := fun k i hk => by
    rw [hc.unlocked] at hk
    cases hk
  have hheld : Held d := h.invariant Held (fun _ _ _ hI hs => held_step hI hs) hstart
  refine ⟨?_, fun _ _ hsteps => finitely_many_turns program_descends hsteps⟩
  obtain ⟨q, e, hq, hturns, hdone⟩ := comes_to_rest program_descends Held
    (fun _ _ _ hI hs => held_step hI hs) (fun t => t.finished = true)
    (fun _ hI hbusy => some_moves hI hbusy)
    Launch hheld
  refine ⟨q, e, hq, hturns, hdone, fun k => ?_⟩
  cases hk : e.shared.db.locks k with
  | none => rfl
  | some i =>
    have hlocked := hq.invariant Held (fun _ _ _ hI hs => held_step hI hs) hheld k i hk
    have hbusy := not_finished_of_mayHold hlocked
    rw [hdone i] at hbusy
    cases hbusy

end Runs

end Locks

section Sample
open SampleContainer

def twoRequests : Pool Bool (Stores Bool) (RequestThread sample) where
  shared := ⟨⟨initialWorld.db.committed, fun _ => none⟩, initialWorld.redis⟩
  thread i := if i then .password (.login loginCommand loginDraws)
    else .register (.request ⟨"bob@example.com", "Passw0rd1"⟩ ⟨jtiTwo, saltOne⟩ startTime)

theorem requests_complete_two : ∃ q e, Runs (requestPool sample Bool) twoRequests q e ∧
    (∀ x ∈ q, x.2 ≠ .env) ∧ (∀ i, (e.thread i).finished = true) ∧ ∀ k, e.shared.db.locks k = none :=
  (requests_complete ⟨fun _ => rfl, fun i => by cases i <;> rfl⟩ (.refl twoRequests)).1

end Sample

end AuthService.RequestThreads
