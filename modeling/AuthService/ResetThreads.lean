import AuthService.PasswordThreads
import AuthService.SampleContainer

set_option autoImplicit false

/-! Requests that present one reset token next to each other: the SELECT and `consume`, the
two UPDATEs, the Redis commands, and the COMMIT at the end of the request. -/
namespace AuthService.ResetThreads
open Uuids PythonText DomainModel KeyedRows AccountTables Transactions ExpiringMaps RedisSessions
open RequestPorts CommandHandlers LabelledRuns ThreadPools AccountEffects ReadCommitted
open SessionThreads PasswordThreads

section Requests
variable {g : GlobalContainer}

def presented : PasswordThread g → Option (ResetPasswordCommand × ResetDraws)
  | .reset command d => some (command, d)
  | .consumed command d _ _ => some (command, d)
  | .owned command d _ _ _ _ => some (command, d)
  | .userSaved command d _ _ _ _ => some (command, d)
  | .revoking command d _ _ _ _ => some (command, d)
  | .resetDone command d _ => some (command, d)
  | _ => none

/-- `consume` has accepted the row and the transaction is still open. -/
def active : PasswordThread g → Bool
  | .consumed _ _ _ _ => true
  | .owned _ _ _ _ _ _ => true
  | .userSaved _ _ _ _ _ _ => true
  | .revoking _ _ _ _ _ _ => true
  | _ => false

def completed : PasswordThread g → Bool
  | .resetDone _ _ _ => true
  | _ => false

def accepts (g : GlobalContainer) (t : Tables) (now : ℕ) (command : ResetPasswordCommand) : Bool :=
  (PlainPassword.new g.unicode command.newPassword).isOk &&
    match lookup PasswordResetTokenModel.token (g.sha256 command.token) t.passwordResetTokens with
    | none => false
    | some stored => (stored.toDomain.consume now).isOk

def selects {ι : Type} (σ : Stores ι) : PasswordThread g → Bool
  | .reset command _ => accepts g σ.db.tables σ.redis.now command
  | _ => false

end Requests

/-- All requests present one token, which belongs to one user. -/
structure Launch {g : GlobalContainer} {ι : Type} (raw : String) (uid : UUID)
    (c : Pool ι (Stores ι) (PasswordThread g)) : Prop where
  tables : c.shared.db.tables.WellFormed g.unicode
  start : ∀ i, ∃ command d, c.thread i = .reset command d ∧ command.token = raw
  belongs : ∀ r ∈ c.shared.db.tables.passwordResetTokens, r.token = g.sha256 raw → r.userId = uid

def resetPool (g : GlobalContainer) (ι : Type) [DecidableEq ι] (raw : String) (uid : UUID) :
    System (Pool ι (Stores ι) (PasswordThread g)) (Turn ι) :=
  (passwordProgram g ι).system (Launch raw uid)

/-- No request reads an unused row while another one is between its `consume` and its COMMIT. -/
def Undisturbed {g : GlobalContainer} {ι : Type} (c : Pool ι (Stores ι) (PasswordThread g)) :
    Turn ι → Prop
  | .env => True
  | .run i => selects c.shared (c.thread i) = true → ∀ j, j ≠ i → active (c.thread j) = false

instance {g : GlobalContainer} {ι : Type} [DecidableEq ι] [Fintype ι]
    (c : Pool ι (Stores ι) (PasswordThread g)) (l : Turn ι) : Decidable (Undisturbed c l) :=
  match l with
  | .env => inferInstanceAs (Decidable True)
  | .run i => inferInstanceAs
      (Decidable (selects c.shared (c.thread i) = true → ∀ j, j ≠ i → active (c.thread j) = false))

section Select
variable {g : GlobalContainer} {t : Tables}

theorem selectToken_cases (t : Tables) (now : ℕ) (command : ResetPasswordCommand) (d : ResetDraws) :
    PasswordThread.selectToken t now command d = (.resetFailed : PasswordThread g) ∨
    accepts g t now command = true ∧ ∃ stored,
      lookup PasswordResetTokenModel.token (g.sha256 command.token) t.passwordResetTokens =
        some stored ∧
      stored.used = false ∧ PasswordThread.selectToken t now command d =
        (.consumed command d stored (consumed stored).toDomain : PasswordThread g) := by
  unfold PasswordThread.selectToken accepts
  cases hp : PlainPassword.new g.unicode command.newPassword with
  | error e => exact .inl rfl
  | ok p =>
    cases hl : lookup PasswordResetTokenModel.token (g.sha256 command.token) t.passwordResetTokens with
    | none => exact .inl rfl
    | some stored =>
      simp only
      cases hc : stored.toDomain.consume now with
      | error e => exact .inl rfl
      | ok token =>
        refine .inr ⟨rfl, stored, rfl, (PasswordResetToken.consume_ok.1 hc).2.1, ?_⟩
        rw [consume_consumed hc]

theorem selectOwner_cases (t : Tables) (command : ResetPasswordCommand) (d : ResetDraws)
    (stored : PasswordResetTokenModel) (token : PasswordResetToken) :
    PasswordThread.selectOwner t command d stored token = (.resetFailed : PasswordThread g) ∨
    ∃ owner user, lookup UserModel.id token.userId t.users = some owner ∧
      owner.toDomain g.unicode = .ok user ∧ PasswordThread.selectOwner t command d stored token =
        (.owned command d stored token owner user : PasswordThread g) := by
  unfold PasswordThread.selectOwner
  cases hl : lookup UserModel.id token.userId t.users with
  | none => exact .inl rfl
  | some owner =>
    simp only
    cases hd : owner.toDomain g.unicode with
    | error e => exact .inl rfl
    | ok user => exact .inr ⟨owner, user, rfl, hd, rfl⟩

end Select

section Runs
variable {g : GlobalContainer} {raw : String} {uid : UUID}

structure Unused (g : GlobalContainer) (raw : String) (t : Tables) (stored : PasswordResetTokenModel) :
    Prop where
  mem : stored ∈ t.passwordResetTokens
  token : stored.token = g.sha256 raw
  used : stored.used = false

/-- The reset has taken place: the token is used and the user has the new hash. -/
structure Settled (g : GlobalContainer) (raw : String) (uid : UUID) (t : Tables) (newHash : String) :
    Prop where
  used : ∃ r ∈ t.passwordResetTokens, r.token = g.sha256 raw ∧ r.used = true
  hash : ∃ m ∈ t.users, m.id = uid ∧ m.hashedPassword = newHash

def Changes (t : Tables) (stored : PasswordResetTokenModel) (newHash : String) (owner : UserModel)
    (s₁ : Statement) : Prop :=
  owner ∈ t.users ∧ owner.id = stored.userId ∧ s₁ = .updateUser owner (withPassword newHash owner)

def Sound (raw : String) (uid : UUID) (t : Tables) : PasswordThread g → Prop
  | .reset command _ => command.token = raw
  | .consumed _ _ stored token => Unused g raw t stored ∧ token = (consumed stored).toDomain
  | .owned _ _ stored token owner user =>
    Unused g raw t stored ∧ token = (consumed stored).toDomain ∧ Consumable g t stored owner user
  | .userSaved command d stored token owner s₁ =>
    Unused g raw t stored ∧ token = (consumed stored).toDomain ∧
      Changes t stored (g.hashpw command.newPassword d.salt) owner s₁
  | .revoking command d owner s₁ s₂ _ =>
    ∃ stored, Unused g raw t stored ∧ s₂ = .updateResetToken stored (consumed stored) ∧
      Changes t stored (g.hashpw command.newPassword d.salt) owner s₁
  | .resetDone command d _ => Settled g raw uid t (g.hashpw command.newPassword d.salt)
  | .resetFailed => True
  | _ => False

structure Compatible (s t : PasswordThread g) : Prop where
  lone : active s = true → active t = false
  winner : completed s = true → completed t = false

theorem Compatible.symm {s t : PasswordThread g} (h : Compatible s t) : Compatible t s := by
  refine ⟨?_, ?_⟩
  · intro ht
    by_contra hs
    rw [h.lone (by simpa using hs)] at ht
    cases ht
  · intro ht
    by_contra hs
    rw [h.winner (by simpa using hs)] at ht
    cases ht

structure Owned (g : GlobalContainer) (raw : String) (uid : UUID) (t : Tables) : Prop where
  tables : t.WellFormed g.unicode
  belongs : ∀ r ∈ t.passwordResetTokens, r.token = g.sha256 raw → r.userId = uid

def singleUse (g : GlobalContainer) (ι : Type) (raw : String) (uid : UUID) :
    Assertion (Stores ι) (PasswordThread g) where
  shared σ := Owned g raw uid σ.db.tables
  thread σ t := Sound raw uid σ.db.tables t
  pair := Compatible

theorem Sound.unused {t : Tables} {th : PasswordThread g} (h : Sound raw uid t th)
    (ha : active th = true) : ∃ stored, Unused g raw t stored := by
  cases th with
  | consumed command d stored token => exact ⟨stored, h.1⟩
  | owned command d stored token owner user => exact ⟨stored, h.1⟩
  | userSaved command d stored token owner s₁ => exact ⟨stored, h.1⟩
  | revoking command d owner s₁ s₂ t =>
    obtain ⟨stored, hunused, -⟩ := h
    exact ⟨stored, hunused⟩
  | _ => cases ha

theorem Sound.lone {t : Tables} (ht : t.WellFormed g.unicode) {th th' : PasswordThread g}
    (h : Sound raw uid t th) (ha : active th = true) (h' : Sound raw uid t th') :
    completed th' = false := by
  cases th' with
  | resetDone command d owner =>
    obtain ⟨stored, hunused⟩ := h.unused ha
    obtain ⟨r, hr, htoken, hused⟩ := h'.used
    rw [ht.tokens.unique hr hunused.mem (htoken.trans hunused.token.symm), hunused.used] at hused
    cases hused
  | _ => rfl

theorem Sound.idle {t t' : Tables} {th : PasswordThread g} (h : Sound raw uid t th)
    (hactive : active th = false) (hcompleted : completed th = false) : Sound raw uid t' th := by
  cases th with
  | reset command d => exact h
  | resetFailed => trivial
  | consumed | owned | userSaved | revoking => cases hactive
  | resetDone => cases hcompleted
  | _ => exact h.elim

theorem commit_settles {t : Tables} (ht : Owned g raw uid t) {stored : PasswordResetTokenModel}
    (hunused : Unused g raw t stored) {password salt : String} {owner : UserModel} {s₁ : Statement}
    (hs₁ : Changes t stored (g.hashpw password salt) owner s₁) (event : AuthEventModel) :
    Owned g raw uid
        (replay Statement.apply [s₁, .updateResetToken stored (consumed stored),
          .insertEvent event] t) ∧
      Settled g raw uid
        (replay Statement.apply [s₁, .updateResetToken stored (consumed stored), .insertEvent event] t)
        (g.hashpw password salt) := by
  obtain ⟨hmem, hid, rfl⟩ := hs₁
  obtain ⟨user, -, hd⟩ := WellFormed.findById ht.tables hmem
  have hhash : (g.hashpw password salt).length ≤ columnWidth := by
    rw [g.hashpw_length]
    decide
  have h₁ := ht.tables.saveUser (WellFormed.saveUser_changePassword ht.tables hmem hd hhash)
  have h₂ := h₁.saveResetToken (WellFormed.saveResetToken_consumed h₁ (r := stored) hunused.mem)
  have husers := update_users ht.tables hmem (g.hashpw password salt)
  have htokens := update_resetTokens h₁ (r := stored) hunused.mem
  refine ⟨⟨h₂.insertEvent event, ?_⟩, ⟨consumed stored, ?_, hunused.token, rfl⟩,
    withPassword (g.hashpw password salt) owner, ?_, ?_, rfl⟩
  · intro r hr
    obtain ⟨r₀, hr₀, rfl⟩ := mem_amend.1 (htokens ▸ hr)
    have hbelongs := ht.belongs r₀ hr₀
    split_ifs
    · exact hbelongs
    · exact hbelongs
  · exact htokens ▸ mem_amend.2 ⟨stored, hunused.mem, if_pos rfl⟩
  · exact husers ▸ mem_amend.2 ⟨owner, hmem, if_pos rfl⟩
  · exact hid.trans (ht.belongs stored hunused.mem hunused.token)

inductive StepEffect {ι : Type} (raw : String) (uid : UUID) (σ σ' : Stores ι) (th : PasswordThread g) :
    PasswordThread g → Prop where
  | quiet {th' : PasswordThread g} (same : σ'.db.tables = σ.db.tables)
      (sound : Sound raw uid σ.db.tables th')
      (opens : active th' = true → active th = true ∨ selects σ th = true)
      (lost : completed th' = false) (presents : ∀ x, presented th' = some x → presented th = some x) :
      StepEffect raw uid σ σ' th th'
  | committed {command : ResetPasswordCommand} {d : ResetDraws} {owner : UserModel}
      (opened : active th = true) (presents : presented th = some (command, d))
      (owned : Owned g raw uid σ'.db.tables)
      (settled : Settled g raw uid σ'.db.tables (g.hashpw command.newPassword d.salt)) :
      StepEffect raw uid σ σ' th (.resetDone command d owner)

section Step
variable {ι : Type} [DecidableEq ι]

theorem update_cases {i : ι} {k : LockKey} {sent : Bool} {check : Except Exn Unit} {db db' : Database ι}
    {next th' : PasswordThread g}
    (hs : (match db.update i k sent with
      | none => none
      | some db' =>
        match check with
        | .error _ => some (db.rollback i, PasswordThread.resetFailed)
        | .ok _ => some (db', next)) = some (db', th')) :
    db'.tables = db.tables ∧ (th' = .resetFailed ∨ th' = next) := by
  cases hdb : db.update i k sent with
  | none =>
    rw [hdb] at hs
    cases hs
  | some db₁ =>
    rw [hdb] at hs
    cases check with
    | error e =>
      obtain ⟨rfl, rfl⟩ := Prod.mk.inj (Option.some.inj hs)
      exact ⟨rfl, .inl rfl⟩
    | ok x =>
      obtain ⟨rfl, rfl⟩ := Prod.mk.inj (Option.some.inj hs)
      exact ⟨update_tables hdb, .inr rfl⟩

theorem updateUser_cases {i : ι} {db db' : Database ι} {command : ResetPasswordCommand} {d : ResetDraws}
    {stored : PasswordResetTokenModel} {token : PasswordResetToken} {owner : UserModel}
    {user : User g.unicode} {th' : PasswordThread g}
    (hs : PasswordThread.updateUser i db command d stored token owner user = some (db', th')) :
    db'.tables = db.tables ∧ (th' = .resetFailed ∨
      th' = .userSaved command d stored token owner
        (.updateUser owner (toUserModel (user.changePassword
          (g.hashpw command.newPassword d.salt))))) :=
  update_cases hs

theorem updateToken_cases {i : ι} {db db' : Database ι} {command : ResetPasswordCommand}
    {d : ResetDraws}
    {stored : PasswordResetTokenModel} {token : PasswordResetToken} {owner : UserModel} {s₁ : Statement}
    {th' : PasswordThread g}
    (hs : PasswordThread.updateToken i db command d stored token owner s₁ = some (db', th')) :
    db'.tables = db.tables ∧ (th' = .resetFailed ∨
      th' = .revoking command d owner s₁ (.updateResetToken stored (toResetTokenModel token))
        (.revokeAll owner.id)) :=
  update_cases hs

theorem step_effect {σ σ' : Stores ι} (ht : Owned g raw uid σ.db.tables) {i : ι}
    {th th' : PasswordThread g} (hsound : Sound raw uid σ.db.tables th)
    (hs : th.step i σ = some (σ', th')) :
    StepEffect raw uid σ σ' th th' := by
  have failed : ∀ {σ' : Stores ι}, σ'.db.tables = σ.db.tables →
    StepEffect raw uid σ σ' th .resetFailed :=
    fun same => .quiet same trivial (by simp [active]) rfl (by simp [presented])
  cases th with
  | reset command d =>
    simp only [PasswordThread.step, Option.some.injEq, Prod.mk.injEq] at hs
    obtain ⟨rfl, rfl⟩ := hs
    rcases selectToken_cases (g := g) σ.db.tables σ.redis.now command d with
      heq | ⟨haccepts, stored, hl, hused, heq⟩
    · rw [heq]
      exact failed rfl
    · rw [heq]
      obtain ⟨hmem, htoken⟩ := lookup_some hl
      have hraw : command.token = raw := hsound
      refine .quiet rfl ⟨⟨hmem, by rw [htoken, hraw], hused⟩, rfl⟩ ?_ rfl fun _ h => h
      exact fun _ => .inr haccepts
  | consumed command d stored token =>
    obtain ⟨hunused, rfl⟩ := hsound
    simp only [PasswordThread.step, Option.some.injEq, Prod.mk.injEq] at hs
    obtain ⟨rfl, rfl⟩ := hs
    rcases selectOwner_cases (g := g) σ.db.tables command d stored (consumed stored).toDomain with
      heq | ⟨owner, user, hl, hd, heq⟩
    · rw [heq]
      exact failed rfl
    · rw [heq]
      exact .quiet rfl ⟨hunused, rfl, hunused.mem, hl, hd⟩ (fun _ => .inl rfl) rfl fun _ h => h
  | owned command d stored token owner user =>
    obtain ⟨hunused, rfl, hconsumable⟩ := hsound
    obtain ⟨⟨db', t'⟩, hup, hout⟩ := Option.map_eq_some_iff.1 hs
    obtain ⟨rfl, rfl⟩ := Prod.mk.inj hout
    obtain ⟨htables, rfl | rfl⟩ := updateUser_cases hup
    · exact failed htables
    · rw [hconsumable.changed ht.tables]
      exact .quiet htables ⟨hunused, rfl, hconsumable.mem, (lookup_some hconsumable.owner).2, rfl⟩
        (fun _ => .inl rfl) rfl fun _ h => h
  | userSaved command d stored token owner s₁ =>
    obtain ⟨hunused, rfl, hchanges⟩ := hsound
    obtain ⟨⟨db', t'⟩, hup, hout⟩ := Option.map_eq_some_iff.1 hs
    obtain ⟨rfl, rfl⟩ := Prod.mk.inj hout
    obtain ⟨htables, rfl | rfl⟩ := updateToken_cases hup
    · exact failed htables
    · exact .quiet htables ⟨stored, hunused, rfl, hchanges⟩ (fun _ => .inl rfl) rfl fun _ h => h
  | revoking command d owner s₁ s₂ t =>
    obtain ⟨stored, hunused, rfl, hchanges⟩ := hsound
    simp only [PasswordThread.step] at hs
    split at hs
    · obtain ⟨rfl, rfl⟩ := Prod.mk.inj (Option.some.inj hs)
      exact .quiet rfl ⟨stored, hunused, rfl, hchanges⟩ (fun _ => .inl rfl) rfl fun _ h => h
    · obtain ⟨rfl, rfl⟩ := Prod.mk.inj (Option.some.inj hs)
      obtain ⟨howned, hsettled⟩ := commit_settles ht hunused hchanges _
      exact .committed rfl rfl howned hsettled
  | resetDone | resetFailed => simp [PasswordThread.step] at hs
  | _ => exact hsound.elim

theorem singleUse_stable : (singleUse g ι raw uid).Stable (passwordProgram g ι) Undisturbed := by
  refine ⟨?_, ?_, ?_⟩
  · intro c i σ th hA hC hs
    have howned : Owned g raw uid c.shared.db.tables := hA.1
    change Owned g raw uid σ.db.tables ∧ Sound raw uid σ.db.tables th
    cases step_effect hA.1 (hA.2.1 i) hs with
    | quiet same sound =>
      rw [same]
      exact ⟨howned, sound⟩
    | committed opened presents owned settled => exact ⟨owned, settled⟩
  · intro c i j σ th hA hC hs hij
    have hpair : Compatible (c.thread i) (c.thread j) := hA.2.2 i j hij
    have hother : Sound raw uid c.shared.db.tables (c.thread j) := hA.2.1 j
    have hkept : Sound raw uid σ.db.tables (c.thread j) ∧ Compatible th (c.thread j) := by
      cases step_effect hA.1 (hA.2.1 i) hs with
      | quiet same sound opens lost =>
        refine ⟨by rw [same]; exact hother, ?_, ?_⟩
        · intro hactive
          rcases opens hactive with hopen | hselects
          · exact hpair.lone hopen
          · exact hC hselects j (Ne.symm hij)
        · intro hwon
          rw [lost] at hwon
          cases hwon
      | committed opened presents owned settled =>
        have hidle := hpair.lone opened
        have howned : Owned g raw uid c.shared.db.tables := hA.1
        have hlost := Sound.lone howned.tables (hA.2.1 i) opened hother
        exact ⟨hother.idle hidle hlost, fun _ => hidle, fun _ => hlost⟩
    exact ⟨hkept.1, hkept.2, hkept.2.symm⟩
  · rintro c σ hA ⟨hdb, -⟩
    change Owned g raw uid σ.db.tables ∧ ∀ i, Sound raw uid σ.db.tables (c.thread i)
    rw [hdb]
    exact ⟨hA.1, hA.2.1⟩

omit [DecidableEq ι] in
theorem Launch.singleUse {c : Pool ι (Stores ι) (PasswordThread g)} (h : Launch raw uid c) :
    (singleUse g ι raw uid).Holds c := by
  have hstart : ∀ i, active (c.thread i) = false ∧ completed (c.thread i) = false := by
    intro i
    obtain ⟨command, d, heq, -⟩ := h.start i
    rw [heq]
    exact ⟨rfl, rfl⟩
  refine ⟨⟨h.tables, h.belongs⟩, ?_, fun i j _ => ⟨fun _ => (hstart j).1, fun _ => (hstart j).2⟩⟩
  intro i
  obtain ⟨command, d, heq, htoken⟩ := h.start i
  change Sound raw uid c.shared.db.tables (c.thread i)
  rw [heq]
  exact htoken

def Faithful (c d : Pool ι (Stores ι) (PasswordThread g)) : Prop :=
  ∀ i x, presented (d.thread i) = some x → presented (c.thread i) = some x

theorem Faithful.step {c d d' : Pool ι (Stores ι) (PasswordThread g)} {l : Turn ι}
    (hA : (singleUse g ι raw uid).Holds d) (h : Faithful c d)
    (hs : PoolStep (passwordProgram g ι) d l d') : Faithful c d' := by
  cases hs with
  | @run σ th i hs =>
    intro j x hx
    by_cases hj : j = i
    · subst hj
      simp only [Function.update_self] at hx
      cases step_effect hA.1 (hA.2.1 j) hs with
      | quiet _ _ _ _ presents => exact h j x (presents x hx)
      | committed _ presents =>
        cases hx
        exact h j _ presents
    · simp only [Function.update_of_ne hj] at hx
      exact h j x hx
  | env => exact h

/-- In every run without such a SELECT at most one request completes, and the user of the
token then has the password it supplied. -/
theorem reset_token_single_use {c d : Pool ι (Stores ι) (PasswordThread g)}
    {p : List (Pool ι (Stores ι) (PasswordThread g) × Turn ι)} (hc : Launch raw uid c)
    (h : Runs (resetPool g ι raw uid) c p d) (hp : Meets Undisturbed p) :
    ∀ v ∈ Visited p d, ∀ i command draws owner, v.thread i = .resetDone command draws owner →
      (∀ j, j ≠ i → completed (v.thread j) = false) ∧ c.thread i = .reset command draws ∧
        ∃ m ∈ v.shared.db.tables.users, m.id = uid ∧
          m.hashedPassword = g.hashpw command.newPassword draws.salt := by
  intro v hv i command draws owner hdone
  obtain ⟨⟨-, hsound, hpair⟩, hfaithful⟩ := h.visited_of_meets
    (fun d => (singleUse g ι raw uid).Holds d ∧ Faithful c d) Undisturbed
    (fun _ _ _ hI hx hs => ⟨singleUse_stable.step hI.1 hx hs, hI.2.step hI.1 hs⟩) hp
    ⟨hc.singleUse, fun _ _ hx => hx⟩ v hv
  have hsettled : Sound raw uid v.shared.db.tables (v.thread i) := hsound i
  rw [hdone] at hsettled
  refine ⟨?_, ?_, hsettled.hash⟩
  · intro j hj
    refine (hpair i j (Ne.symm hj)).winner ?_
    rw [hdone]
    rfl
  · obtain ⟨command', draws', heq, -⟩ := hc.start i
    have hpresents := hfaithful i (command, draws) (by rw [hdone]; rfl)
    rw [heq] at hpresents ⊢
    cases hpresents
    rfl

end Step

end Runs

section Sample
open SampleContainer

def aliceReset : PasswordResetTokenModel := ⟨tokenRow, alice, digestA, startTime + 3600000, false⟩

def aliceTables : Tables := ⟨[aliceRow], [aliceReset], []⟩

theorem aliceTables_wellFormed : aliceTables.WellFormed sample.unicode where
  userIds := initialWorld_wellFormed.userIds
  emails := initialWorld_wellFormed.emails
  addresses := initialWorld_wellFormed.addresses
  widths := initialWorld_wellFormed.widths
  tokenIds := by simp [Keyed, aliceTables]
  tokens := by simp [Keyed, aliceTables]
  tokenWidths r hr := by
    rw [List.mem_singleton.1 hr]
    decide +kernel
  owners r hr := by
    rw [List.mem_singleton.1 hr]
    exact ⟨aliceRow, by simp [aliceTables], rfl⟩

def resetCommand (newPassword : String) : ResetPasswordCommand := ⟨rawA.text, newPassword, none⟩

def resetTwice : Pool Bool (Stores Bool) (PasswordThread sample) where
  shared := ⟨⟨aliceTables, fun _ => none⟩, Redis.blank startTime⟩
  thread i :=
    if i then .reset (resetCommand longPassword) ⟨saltThree, jtiOne⟩
    else .reset (resetCommand "Passw0rd2") ⟨saltTwo, eventOne⟩

theorem resetTwice_launch : Launch rawA.text alice resetTwice where
  tables := aliceTables_wellFormed
  start i := by
    cases i with
    | false => exact ⟨_, _, rfl, rfl⟩
    | true => exact ⟨_, _, rfl, rfl⟩
  belongs r hr _ := by
    rw [List.mem_singleton.1 hr]
    rfl

def outcome (c : Pool Bool (Stores Bool) (PasswordThread sample)) : Bool × Bool × List String :=
  (completed (c.thread false), completed (c.thread true),
    c.shared.db.tables.users.map UserModel.hashedPassword)

theorem completed_some {th : PasswordThread sample} (h : completed th = true) :
    ∃ command d owner, th = .resetDone command d owner := by
  cases th <;> cases h
  exact ⟨_, _, _, rfl⟩

def inTurn : List (Move Bool (Stores Bool)) := List.replicate 7 (.run false) ++ [.run true]

theorem reset_token_single_use_inTurn :
    ∃ p d, Runs (resetPool sample Bool rawA.text alice) resetTwice p d ∧
      ∃ command draws owner, d.thread false = .resetDone command draws owner ∧
        (∀ j, j ≠ false → completed (d.thread j) = false) ∧
        resetTwice.thread false = .reset command draws ∧
        ∃ m ∈ d.shared.db.tables.users, m.id = alice ∧
          m.hashedPassword = sample.hashpw command.newPassword draws.salt := by
  have hend : (playMeeting Undisturbed (fun i σ t => t.step i σ) inTurn resetTwice).map outcome =
      some (true, false, [hashTwo]) := by
    decide +kernel
  obtain ⟨d, hd, hout⟩ := Option.map_eq_some_iff.1 hend
  obtain ⟨hfirst, -⟩ := Prod.mk.inj hout
  obtain ⟨command, draws, owner, hdone⟩ := completed_some hfirst
  obtain ⟨p, hp, hmeets⟩ : ∃ p, Runs (resetPool sample Bool rawA.text alice) resetTwice p d ∧
      Meets Undisturbed p :=
    playMeeting_runs (fun _ _ _ _ _ hs => hs) (by simp [inTurn]) hd
  exact ⟨p, d, hp, command, draws, owner, hdone, reset_token_single_use resetTwice_launch hp hmeets d
    (by simp [Visited]) false command draws owner hdone⟩

def bothRead : List (Move Bool (Stores Bool)) :=
  [.run false, .run true] ++ List.replicate 6 (.run false) ++ List.replicate 6 (.run true)

/-- Both requests complete, and the second one overwrites the password of the first. -/
theorem overlapping_resets_both_complete :
    ∃ p d, Launch rawA.text alice resetTwice ∧ Runs (resetPool sample Bool rawA.text alice)
      resetTwice p d ∧
      completed (d.thread false) = true ∧ completed (d.thread true) = true ∧
      d.shared.db.tables.users.map UserModel.hashedPassword = [hashThree] := by
  have hend : (play (fun i σ t => t.step i σ) bothRead resetTwice).map outcome =
      some (true, true, [hashThree]) := by
    decide +kernel
  obtain ⟨d, hd, hout⟩ := Option.map_eq_some_iff.1 hend
  obtain ⟨hfirst, hrest⟩ := Prod.mk.inj hout
  obtain ⟨hsecond, husers⟩ := Prod.mk.inj hrest
  obtain ⟨p, hp⟩ : ∃ p, Runs (resetPool sample Bool rawA.text alice) resetTwice p d :=
    play_runs (fun _ _ _ _ _ hs => hs) (by simp [bothRead]) hd
  exact ⟨p, d, resetTwice_launch, hp, hfirst, hsecond, husers⟩

end Sample

end AuthService.ResetThreads
