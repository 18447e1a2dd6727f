import AuthService.PasswordThreads
import AuthService.SampleContainer

set_option autoImplicit false

/-! Requests for a reset token of one user next to each other: the SELECT of the user, the
DELETE, which waits row by row for what it found, the INSERT, and the COMMIT. -/
namespace AuthService.ResetRequestThreads
open Uuids PythonText DomainModel KeyedRows AccountTables Transactions FallibleState Fallible
open ExpiringMaps RedisSessions RequestPorts CommandHandlers HandlerRuns LabelledRuns ThreadPools
open AccountEffects ReadCommitted SessionThreads PasswordThreads

/-- A request between two statements; `ids` are the rows that its DELETE has found. -/
inductive ResetRequest (g : GlobalContainer) where
  | request (command : RequestPasswordResetCommand) (d : RequestResetDraws)
  | found (command : RequestPasswordResetCommand) (d : RequestResetDraws) (user : User g.unicode)
  | deleting (command : RequestPasswordResetCommand) (d : RequestResetDraws) (user : User g.unicode)
      (ids waiting : List UUID)
  | inserted (command : RequestPasswordResetCommand) (d : RequestResetDraws) (user : User g.unicode)
      (token : PasswordResetToken) (s₁ s₂ : Statement)
  | issued (command : RequestPasswordResetCommand) (d : RequestResetDraws) (token : PasswordResetToken)
  | failed

namespace ResetRequest
variable {g : GlobalContainer}

def select (t : Tables) (command : RequestPasswordResetCommand) (d : RequestResetDraws) :
    ResetRequest g :=
  match Email.new g.unicode command.email with
  | .error _ => .failed
  | .ok email =>
    match t.findByEmail g.unicode email.value with
    | .error _ => .failed
    | .ok none => .failed
    | .ok (some user) => .found command d user

/-- The rows that a DELETE finds when it starts. -/
def snapshot (t : Tables) (userId : UUID) : List UUID :=
  (t.passwordResetTokens.filter (fun r => r.userId = userId)).map PasswordResetTokenModel.id

def requestEvent (d : RequestResetDraws) (user : UUID) (command : RequestPasswordResetCommand)
    (now : ℕ) :
    AuthEventModel :=
  AuditEventDTO.toModel ⟨d.eventId, .passwordResetRequested, now, some user, none,
    command.ipAddress, []⟩

section Step
variable {ι : Type} [DecidableEq ι]

/-- DELETE waits for the lock of a row; a row that is gone by then is passed over. -/
def lockRow (i : ι) (id : UUID) (db : Database ι) : Option (Database ι) :=
  db.update i (.resetToken id)
    (lookup PasswordResetTokenModel.id id db.tables.passwordResetTokens).isSome

def insert (i : ι) (db : Database ι) (now : ℕ) (command : RequestPasswordResetCommand)
    (d : RequestResetDraws) (user : User g.unicode) (ids : List UUID) : Database ι × ResetRequest g :=
  let token := requestedToken g d user.id now
  match Tables.saveResetToken token ((Statement.deleteResetTokens ids).apply db.tables) with
  | .error _ => (db.rollback i, .failed)
  | .ok s₂ => (db, .inserted command d user token (.deleteResetTokens ids) s₂)

def step (i : ι) (σ : Stores ι) : ResetRequest g → Option (Stores ι × ResetRequest g)
  | .request command d => some (σ, select σ.db.tables command d)
  | .found command d user =>
    some (σ, .deleting command d user (snapshot σ.db.tables user.id) (snapshot σ.db.tables user.id))
  | .deleting command d user ids (id :: waiting) =>
    (lockRow i id σ.db).map fun db => ({ σ with db := db }, .deleting command d user ids waiting)
  | .deleting command d user ids [] =>
    let x := insert i σ.db σ.redis.now command d user ids
    some ({ σ with db := x.1 }, x.2)
  | .inserted command d user token s₁ s₂ =>
    some ({ σ with
      db := σ.db.commit i [s₁, s₂, .insertEvent (requestEvent d user.id command σ.redis.now)] },
      .issued command d token)
  | .issued _ _ _ => none
  | .failed => none

end Step

def inFlight : ResetRequest g → Bool
  | .deleting _ _ _ _ _ => true
  | .inserted _ _ _ _ _ _ => true
  | _ => false

def drawnId : ResetRequest g → Option UUID
  | .request _ d => some d.tokenId
  | .found _ d _ => some d.tokenId
  | .deleting _ d _ _ _ => some d.tokenId
  | .inserted _ d _ _ _ _ => some d.tokenId
  | _ => none

end ResetRequest

open ResetRequest

/-- Any number of requests on one database, with time passing. -/
def resetRequestProgram (g : GlobalContainer) (ι : Type) [DecidableEq ι] :
    Program ι (Stores ι) (ResetRequest g) where
  step i σ t σ' t' := t.step i σ = some (σ', t')
  env σ σ' := σ'.db = σ.db ∧ passing σ.redis σ'.redis

def rowsOf (uid : UUID) (t : Tables) : List PasswordResetTokenModel :=
  t.passwordResetTokens.filter (fun r => r.userId = uid)

/-- All requests name the address of one user, who has at most one row; the drawn ids are new. -/
structure Launch {g : GlobalContainer} {ι : Type} (address : Email g.unicode) (uid : UUID)
    (c : Pool ι (Stores ι) (ResetRequest g)) : Prop where
  start : ∀ i, ∃ command d, c.thread i = .request command d ∧
    Email.new g.unicode command.email = .ok address
  named : ∀ m ∈ c.shared.db.tables.users, m.email = address.value → m.id = uid
  single : (rowsOf uid c.shared.db.tables).length ≤ 1
  fresh : ∀ i id, (c.thread i).drawnId = some id →
    ∀ r ∈ c.shared.db.tables.passwordResetTokens, r.id ≠ id
  distinct : ∀ i j, i ≠ j → ∀ id, (c.thread i).drawnId = some id → (c.thread j).drawnId ≠ some id

def resetRequestPool (g : GlobalContainer) (ι : Type) [DecidableEq ι] (address : Email g.unicode)
    (uid : UUID) : System (Pool ι (Stores ι) (ResetRequest g)) (Turn ι) :=
  (resetRequestProgram g ι).system (Launch address uid)

def issue {g : GlobalContainer} {ι : Type} (x : Pool ι (Stores ι) (ResetRequest g) × Turn ι) :
    Option PasswordResetTokenModel :=
  match x.2 with
  | .env => none
  | .run i =>
    match x.1.thread i with
    | .inserted _ _ _ token _ _ => some (toResetTokenModel token)
    | _ => none

/-- No COMMIT of a request while another one is between its DELETE and its COMMIT. -/
def Undisturbed {g : GlobalContainer} {ι : Type} (c : Pool ι (Stores ι) (ResetRequest g))
    (l : Turn ι) : Prop :=
  (issue (c, l)).isSome = true → ∀ j, l ≠ .run j → (c.thread j).inFlight = false

instance {g : GlobalContainer} {ι : Type} [DecidableEq ι] [Fintype ι]
    (c : Pool ι (Stores ι) (ResetRequest g)) (l : Turn ι) : Decidable (Undisturbed c l) :=
  inferInstanceAs
    (Decidable ((issue (c, l)).isSome = true → ∀ j, l ≠ .run j → (c.thread j).inFlight = false))

/-! ## A request on its own is the handler -/

section Solo
variable {g : GlobalContainer} {ι : Type} [DecidableEq ι] {w : World}

abbrev Solo (g : GlobalContainer) (i : ι) :
    Stores ι → ResetRequest g → Stores ι → ResetRequest g → Prop :=
  Alone (fun σ t => ResetRequest.step i σ t)

theorem solo_deleting (i : ι) (r : Redis) (command : RequestPasswordResetCommand)
    (d : RequestResetDraws)
    (user : User g.unicode) (ids : List UUID) :
    ∀ (waiting : List UUID) (db : Database ι), (∀ k, db.locks.Free i k) →
      ∃ db', db'.tables = db.tables ∧ Solo g i ⟨db, r⟩ (.deleting command d user ids waiting)
        ⟨db', r⟩ (.deleting command d user ids []) := by
  intro waiting
  induction waiting with
  | nil => exact fun db _ => ⟨db, rfl, .refl _ _⟩
  | cons id waiting ih =>
    intro db hfree
    obtain ⟨db₁, hlock, hlocks⟩ := update_free
      (lookup PasswordResetTokenModel.id id db.tables.passwordResetTokens).isSome
      (hfree (.resetToken id))
    have hfree₁ : ∀ k, db₁.locks.Free i k := by
      intro k
      rcases hlocks k with hk | hk
      · rw [Locks.Free, hk]
        exact hfree k
      · exact .inr hk
    obtain ⟨db₂, htables, hsolo⟩ := ih db₁ hfree₁
    refine ⟨db₂, htables.trans (update_tables hlock), .next ?_ hsolo⟩
    simp only [ResetRequest.step, lockRow, hlock, Option.map_some]

def RequestEnds (g : GlobalContainer) (i : ι) (σ₀ : Stores ι) (command : RequestPasswordResetCommand)
    (d : RequestResetDraws) (out : Except Exn Unit × World) : Prop :=
  ∃ σ t, Solo g i σ₀ (.request command d) σ t ∧ LeftAs out σ ∧
    ((t = .failed ∧ ∃ e, out.1 = .error e) ∨ ∃ token, t = .issued command d token ∧ out.1 = .ok ())

theorem select_unknown {t : Tables} {command : RequestPasswordResetCommand} {d : RequestResetDraws}
    (h : ∀ email user, Email.new g.unicode command.email = .ok email →
      t.findByEmail g.unicode email.value ≠ .ok (some user)) :
    ResetRequest.select t command d = (.failed : ResetRequest g) := by
  unfold ResetRequest.select
  cases he : Email.new g.unicode command.email with
  | error e => rfl
  | ok email =>
    simp only
    cases hf : t.findByEmail g.unicode email.value with
    | error e => rfl
    | ok found =>
      cases found with
      | none => rfl
      | some user => exact absurd hf (h email user he)

theorem solo_delete {i : ι} {t : Tables} {locks : Locks LockKey ι} {r : Redis}
    {command : RequestPasswordResetCommand} {d : RequestResetDraws} {email : Email g.unicode}
    {user : User g.unicode} (hfree : ∀ k, locks.Free i k)
    (he : Email.new g.unicode command.email = .ok email)
    (hf : t.findByEmail g.unicode email.value = .ok (some user)) :
    ∃ db, db.tables = t ∧ Solo g i ⟨⟨t, locks⟩, r⟩ (.request command d) ⟨db, r⟩
      (.deleting command d user (snapshot t user.id) []) := by
  have hselect : ResetRequest.select t command d = .found command d user := by
    unfold ResetRequest.select
    simp only [he, hf]
  obtain ⟨db, htables, hsolo⟩ :=
    solo_deleting i r command d user (snapshot t user.id) (snapshot t user.id) ⟨t, locks⟩ hfree
  exact ⟨db, htables, .next (by rw [ResetRequest.step, hselect]) (.next rfl hsolo)⟩

theorem requestPasswordReset_solo (i : ι) (hdb : w.db.Fresh) (locks : Locks LockKey ι)
    (hfree : ∀ k, locks.Free i k) (command : RequestPasswordResetCommand) (d : RequestResetDraws) :
    RequestEnds g i ⟨⟨w.db.committed, locks⟩, w.redis⟩ command d
      (requestPasswordReset g noFaults command d w) := by
  have hout := requestPasswordReset_outcome (g := g) (w := w) quiet_noFaults hdb.2 command d
  have hview : w.tables = w.db.committed := Session.view_fresh _ hdb
  generalize requestPasswordReset g noFaults command d w = out at hout ⊢
  cases hout with
  | refused unknown =>
    rw [hview] at unknown
    refine ⟨_, .failed, .next (by rw [ResetRequest.step, select_unknown unknown]) (.refl _ _),
      ⟨rfl, ?_⟩,
      .inl ⟨rfl, _, rfl⟩⟩
    rw [Session.commit_of_fresh _ hdb]
  | @rejected e email user address found clash =>
    rw [hview] at found clash
    obtain ⟨db, htables, hsolo⟩ := solo_delete (d := d) (r := w.redis) hfree address found
    have hclash : Tables.saveResetToken (requestedToken g d user.id w.redis.now)
        ((Statement.deleteResetTokens (snapshot w.db.committed user.id)).apply db.tables) =
          .error e := by
      rw [htables]
      exact clash
    refine ⟨⟨db.rollback i, w.redis⟩, .failed, Alone.trans hsolo (.next ?_ (.refl _ _)), ⟨rfl, htables⟩,
      .inl ⟨rfl, e, rfl⟩⟩
    simp only [ResetRequest.step, ResetRequest.insert, hclash]
  | @issued email user stmt address found saved =>
    rw [hview] at found saved ⊢
    obtain ⟨db, htables, hsolo⟩ := solo_delete (d := d) (r := w.redis) hfree address found
    have hsaved : Tables.saveResetToken (requestedToken g d user.id w.redis.now)
        ((Statement.deleteResetTokens (snapshot w.db.committed user.id)).apply db.tables) =
          .ok stmt := by
      rw [htables]
      exact saved
    have hinsert : ResetRequest.step i ⟨db, w.redis⟩
        (.deleting command d user (snapshot w.db.committed user.id) []) =
          some (⟨db, w.redis⟩, .inserted command d user (requestedToken g d user.id w.redis.now)
            (.deleteResetTokens (snapshot w.db.committed user.id)) stmt) := by
      simp only [ResetRequest.step, ResetRequest.insert, hsaved]
    have halive : (World.db { w with
        db := Session.flush [stmt] (w.db.flush [w.db.committed.deleteAllByUserId user.id])
        sentEmails := w.sentEmails ++ [(email.value, d.rawToken.text)] }).aborted = false := hdb.2
    rw [audited_of_success rfl halive]
    refine ⟨_, .issued command d (requestedToken g d user.id w.redis.now),
      Alone.trans hsolo (.next hinsert (.next rfl (.refl _ _))), ⟨rfl, ?_⟩, .inr ⟨_, rfl, rfl⟩⟩
    rw [Session.commit_committed _ _ (by exact hdb.2)]
    simp only [commit_tables, htables, Session.view_flush, Session.view_fresh _ hdb]
    rfl

end Solo

section Runs
variable {g : GlobalContainer} {address : Email g.unicode} {uid : UUID}

def Current (uid : UUID) (t : Tables) (ids : List UUID) : Prop :=
  ∀ r ∈ t.passwordResetTokens, r.userId = uid → r.id ∈ ids

theorem snapshot_current (uid : UUID) (t : Tables) : Current uid t (snapshot t uid) :=
  fun _ hr huser => List.mem_map_of_mem (List.mem_filter.2 ⟨hr, decide_eq_true huser⟩)

def Fresh (t : Tables) (d : RequestResetDraws) : Prop := ∀ r ∈ t.passwordResetTokens, r.id ≠ d.tokenId

structure Writes (uid : UUID) (t : Tables) (d : RequestResetDraws) (token : PasswordResetToken)
    (s₁ s₂ : Statement) : Prop where
  owner : token.userId = uid
  id : token.id = d.tokenId
  insert : s₂ = .insertResetToken (toResetTokenModel token)
  delete : ∃ ids, Current uid t ids ∧ s₁ = .deleteResetTokens ids

def Sound (address : Email g.unicode) (uid : UUID) (t : Tables) : ResetRequest g → Prop
  | .request command d => Email.new g.unicode command.email = .ok address ∧ Fresh t d
  | .found _ d user => user.id = uid ∧ Fresh t d
  | .deleting _ d user ids _ => user.id = uid ∧ Fresh t d ∧ Current uid t ids
  | .inserted _ d _ token s₁ s₂ => Fresh t d ∧ Writes uid t d token s₁ s₂
  | _ => True

def lastIssued (ι : Type) (address : Email g.unicode) (uid : UUID) :
    Assertion (Stores ι) (ResetRequest g) where
  shared σ := ∀ m ∈ σ.db.tables.users, m.email = address.value → m.id = uid
  thread σ t := Sound address uid σ.db.tables t
  pair s t := ∀ id, s.drawnId = some id → t.drawnId ≠ some id

theorem commit_rows {t : Tables} {d : RequestResetDraws} {token : PasswordResetToken}
    {s₁ s₂ : Statement} (h : Writes uid t d token s₁ s₂) (event : AuthEventModel) :
    rowsOf uid (replay Statement.apply [s₁, s₂, .insertEvent event] t) = [toResetTokenModel token] := by
  obtain ⟨howner, -, rfl, ids, hids, rfl⟩ := h
  have hgone : rowsOf uid ((Statement.deleteResetTokens ids).apply t) = [] := by
    refine List.filter_eq_nil_iff.2 ?_
    intro r hr huser
    obtain ⟨hmem, hleft⟩ := List.mem_filter.1 hr
    have hfound := hids r hmem (of_decide_eq_true huser)
    simp [hfound] at hleft
  calc
    _ = rowsOf uid ((Statement.deleteResetTokens ids).apply t) ++
          [toResetTokenModel token].filter (fun r => r.userId = uid) := List.filter_append _ _
    _ = [toResetTokenModel token] := by
      rw [hgone, List.nil_append]
      exact List.filter_cons_of_pos (decide_eq_true howner)

theorem commit_mem {t : Tables} {d : RequestResetDraws} {token : PasswordResetToken}
    {s₁ s₂ : Statement} (h : Writes uid t d token s₁ s₂) (event : AuthEventModel)
    {r : PasswordResetTokenModel}
    (hr : r ∈ (replay Statement.apply [s₁, s₂, .insertEvent event] t).passwordResetTokens) :
    r ∈ t.passwordResetTokens ∨ r = toResetTokenModel token := by
  obtain ⟨-, -, rfl, ids, -, rfl⟩ := h
  rcases List.mem_append.1 hr with hr | hr
  · exact .inl (List.mem_of_mem_filter hr)
  · exact .inr (List.mem_singleton.1 hr)

inductive StepEffect {ι : Type} (address : Email g.unicode) (uid : UUID) (σ σ' : Stores ι) :
    ResetRequest g → ResetRequest g → Prop where
  | quiet {th th' : ResetRequest g} (same : σ'.db.tables = σ.db.tables)
      (sound : Sound address uid σ.db.tables th')
      (ids : ∀ id, th'.drawnId = some id → th.drawnId = some id)
      (uncommitted : ∀ command d user token s₁ s₂, th ≠ .inserted command d user token s₁ s₂) :
      StepEffect address uid σ σ' th th'
  | committed {command : RequestPasswordResetCommand} {d : RequestResetDraws} {user : User g.unicode}
      {token : PasswordResetToken} {s₁ s₂ : Statement} (id : token.id = d.tokenId)
      (users : σ'.db.tables.users = σ.db.tables.users)
      (rows : rowsOf uid σ'.db.tables = [toResetTokenModel token])
      (mem : ∀ r ∈ σ'.db.tables.passwordResetTokens,
        r ∈ σ.db.tables.passwordResetTokens ∨ r = toResetTokenModel token) :
      StepEffect address uid σ σ' (.inserted command d user token s₁ s₂) (.issued command d token)

section Step
variable {ι : Type} [DecidableEq ι]

theorem insert_cases (i : ι) (db : Database ι) (now : ℕ) (command : RequestPasswordResetCommand)
    {d : RequestResetDraws} {user : User g.unicode} {ids : List UUID} (huser : user.id = uid)
    (hfresh : Fresh db.tables d) (hids : Current uid db.tables ids) :
    (ResetRequest.insert i db now command d user ids).1.tables = db.tables ∧
      ((ResetRequest.insert i db now command d user ids).2 = .failed ∨
        ∃ token s₁ s₂, Writes uid db.tables d token s₁ s₂ ∧
          (ResetRequest.insert i db now command d user ids).2 =
            .inserted command d user token s₁ s₂) := by
  unfold ResetRequest.insert
  simp only
  split
  · exact ⟨rfl, .inl rfl⟩
  · rename_i s₂ hs
    have hinsert := saveResetToken_fresh (fun r hr => hfresh r (List.mem_of_mem_filter hr)) hs
    exact ⟨rfl, .inr ⟨_, _, _, ⟨huser, rfl, hinsert, ids, hids, rfl⟩, rfl⟩⟩

theorem step_effect {σ σ' : Stores ι}
    (hnamed : ∀ m ∈ σ.db.tables.users, m.email = address.value → m.id = uid) {i : ι}
    {th th' : ResetRequest g} (hsound : Sound address uid σ.db.tables th)
    (hs : th.step i σ = some (σ', th')) : StepEffect address uid σ σ' th th' := by
  cases th with
  | request command d =>
    obtain ⟨haddress, hfresh⟩ := hsound
    obtain ⟨rfl, rfl⟩ := Prod.mk.inj (Option.some.inj hs)
    unfold ResetRequest.select
    simp only [haddress]
    cases hfound : σ.db.tables.findByEmail g.unicode address.value with
    | error e => exact .quiet rfl trivial (by simp [drawnId]) (by simp)
    | ok found =>
      cases found with
      | none => exact .quiet rfl trivial (by simp [drawnId]) (by simp)
      | some user =>
        obtain ⟨m, hl, hd⟩ := findByEmail_stored hfound
        obtain ⟨hm, hemail⟩ := lookup_some hl
        have huser : user.id = uid := (toDomain_ok hd).1.trans (hnamed m hm hemail)
        exact .quiet rfl ⟨huser, hfresh⟩ (fun _ h => h) (by simp)
  | found command d user =>
    obtain ⟨huser, hfresh⟩ := hsound
    obtain ⟨rfl, rfl⟩ := Prod.mk.inj (Option.some.inj hs)
    refine .quiet rfl ⟨huser, hfresh, ?_⟩ (fun _ h => h) (by simp)
    rw [huser]
    exact snapshot_current uid _
  | deleting command d user ids waiting =>
    obtain ⟨huser, hfresh, hids⟩ := hsound
    cases waiting with
    | nil =>
      obtain ⟨rfl, rfl⟩ := Prod.mk.inj (Option.some.inj hs)
      obtain ⟨htables, heq | ⟨token, s₁, s₂, hwrites, heq⟩⟩ :=
        insert_cases i σ.db σ.redis.now command huser hfresh hids
      · rw [heq]
        exact .quiet htables trivial (by simp [drawnId]) (by simp)
      · rw [heq]
        exact .quiet htables ⟨hfresh, hwrites⟩ (fun _ h => h) (by simp)
    | cons id waiting =>
      obtain ⟨db, hlock, hout⟩ := Option.map_eq_some_iff.1 hs
      obtain ⟨rfl, rfl⟩ := Prod.mk.inj hout
      exact .quiet (update_tables hlock) ⟨huser, hfresh, hids⟩ (fun _ h => h) (by simp)
  | inserted command d user token s₁ s₂ =>
    obtain ⟨hfresh, hwrites⟩ := hsound
    obtain ⟨rfl, rfl⟩ := Prod.mk.inj (Option.some.inj hs)
    refine .committed hwrites.id ?_ (commit_rows hwrites _) (fun r hr => commit_mem hwrites _ hr)
    obtain ⟨-, -, rfl, ids, -, rfl⟩ := hwrites
    rfl
  | issued | failed => cases hs

theorem Sound.grow {t t' : Tables} {token : PasswordResetToken} {th : ResetRequest g}
    (hmem : ∀ r ∈ t'.passwordResetTokens, r ∈ t.passwordResetTokens ∨ r = toResetTokenModel token)
    (h : Sound address uid t th) (hidle : th.inFlight = false) (hid : th.drawnId ≠ some token.id) :
    Sound address uid t' th := by
  have hfresh : ∀ d : RequestResetDraws, token.id ≠ d.tokenId → Fresh t d → Fresh t' d := by
    intro d hne hold r hr
    rcases hmem r hr with hr | rfl
    · exact hold r hr
    · exact hne
  cases th with
  | request command d =>
    exact ⟨h.1, hfresh d (fun heq => hid (congrArg some heq.symm)) h.2⟩
  | found command d user =>
    exact ⟨h.1, hfresh d (fun heq => hid (congrArg some heq.symm)) h.2⟩
  | deleting | inserted => cases hidle
  | issued | failed => trivial

theorem lastIssued_stable :
    (lastIssued ι address uid).Stable (resetRequestProgram g ι) Undisturbed := by
  refine ⟨?_, ?_, ?_⟩
  · intro c i σ th hA hC hs
    have hnamed : ∀ m ∈ c.shared.db.tables.users, m.email = address.value → m.id = uid := hA.1
    have heffect := step_effect hnamed (hA.2.1 i) hs
    change (∀ m ∈ σ.db.tables.users, m.email = address.value → m.id = uid) ∧
      Sound address uid σ.db.tables th
    generalize c.thread i = th₀ at heffect
    cases heffect with
    | quiet same sound =>
      rw [same]
      exact ⟨hnamed, sound⟩
    | committed id users =>
      rw [users]
      exact ⟨hnamed, trivial⟩
  · intro c i j σ th hA hC hs hij
    have hother : Sound address uid c.shared.db.tables (c.thread j) := hA.2.1 j
    have hpair : ∀ id, (c.thread i).drawnId = some id → (c.thread j).drawnId ≠ some id := hA.2.2 i j hij
    have heffect := step_effect hA.1 (hA.2.1 i) hs
    have hkept : Sound address uid σ.db.tables (c.thread j) ∧
        ∀ id, th.drawnId = some id → (c.thread j).drawnId ≠ some id := by
      generalize hth : c.thread i = th₀ at heffect hpair
      cases heffect with
      | quiet same sound ids =>
        rw [same]
        exact ⟨hother, fun id hid => hpair id (ids id hid)⟩
      | committed id users rows mem =>
        have hidle := hC (by simp [issue, hth]) j (by simpa using hij)
        refine ⟨hother.grow mem hidle ?_, by simp [drawnId]⟩
        rw [id]
        exact hpair _ rfl
    exact ⟨hkept.1, hkept.2, fun id hj hi => hkept.2 id hi hj⟩
  · rintro c σ hA ⟨hdb, -⟩
    change (∀ m ∈ σ.db.tables.users, m.email = address.value → m.id = uid) ∧
      ∀ i, Sound address uid σ.db.tables (c.thread i)
    rw [hdb]
    exact ⟨hA.1, hA.2.1⟩

omit [DecidableEq ι] in
theorem Launch.lastIssued {c : Pool ι (Stores ι) (ResetRequest g)} (h : Launch address uid c) :
    (lastIssued ι address uid).Holds c := by
  refine ⟨h.named, ?_, h.distinct⟩
  intro i
  obtain ⟨command, d, heq, haddress⟩ := h.start i
  have hfresh := h.fresh i
  change Sound address uid c.shared.db.tables (c.thread i)
  rw [heq] at hfresh ⊢
  exact ⟨haddress, hfresh _ rfl⟩

/-- The rows along a run: the newest of the issued ones has replaced all others. -/
structure Newest (uid : UUID) (c : Pool ι (Stores ι) (ResetRequest g))
    (p : List (Pool ι (Stores ι) (ResetRequest g) × Turn ι)) (d : Pool ι (Stores ι) (ResetRequest g)) :
    Prop where
  rows : rowsOf uid d.shared.db.tables =
    match p.filterMap issue with
    | [] => rowsOf uid c.shared.db.tables
    | row :: _ => [row]
  ids : Keyed PasswordResetTokenModel.id (p.filterMap issue)
  spent : ∀ row ∈ p.filterMap issue, ∀ i, (d.thread i).drawnId ≠ some row.id

omit [DecidableEq ι] in
theorem Newest.silent {c d d' : Pool ι (Stores ι) (ResetRequest g)}
    {p : List (Pool ι (Stores ι) (ResetRequest g) × Turn ι)} {l : Turn ι} (h : Newest uid c p d)
    (hnone : issue (d, l) = none) (same : d'.shared.db.tables = d.shared.db.tables)
    (ids : ∀ i id, (d'.thread i).drawnId = some id → (d.thread i).drawnId = some id) :
    Newest uid c ((d, l) :: p) d' := by
  refine ⟨?_, ?_, ?_⟩
  · rw [List.filterMap_cons_none hnone, same]
    exact h.rows
  · rw [List.filterMap_cons_none hnone]
    exact h.ids
  · rw [List.filterMap_cons_none hnone]
    exact fun row hrow i hid => h.spent row hrow i (ids i _ hid)

omit [DecidableEq ι] in
theorem Newest.issued {c d d' : Pool ι (Stores ι) (ResetRequest g)}
    {p : List (Pool ι (Stores ι) (ResetRequest g) × Turn ι)} {l : Turn ι} (h : Newest uid c p d)
    {row : PasswordResetTokenModel} (hsome : issue (d, l) = some row)
    (rows : rowsOf uid d'.shared.db.tables = [row]) {i : ι}
    (hdrawn : (d.thread i).drawnId = some row.id)
    (spent : ∀ j, (d'.thread j).drawnId ≠ some row.id)
    (ids : ∀ j id, (d'.thread j).drawnId = some id → (d.thread j).drawnId = some id) :
    Newest uid c ((d, l) :: p) d' := by
  refine ⟨?_, ?_, ?_⟩
  · rw [List.filterMap_cons_some hsome]
    exact rows
  · rw [List.filterMap_cons_some hsome]
    refine List.nodup_cons.2 ⟨?_, h.ids⟩
    intro hmem
    obtain ⟨old, hold, hid⟩ := List.mem_map.1 hmem
    exact h.spent old hold i (by rw [hdrawn, hid])
  · rw [List.filterMap_cons_some hsome]
    intro old hold j hid
    rcases List.mem_cons.1 hold with rfl | hold
    · exact spent j hid
    · exact h.spent old hold j (ids j _ hid)

theorem Newest.step {c d d' : Pool ι (Stores ι) (ResetRequest g)}
    {p : List (Pool ι (Stores ι) (ResetRequest g) × Turn ι)} {l : Turn ι}
    (hA : (lastIssued ι address uid).Holds d) (h : Newest uid c p d)
    (hs : PoolStep (resetRequestProgram g ι) d l d') : Newest uid c ((d, l) :: p) d' := by
  cases hs with
  | @run σ th i hs =>
    have heffect := step_effect hA.1 (hA.2.1 i) hs
    have hpair : ∀ j, i ≠ j → ∀ id, (d.thread i).drawnId = some id → (d.thread j).drawnId ≠ some id :=
      fun j hij => hA.2.2 i j hij
    have hids : (∀ id, th.drawnId = some id → (d.thread i).drawnId = some id) →
        ∀ j id, (Function.update d.thread i th j).drawnId = some id → (d.thread j).drawnId =
          some id := by
      intro hown j id hid
      by_cases hj : j = i
      · subst hj
        exact hown id (by simpa using hid)
      · simpa [Function.update_of_ne hj] using hid
    generalize hth : d.thread i = th₀ at heffect hids
    cases heffect with
    | quiet same sound ids uncommitted =>
      refine h.silent ?_ same (hids ids)
      cases th₀ with
      | inserted command draws user token s₁ s₂ => exact absurd rfl (uncommitted _ _ _ _ _ _)
      | _ => simp only [issue, hth]
    | @committed command draws user token s₁ s₂ id users rows =>
      have hdrawn : (d.thread i).drawnId = some (toResetTokenModel token).id := by
        rw [hth]
        exact congrArg some id.symm
      refine h.issued (by simp only [issue, hth]) rows hdrawn ?_ (hids (by simp [drawnId]))
      intro j hid
      by_cases hj : j = i
      · subst hj
        simp [drawnId] at hid
      · simp only [Function.update_of_ne hj] at hid
        exact hpair j (Ne.symm hj) _ hdrawn hid
  | @env σ hs => exact h.silent rfl (by rw [hs.1]) fun _ _ hid => hid

/-- In every run without such a COMMIT the user has at most one row, and each issue leaves none
of the rows that were issued before. -/
theorem one_active_token {c d : Pool ι (Stores ι) (ResetRequest g)}
    {p : List (Pool ι (Stores ι) (ResetRequest g) × Turn ι)} (hc : Launch address uid c)
    (h : Runs (resetRequestPool g ι address uid) c p d) (hp : Meets Undisturbed p) :
    (rowsOf uid d.shared.db.tables).length ≤ 1 ∧
      ∀ row older, p.filterMap issue = row :: older → rowsOf uid d.shared.db.tables = [row] ∧
        ∀ old ∈ older, old ∉ rowsOf uid d.shared.db.tables := by
  have hnewest : Newest uid c p d := by
    induction h with
    | refl => exact ⟨rfl, List.nodup_nil, by simp⟩
    | @next t u p l front hs ih =>
      obtain ⟨-, hfront⟩ := meets_cons.1 hp
      have hA := lastIssued_stable.visited front hfront hc.lastIssued t (by simp [Visited])
      exact (ih hfront).step hA hs
  obtain ⟨hrows, hids, -⟩ := hnewest
  refine ⟨?_, ?_⟩
  · rw [hrows]
    split
    · exact hc.single
    · exact le_refl _
  · intro row older hissued
    rw [hissued] at hrows hids
    refine ⟨hrows, ?_⟩
    intro old hold hmem
    rw [hrows, List.mem_singleton] at hmem
    exact (List.nodup_cons.1 hids).1 (List.mem_map.2 ⟨old, hold, by rw [hmem]⟩)

end Step

end Runs

section Sample
open SampleContainer

def requestCommand : RequestPasswordResetCommand := ⟨"alice@example.com", none⟩

def requestTwice : Pool Bool (Stores Bool) (ResetRequest sample) where
  shared := ⟨⟨initialWorld.db.committed, fun _ => none⟩, Redis.blank startTime⟩
  thread i :=
    if i then .request requestCommand ⟨rawB, nextRow, jtiOne⟩
    else .request requestCommand ⟨rawA, tokenRow, eventOne⟩

theorem requestTwice_launch : Launch aliceEmail alice requestTwice where
  start i := by
    cases i with
    | false => exact ⟨_, _, rfl, Email.new_value aliceEmail⟩
    | true => exact ⟨_, _, rfl, Email.new_value aliceEmail⟩
  named m hm _ := by
    rw [List.mem_singleton.1 hm]
    rfl
  single := Nat.zero_le _
  fresh _ _ _ r hr := absurd hr List.not_mem_nil
  distinct i j hij id hi hj := by
    have hne : tokenRow ≠ nextRow := by decide
    cases i <;> cases j <;> simp [requestTwice, drawnId] at hij hi hj
    · exact hne (hi.trans hj.symm)
    · exact hne (hj.trans hi.symm)

def outcome (c : Pool Bool (Stores Bool) (ResetRequest sample)) : Bool × Bool × List UUID :=
  ((c.thread false).drawnId.isNone, (c.thread true).drawnId.isNone,
    (rowsOf alice c.shared.db.tables).map PasswordResetTokenModel.id)

def inTurn : List (Move Bool (Stores Bool)) :=
  List.replicate 4 (.run false) ++ List.replicate 5 (.run true)

theorem one_active_token_inTurn :
    ∃ p d, Runs (resetRequestPool sample Bool aliceEmail alice) requestTwice p d ∧
      outcome d = (true, true, [nextRow]) ∧ (rowsOf alice d.shared.db.tables).length ≤ 1 ∧
      ∀ row older, p.filterMap issue = row :: older → rowsOf alice d.shared.db.tables = [row] ∧
        ∀ old ∈ older, old ∉ rowsOf alice d.shared.db.tables := by
  have hend : (playMeeting Undisturbed (fun i σ t => t.step i σ) inTurn requestTwice).map outcome =
      some (true, true, [nextRow]) := by
    decide +kernel
  obtain ⟨d, hd, hout⟩ := Option.map_eq_some_iff.1 hend
  obtain ⟨p, hp, hmeets⟩ : ∃ p, Runs (resetRequestPool sample Bool aliceEmail alice) requestTwice p d ∧
      Meets Undisturbed p :=
    playMeeting_runs (fun _ _ _ _ _ hs => hs) (by simp [inTurn]) hd
  exact ⟨p, d, hp, hout, one_active_token requestTwice_launch hp hmeets⟩

def bothDelete : List (Move Bool (Stores Bool)) :=
  List.replicate 2 (.run false) ++ List.replicate 2 (.run true) ++ List.replicate 2 (.run false) ++
    List.replicate 2 (.run true)

/-- Both requests are over and both rows are in the table. -/
theorem overlapping_requests_leave_two_rows :
    ∃ p d, Launch aliceEmail alice requestTwice ∧
      Runs (resetRequestPool sample Bool aliceEmail alice) requestTwice p d ∧
      (∀ i, (d.thread i).inFlight = false) ∧
      (rowsOf alice d.shared.db.tables).map PasswordResetTokenModel.id = [tokenRow, nextRow] := by
  have hend : (play (fun i σ t => t.step i σ) bothDelete requestTwice).map outcome =
      some (true, true, [tokenRow, nextRow]) := by
    decide +kernel
  obtain ⟨d, hd, hout⟩ := Option.map_eq_some_iff.1 hend
  obtain ⟨hfirst, hrest⟩ := Prod.mk.inj hout
  obtain ⟨hsecond, hrows⟩ := Prod.mk.inj hrest
  obtain ⟨p, hp⟩ : ∃ p, Runs (resetRequestPool sample Bool aliceEmail alice) requestTwice p d :=
    play_runs (fun _ _ _ _ _ hs => hs) (by simp [bothDelete]) hd
  have idle : ∀ th : ResetRequest sample, th.drawnId.isNone = true → th.inFlight = false := by
    intro th h
    cases th <;> first | rfl | cases h
  refine ⟨p, d, requestTwice_launch, hp, ?_, hrows⟩
  intro i
  cases i with
  | false => exact idle _ hfirst
  | true => exact idle _ hsecond

end Sample

end AuthService.ResetRequestThreads
