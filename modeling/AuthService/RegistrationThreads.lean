import AuthService.AccountEffects
import AuthService.ReadCommitted
import AuthService.SampleContainer
import AuthService.ServiceRuns

set_option autoImplicit false

/-! Registrations of one address next to each other: the lookup, the INSERT under the
unique index, and the COMMIT at the end of the request. -/
namespace AuthService.RegistrationThreads
open Uuids PythonText DomainModel KeyedRows AccountTables Transactions FallibleState Fallible
open LabelledRuns ThreadPools RequestPorts CommandHandlers GraphqlResolvers HandlerRuns
open AccountEffects ServiceRuns ReadCommitted

/-- A `register` request between two statements; `createdAt` is the clock it will read. -/
inductive RegisterThread (g : GlobalContainer) where
  | request (command : RegisterUserCommand) (d : RegisterDraws) (createdAt : ℕ)
  | saving (command : RegisterUserCommand) (user : User g.unicode)
  | saved (command : RegisterUserCommand) (stmt : Statement)
  | answered (command : RegisterUserCommand) (answer : Answer)

def registerReply (e : Exn) : Answer :=
  match e with
  | .invalidEmailError m => .operationResult false m
  | .weakPasswordError m => .operationResult false m
  | .userAlreadyExistsError _ => .operationResult false "Registration could not be completed"
  | e => .errors e

theorem registerReply_eq (e : Exn) (w : World) : reported (registerExcept e w).1 = registerReply e := by
  cases e <;> rfl

def success : Answer := .operationResult true "User registered successfully"

def generic : Answer := .operationResult false "Registration could not be completed"

namespace RegisterThread
variable {g : GlobalContainer}

def command : RegisterThread g → RegisterUserCommand
  | .request command _ _ => command
  | .saving command _ => command
  | .saved command _ => command
  | .answered command _ => command

def select (t : Tables) (command : RegisterUserCommand) (d : RegisterDraws) (createdAt : ℕ) :
    RegisterThread g :=
  match Email.new g.unicode command.email with
  | .error e => .answered command (registerReply e)
  | .ok email =>
    match PlainPassword.new g.unicode command.password with
    | .error e => .answered command (registerReply e)
    | .ok _ =>
      match t.findByEmail g.unicode email.value with
      | .error e => .answered command (registerReply e)
      | .ok (some _) =>
        .answered command
          (registerReply (.userAlreadyExistsError "An account with this email already exists"))
      | .ok none =>
        .saving command ⟨d.userId, email, g.hashpw command.password d.salt, true, createdAt⟩

section Step
variable {ι : Type} [DecidableEq ι]

/-- INSERT waits for the transaction that has put the same address into the index. -/
def insert (i : ι) (db : Database ι) (command : RegisterUserCommand) (user : User g.unicode) :
    Option (Database ι × RegisterThread g) :=
  if db.locks.Free i (.email user.email.value) then
    match db.tables.saveUser user with
    | .error e => some (db, .answered command (registerReply e))
    | .ok stmt => some (db.lock i (.email user.email.value), .saved command stmt)
  else none

def step (i : ι) (db : Database ι) : RegisterThread g → Option (Database ι × RegisterThread g)
  | .request command d createdAt => some (db, select db.tables command d createdAt)
  | .saving command user => insert i db command user
  | .saved command stmt => some (db.commit i [stmt], .answered command success)
  | .answered _ _ => none

end Step

/-- The lookup has found nothing and the transaction is still open. -/
def active : RegisterThread g → Bool
  | .saving _ _ => true
  | .saved _ _ => true
  | _ => false

def drawnId : RegisterThread g → Option UUID
  | .request _ d _ => some d.userId
  | .saving _ user => some user.id
  | .saved _ (.insertUser row) => some row.id
  | _ => none

def succeeded : RegisterThread g → Bool
  | .answered _ a => decide (a = success)
  | _ => false

end RegisterThread

/-- Any number of registrations on one database. -/
def registerProgram (g : GlobalContainer) (ι : Type) [DecidableEq ι] :
    Program ι (Database ι) (RegisterThread g) where
  step i db t db' t' := t.step i db = some (db', t')
  env db db' := db' = db

/-- All requests name one address that nobody has registered, and the drawn ids are new. -/
structure Launch {g : GlobalContainer} {ι : Type} (address : Email g.unicode)
    (c : Pool ι (Database ι) (RegisterThread g)) : Prop where
  tables : c.shared.tables.WellFormed g.unicode
  unlocked : ∀ k, c.shared.locks k = none
  start : ∀ i, ∃ command d createdAt, c.thread i = .request command d createdAt ∧
    Email.new g.unicode command.email = .ok address
  vacant : ∀ m ∈ c.shared.tables.users, m.email ≠ address.value
  fresh : ∀ i id, (c.thread i).drawnId = some id → ∀ m ∈ c.shared.tables.users, m.id ≠ id
  distinct : ∀ i j, i ≠ j → ∀ id, (c.thread i).drawnId = some id → (c.thread j).drawnId ≠ some id

def registerPool (g : GlobalContainer) (ι : Type) [DecidableEq ι] (address : Email g.unicode) :
    System (Pool ι (Database ι) (RegisterThread g)) (Turn ι) :=
  (registerProgram g ι).system (Launch address)

def Valid (g : GlobalContainer) (command : RegisterUserCommand) : Prop :=
  (PlainPassword.new g.unicode command.password).isOk = true

instance (g : GlobalContainer) (command : RegisterUserCommand) : Decidable (Valid g command) :=
  inferInstanceAs (Decidable (_ = true))

def RegisterThread.selects {g : GlobalContainer} : RegisterThread g → Bool
  | .request command _ _ => decide (Valid g command)
  | _ => false

/-- No SELECT while another registration is between its empty SELECT and its COMMIT. -/
def Undisturbed {g : GlobalContainer} {ι : Type} (c : Pool ι (Database ι) (RegisterThread g)) :
    Turn ι → Prop
  | .env => True
  | .run i => (c.thread i).selects = true → ∀ j, j ≠ i → (c.thread j).active = false

instance {g : GlobalContainer} {ι : Type} [DecidableEq ι] [Fintype ι]
    (c : Pool ι (Database ι) (RegisterThread g)) (l : Turn ι) : Decidable (Undisturbed c l) :=
  match l with
  | .env => inferInstanceAs (Decidable True)
  | .run i => inferInstanceAs
      (Decidable ((c.thread i).selects = true → ∀ j, j ≠ i → (c.thread j).active = false))

def Taken (value : String) (t : Tables) : Prop := ∃ m ∈ t.users, m.email = value

theorem registerReply_ne_success (e : Exn) : registerReply e ≠ success := by
  cases e <;> simp [registerReply, success]

theorem generic_ne_success : generic ≠ success := by simp [generic, success]

structure Opened {g : GlobalContainer} (address : Email g.unicode) (t : Tables)
    (command : RegisterUserCommand) (user : User g.unicode) : Prop where
  named : user.email = address
  valid : Valid g command
  hash : user.hashedPassword.length ≤ columnWidth
  fresh : ∀ m ∈ t.users, m.id ≠ user.id
  vacant : ¬ Taken address.value t

section Steps
variable {g : GlobalContainer} {address : Email g.unicode} {t : Tables}

theorem select_cases (ht : t.WellFormed g.unicode) {command : RegisterUserCommand}
    (hnamed : Email.new g.unicode command.email = .ok address) (d : RegisterDraws) (createdAt : ℕ)
    (hfresh : ∀ m ∈ t.users, m.id ≠ d.userId) :
    (¬ Valid g command ∧ ∃ a, a ≠ success ∧
      RegisterThread.select t command d createdAt = (.answered command a : RegisterThread g)) ∨
    (Valid g command ∧ Taken address.value t ∧
      RegisterThread.select t command d createdAt = (.answered command generic : RegisterThread g)) ∨
    ∃ user, Opened address t command user ∧ user.id = d.userId ∧
      RegisterThread.select t command d createdAt = .saving command user := by
  unfold RegisterThread.select
  simp only [hnamed]
  cases hp : PlainPassword.new g.unicode command.password with
  | error e =>
    refine .inl ⟨?_, registerReply e, registerReply_ne_success e, rfl⟩
    simp [Valid, hp, Except.isOk, Except.toBool]
  | ok p =>
    have hvalid : Valid g command := by
      simp [Valid, hp, Except.isOk, Except.toBool]
    by_cases htaken : Taken address.value t
    · obtain ⟨m, hm, hemail⟩ := htaken
      obtain ⟨user, hfind, -⟩ := WellFormed.findByEmail ht hm
      rw [hemail] at hfind
      refine .inr (.inl ⟨hvalid, ⟨m, hm, hemail⟩, ?_⟩)
      simp only [hfind]
      rfl
    · have hnone : t.findByEmail g.unicode address.value = .ok none := by
        have hl : lookup UserModel.email address.value t.users = none :=
          lookup_none.2 fun m hm he => htaken ⟨m, hm, he⟩
        rw [Tables.findByEmail, hl]
      refine .inr (.inr ⟨⟨d.userId, address, g.hashpw command.password d.salt, true, createdAt⟩,
        ⟨rfl, hvalid, ?_, hfresh, htaken⟩, rfl, ?_⟩)
      · rw [g.hashpw_length]
        decide
      · simp only [hnone]

theorem insert_opened {ι : Type} [DecidableEq ι] {i : ι} {db db' : Database ι}
    (hfits : address.value.length ≤ columnWidth) {command : RegisterUserCommand}
    {user : User g.unicode} (h : Opened address db.tables command user) {t' : RegisterThread g}
    (hs : RegisterThread.insert i db command user = some (db', t')) :
    db'.tables = db.tables ∧ t' = .saved command (.insertUser (toUserModel user)) := by
  have hemail : ∀ m ∈ db.tables.users, m.email ≠ user.email.value := by
    intro m hm he
    exact h.vacant ⟨m, hm, by rw [he, h.named]⟩
  have hsave := saveUser_insert (by rw [h.named]; exact hfits) h.hash h.fresh hemail
  unfold RegisterThread.insert at hs
  simp only [hsave] at hs
  split_ifs at hs
  simp only [Option.some.injEq, Prod.mk.injEq] at hs
  obtain ⟨rfl, rfl⟩ := hs
  exact ⟨rfl, rfl⟩

end Steps

/-! ## A registration on its own -/

section Solo
variable {g : GlobalContainer} {w w' : World}

theorem register_refused {email password : String} {d : RegisterDraws} {e : Exn}
    (h : registerUser g noFaults ⟨email, password⟩ d w = (.error e, w')) :
    reported (register g noFaults email password d w).1 = registerReply e := by
  have hm : (registerUser g noFaults ⟨email, password⟩ d >>= fun _ =>
      pure (.operationResult true "User registered successfully") : AuthM Answer) w =
        (.error e, w') := bind_error h
  have hrun : register g noFaults email password d w = registerExcept e w' := handle_error hm
  rw [hrun, registerReply_eq]

def outcomeReply : Except Exn Unit → Answer
  | .ok _ => success
  | .error e => registerReply e

/-- The answer to a registration and the rows it leaves, from what the handler does. -/
theorem register_served (email password : String) (d : RegisterDraws) :
    ∃ out, registerUser g noFaults ⟨email, password⟩ d { w with commands := 0 } = out ∧
      answer g noFaults (.register email password d) w = outcomeReply out.1 ∧
      (after g noFaults (.register email password d) w).db.committed =
        (out.2.db.commit Statement.apply).committed := by
  obtain ⟨hafter, hok, -⟩ := serve_register g noFaults w email password d
  have herr := @register_refused g { w with commands := 0 }
    (registerUser g noFaults ⟨email, password⟩ d { w with commands := 0 }).2 email password d
  generalize hout : registerUser g noFaults ⟨email, password⟩ d { w with commands := 0 } = out
    at hafter hok herr
  refine ⟨out, rfl, ?_, by rw [hafter]⟩
  obtain ⟨x, w'⟩ := out
  cases x with
  | ok a => exact hok a rfl
  | error e =>
    rw [answer_eq]
    exact herr rfl

theorem solo_select {ι : Type} [DecidableEq ι] (i : ι) {db : Database ι} {command : RegisterUserCommand}
    {d : RegisterDraws} {n : ℕ} {e : Exn}
    (h : RegisterThread.select db.tables command d n =
      (.answered command (registerReply e) : RegisterThread g)) :
    Alone (@RegisterThread.step g ι _ i) db (.request command d n) db
      (.answered command (outcomeReply (.error e))) :=
  .next (by rw [RegisterThread.step, h]; rfl) (.refl _ _)

theorem solo_insert {ι : Type} [DecidableEq ι] (i : ι) {db : Database ι} {command : RegisterUserCommand}
    {d : RegisterDraws} {n : ℕ} {user : User g.unicode} {stmt : Statement}
    (h : RegisterThread.select db.tables command d n = .saving command user)
    (hfree : db.locks.Free i (.email user.email.value)) (hs : db.tables.saveUser user = .ok stmt) :
    Alone (@RegisterThread.step g ι _ i) db (.request command d n)
      ((db.lock i (.email user.email.value)).commit i [stmt]) (.answered command success) := by
  have hins : RegisterThread.step i db (.saving command user) =
      some (db.lock i (.email user.email.value), (.saved command stmt : RegisterThread g)) := by
    simp only [RegisterThread.step, RegisterThread.insert, hs, if_pos hfree]
  exact .next (by rw [RegisterThread.step, h]) (.next hins (.next rfl (.refl _ _)))

theorem solo_insert_fails {ι : Type} [DecidableEq ι] (i : ι) {db : Database ι}
    {command : RegisterUserCommand} {d : RegisterDraws} {n : ℕ} {user : User g.unicode} {e : Exn}
    (h : RegisterThread.select db.tables command d n = .saving command user)
    (hfree : db.locks.Free i (.email user.email.value)) (hs : db.tables.saveUser user = .error e) :
    Alone (@RegisterThread.step g ι _ i) db (.request command d n) db
      (.answered command (outcomeReply (.error e))) := by
  have hins : RegisterThread.step i db (.saving command user) =
      some (db, (.answered command (registerReply e) : RegisterThread g)) := by
    simp only [RegisterThread.step, RegisterThread.insert, hs, if_pos hfree]
  exact .next (by rw [RegisterThread.step, h]) (.next hins (.refl _ _))

theorem solo_registerUser {ι : Type} [DecidableEq ι] (i : ι) (hdb : w.db.Fresh)
    (locks : Locks LockKey ι) (hfree : ∀ k, locks.Free i k) (command : RegisterUserCommand)
    (d : RegisterDraws) {out : Except Exn Unit × World}
    (hout : registerUser g noFaults command d w = out) :
    ∃ db', Alone (@RegisterThread.step g ι _ i) ⟨w.db.committed, locks⟩
        (.request command d w.redis.now) db' (.answered command (outcomeReply out.1)) ∧
      db'.tables = (out.2.db.commit Statement.apply).committed := by
  have hview : w.tables = w.db.committed := Session.view_fresh _ hdb
  have hsame : w.db.committed = (w.db.commit Statement.apply).committed := by
    rw [Session.commit_of_fresh _ hdb]
  unfold registerUser at hout
  cases he : Email.new g.unicode command.email with
  | error e =>
    rw [he, bind_error (ofExcept_run _ _)] at hout
    subst hout
    exact ⟨_, solo_select i (by unfold RegisterThread.select; simp only [he]), hsame⟩
  | ok email =>
    rw [he, bind_ok (ofExcept_run _ _)] at hout
    cases hp : PlainPassword.new g.unicode command.password with
    | error e =>
      rw [hp, bind_error (ofExcept_run _ _)] at hout
      subst hout
      exact ⟨_, solo_select i (by unfold RegisterThread.select; simp only [he, hp]), hsame⟩
    | ok p =>
      rw [hp, bind_ok (ofExcept_run _ _)] at hout
      have hf : findByEmail g noFaults email w = (w.tables.findByEmail g.unicode email.value, w) :=
        query_run rfl hdb.2
      rw [hview] at hf
      cases hfound : w.db.committed.findByEmail g.unicode email.value with
      | error e =>
        rw [bind_error (hf.trans (by rw [hfound]))] at hout
        subst hout
        exact ⟨_, solo_select i (by unfold RegisterThread.select; simp only [he, hp, hfound]), hsame⟩
      | ok found =>
        rw [bind_ok (hf.trans (by rw [hfound]))] at hout
        cases found with
        | some user =>
          change (.error (.userAlreadyExistsError "An account with this email already exists"), w) =
            out at hout
          subst hout
          exact ⟨_, solo_select i (by unfold RegisterThread.select; simp only [he, hp, hfound]), hsame⟩
        | none =>
          simp only at hout
          rw [bind_ok now_run] at hout
          have hsel : RegisterThread.select w.db.committed command d w.redis.now =
              .saving command (⟨d.userId, email, g.hashpw command.password d.salt, true,
                w.redis.now⟩ : User g.unicode) := by
            unfold RegisterThread.select
            simp only [he, hp, hfound]
          rw [saveUser] at hout
          generalize (⟨d.userId, email, g.hashpw command.password d.salt, true, w.redis.now⟩ :
            User g.unicode) = user at hout hsel
          cases hs : w.tables.saveUser user with
          | error e =>
            rw [flush_error rfl hdb.2 hs] at hout
            subst hout
            exact ⟨_, solo_insert_fails i hsel (hfree _) (hview ▸ hs), rfl⟩
          | ok stmt =>
            rw [flush_ok rfl hdb.2 hs] at hout
            subst hout
            refine ⟨_, solo_insert i hsel (hfree _) (hview ▸ hs), ?_⟩
            have hend : ((w.db.flush [stmt]).commit Statement.apply).committed =
                replay Statement.apply [stmt] w.db.committed := by
              rw [Session.commit_committed _ (w.db.flush [stmt]) hdb.2, Session.view_flush,
                Session.view_fresh _ hdb]
            exact hend.symm

/-- A registration on its own does what the service does for it. -/
theorem solo_register {ι : Type} [DecidableEq ι] (i : ι) (hdb : w.db.Fresh) (locks : Locks LockKey ι)
    (hfree : ∀ k, locks.Free i k) (email password : String) (d : RegisterDraws) :
    ∃ db', Alone (@RegisterThread.step g ι _ i) ⟨w.db.committed, locks⟩
        (.request ⟨email, password⟩ d w.redis.now) db'
        (.answered ⟨email, password⟩ (answer g noFaults (.register email password d) w)) ∧
      db'.tables = (after g noFaults (.register email password d) w).db.committed := by
  obtain ⟨out, hout, hans, hrows⟩ := @register_served g w email password d
  rw [hans, hrows]
  exact solo_registerUser (w := { w with commands := 0 }) i hdb locks hfree _ d hout

end Solo

section Runs
variable {g : GlobalContainer} {address : Email g.unicode}

def Honest (address : Email g.unicode) (t : Tables) (command : RegisterUserCommand)
    (a : Answer) : Prop :=
  (a = success ∧ Taken address.value t) ∨ (a = generic ∧ Taken address.value t) ∨
    (a ≠ success ∧ ¬ Valid g command)

def Sound (address : Email g.unicode) (t : Tables) : RegisterThread g → Prop
  | .request command d _ =>
    Email.new g.unicode command.email = .ok address ∧ ∀ m ∈ t.users, m.id ≠ d.userId
  | .saving command user => Opened address t command user
  | .saved command stmt =>
    ∃ user, Opened address t command user ∧ stmt = .insertUser (toUserModel user)
  | .answered command a => Honest address t command a

structure Compatible (s t : RegisterThread g) : Prop where
  ids : ∀ id, s.drawnId = some id → t.drawnId ≠ some id
  lone : s.active = true → t.active = false
  winner : s.succeeded = true → t.succeeded = false

theorem Compatible.symm {s t : RegisterThread g} (h : Compatible s t) : Compatible t s := by
  refine ⟨fun id ht hs => h.ids id hs ht, ?_, ?_⟩
  · intro ht
    by_contra hs
    rw [h.lone (by simpa using hs)] at ht
    cases ht
  · intro ht
    by_contra hs
    rw [h.winner (by simpa using hs)] at ht
    cases ht

def orderly (ι : Type) (address : Email g.unicode) : Assertion (Database ι) (RegisterThread g) where
  shared db := db.tables.WellFormed g.unicode
  thread db t := Sound address db.tables t
  pair := Compatible

theorem Sound.lone {t : Tables} {th : RegisterThread g} (h : Sound address t th)
    (ha : th.active = true) : ¬ Taken address.value t := by
  cases th with
  | request => cases ha
  | saving command user => exact Opened.vacant h
  | saved command stmt =>
    obtain ⟨user, hopen, -⟩ := h
    exact hopen.vacant
  | answered => cases ha

theorem Sound.winner {t : Tables} {th : RegisterThread g} (h : Sound address t th)
    (hs : th.succeeded = true) : Taken address.value t := by
  cases th with
  | answered command a =>
    have ha : a = success := by simpa [RegisterThread.succeeded] using hs
    rcases h with ⟨-, ht⟩ | ⟨-, ht⟩ | ⟨hne, -⟩
    · exact ht
    · exact ht
    · exact absurd ha hne
  | _ => cases hs

inductive StepEffect (address : Email g.unicode) (t t' : Tables) (th : RegisterThread g) :
    RegisterThread g → Prop where
  | quiet {th' : RegisterThread g} (same : t' = t) (sound : Sound address t' th')
      (ids : ∀ id, th'.drawnId = some id → th.drawnId = some id) (lost : th'.succeeded = false)
      (opens : th'.active = true → th.active = true ∨ th.selects = true) :
      StepEffect address t t' th th'
  | committed {command : RegisterUserCommand} {row : UserModel}
      (opened : th.active = true) (id : th.drawnId = some row.id) (email : row.email = address.value)
      (wf : t'.WellFormed g.unicode) (users : t'.users = t.users ++ [row]) :
      StepEffect address t t' th (.answered command success)

section Step
variable {ι : Type} [DecidableEq ι]

theorem step_effect (hfits : address.value.length ≤ columnWidth) {db db' : Database ι}
    (ht : db.tables.WellFormed g.unicode) {i : ι} {th th' : RegisterThread g}
    (hsound : Sound address db.tables th) (hs : th.step i db = some (db', th')) :
    StepEffect address db.tables db'.tables th th' := by
  cases th with
  | request command d createdAt =>
    obtain ⟨hnamed, hfresh⟩ := hsound
    simp only [RegisterThread.step, Option.some.injEq, Prod.mk.injEq] at hs
    obtain ⟨rfl, rfl⟩ := hs
    rcases select_cases ht hnamed d createdAt hfresh with
      ⟨hweak, a, ha, heq⟩ | ⟨-, htaken, heq⟩ | ⟨user, hopen, hid, heq⟩
    · rw [heq]
      refine .quiet rfl (.inr (.inr ⟨ha, hweak⟩)) (by simp [RegisterThread.drawnId]) ?_
        (by simp [RegisterThread.active])
      simpa [RegisterThread.succeeded] using ha
    · rw [heq]
      refine .quiet rfl (.inr (.inl ⟨rfl, htaken⟩)) (by simp [RegisterThread.drawnId]) ?_
        (by simp [RegisterThread.active])
      simpa [RegisterThread.succeeded] using generic_ne_success
    · rw [heq]
      refine .quiet rfl hopen ?_ rfl fun _ => .inr (decide_eq_true hopen.valid)
      simp only [RegisterThread.drawnId, hid, imp_self, implies_true]
  | saving command user =>
    obtain ⟨htables, rfl⟩ := insert_opened hfits hsound hs
    refine .quiet htables ?_ (by simp [RegisterThread.drawnId, toUserModel]) rfl fun _ => .inl rfl
    rw [htables]
    exact ⟨user, hsound, rfl⟩
  | saved command stmt =>
    obtain ⟨user, hopen, rfl⟩ := hsound
    simp only [RegisterThread.step, Option.some.injEq, Prod.mk.injEq] at hs
    obtain ⟨rfl, rfl⟩ := hs
    have hsave := saveUser_insert (by rw [hopen.named]; exact hfits) hopen.hash hopen.fresh
      fun m hm he => hopen.vacant ⟨m, hm, by rw [he, hopen.named]⟩
    refine .committed rfl rfl (by rw [← hopen.named]; rfl) ?_ rfl
    exact ht.saveUser hsave
  | answered command a => simp [RegisterThread.step] at hs

theorem Sound.grow {t t' : Tables} {row : UserModel} (husers : t'.users = t.users ++ [row])
    (hemail : row.email = address.value) {th : RegisterThread g} (h : Sound address t th)
    (hidle : th.active = false) (hid : th.drawnId ≠ some row.id) : Sound address t' th := by
  have htaken : Taken address.value t' := ⟨row, by rw [husers]; simp, hemail⟩
  cases th with
  | request command d n =>
    refine ⟨h.1, ?_⟩
    intro m hm
    rw [husers, List.mem_append, List.mem_singleton] at hm
    rcases hm with hm | rfl
    · exact h.2 m hm
    · exact fun he => hid (congrArg some he.symm)
  | saving => cases hidle
  | saved => cases hidle
  | answered command a =>
    rcases h with ⟨ha, -⟩ | ⟨ha, -⟩ | h
    · exact .inl ⟨ha, htaken⟩
    · exact .inr (.inl ⟨ha, htaken⟩)
    · exact .inr (.inr h)

theorem orderly_stable (hfits : address.value.length ≤ columnWidth) :
    (orderly ι address).Stable (registerProgram g ι) Undisturbed := by
  refine ⟨?_, ?_, ?_⟩
  · intro c i s th hA hC hs
    cases step_effect hfits hA.1 (hA.2.1 i) hs with
    | quiet same sound =>
      refine ⟨?_, sound⟩
      have hwf : c.shared.tables.WellFormed g.unicode := hA.1
      change s.tables.WellFormed g.unicode
      rw [same]
      exact hwf
    | @committed command row opened id email wf users =>
      exact ⟨wf, .inl ⟨rfl, row, by rw [users]; simp, email⟩⟩
  · intro c i j s th hA hC hs hij
    have hpair : Compatible (c.thread i) (c.thread j) := hA.2.2 i j hij
    have hother : Sound address c.shared.tables (c.thread j) := hA.2.1 j
    have hcompat : Sound address s.tables (c.thread j) ∧ Compatible th (c.thread j) := by
      cases step_effect hfits hA.1 (hA.2.1 i) hs with
      | quiet same sound ids lost opens =>
        refine ⟨by rw [same]; exact hother, fun id hid => hpair.ids id (ids id hid), ?_, ?_⟩
        · intro hactive
          rcases opens hactive with ho | hselects
          · exact hpair.lone ho
          · exact hC hselects j (Ne.symm hij)
        · intro hwon
          rw [lost] at hwon
          cases hwon
      | @committed command row opened id email wf users =>
        have hidle := hpair.lone opened
        refine ⟨hother.grow users email hidle (hpair.ids _ id), ?_, ?_, ?_⟩
        · simp [RegisterThread.drawnId]
        · exact fun _ => hidle
        · intro _
          by_contra hwon
          have hwon : (c.thread j).succeeded = true := by simpa using hwon
          exact Sound.lone (hA.2.1 i) opened (hother.winner hwon)
    exact ⟨hcompat.1, hcompat.2, hcompat.2.symm⟩
  · rintro c s hA rfl
    exact ⟨hA.1, hA.2.1⟩

omit [DecidableEq ι] in
theorem Launch.orderly {c : Pool ι (Database ι) (RegisterThread g)} (h : Launch address c) :
    (orderly ι address).Holds c := by
  have hstart : ∀ i, (c.thread i).active = false ∧ (c.thread i).succeeded = false := by
    intro i
    obtain ⟨command, d, n, heq, -⟩ := h.start i
    rw [heq]
    exact ⟨rfl, rfl⟩
  refine ⟨h.tables, ?_, fun i j hij => ⟨h.distinct i j hij, ?_, ?_⟩⟩
  · intro i
    obtain ⟨command, d, n, heq, hnamed⟩ := h.start i
    change Sound address c.shared.tables (c.thread i)
    rw [heq]
    exact ⟨hnamed, h.fresh i _ (by rw [heq]; rfl)⟩
  · exact fun _ => (hstart j).1
  · exact fun _ => (hstart j).2

/-- Only the commit of a request that then reports success adds the account. -/
def Earned (address : Email g.unicode) (c : Pool ι (Database ι) (RegisterThread g)) : Prop :=
  Taken address.value c.shared.tables → ∃ i, (c.thread i).succeeded = true

theorem Earned.step (hfits : address.value.length ≤ columnWidth)
    {c d : Pool ι (Database ι) (RegisterThread g)} {l : Turn ι} (hA : (orderly ι address).Holds c)
    (h : Earned address c) (hs : PoolStep (registerProgram g ι) c l d) : Earned address d := by
  cases hs with
  | @run s th i hs =>
    intro htaken
    cases step_effect hfits hA.1 (hA.2.1 i) hs with
    | quiet same =>
      change Taken address.value s.tables at htaken
      rw [same] at htaken
      obtain ⟨k, hk⟩ := h htaken
      have hki : k ≠ i := by
        rintro rfl
        cases heq : c.thread k with
        | answered command a =>
          rw [heq] at hs
          cases hs
        | _ =>
          rw [heq] at hk
          cases hk
      exact ⟨k, by simpa [Function.update_of_ne hki] using hk⟩
    | committed => exact ⟨i, by simp [RegisterThread.succeeded]⟩
  | env hs =>
    cases hs
    exact h

theorem step_command {db db' : Database ι} {i : ι} {th th' : RegisterThread g}
    (hs : th.step i db = some (db', th')) : th'.command = th.command := by
  cases th with
  | request command d n =>
    simp only [RegisterThread.step, Option.some.injEq, Prod.mk.injEq] at hs
    rw [← hs.2]
    unfold RegisterThread.select
    split
    · rfl
    · split
      · rfl
      · split <;> rfl
  | saving command user =>
    simp only [RegisterThread.step, RegisterThread.insert] at hs
    split_ifs at hs
    split at hs <;> (obtain ⟨-, rfl⟩ := hs; rfl)
  | saved command stmt =>
    simp only [RegisterThread.step, Option.some.injEq, Prod.mk.injEq] at hs
    rw [← hs.2]
    rfl
  | answered => cases hs

theorem run_command {init : Pool ι (Database ι) (RegisterThread g) → Prop}
    {c d : Pool ι (Database ι) (RegisterThread g)}
    {p : List (Pool ι (Database ι) (RegisterThread g) × Turn ι)}
    (h : Runs ((registerProgram g ι).system init) c p d) (i : ι) :
    (d.thread i).command = (c.thread i).command := by
  refine h.invariant (fun d => (d.thread i).command = (c.thread i).command) ?_ rfl
  intro s l u hI hs
  cases hs with
  | @run db th j hs =>
    by_cases hij : i = j
    · subst hij
      simpa using (step_command hs).trans hI
    · simpa [Function.update_of_ne hij] using hI
  | env => exact hI

/-- Once all requests are answered there is one account, one success, and the generic
answer for everybody else with a valid password. -/
theorem registrations_serialised (hfits : address.value.length ≤ columnWidth)
    {c d : Pool ι (Database ι) (RegisterThread g)}
    {p : List (Pool ι (Database ι) (RegisterThread g) × Turn ι)} (hc : Launch address c)
    (h : Runs (registerPool g ι address) c p d) (hp : Meets Undisturbed p)
    (hdone : ∀ i, ∃ command a, d.thread i = .answered command a)
    (hvalid : ∃ i, Valid g (c.thread i).command) :
    (∃! m, m ∈ d.shared.tables.users ∧ m.email = address.value) ∧
      ∃ i, (∃ command, d.thread i = .answered command success) ∧
        ∀ j, j ≠ i → ∀ command a, d.thread j = .answered command a → a ≠ success ∧
          (Valid g (c.thread j).command → a = generic) := by
  have hinv : (orderly ι address).Holds d ∧ Earned address d := by
    refine h.invariant_of_meets
      (fun c => (orderly ι address).Holds c ∧ Earned address c) Undisturbed ?_ hp ?_
    · intro s l u hI hx hs
      exact ⟨(orderly_stable hfits).step hI.1 hx hs, hI.2.step hfits hI.1 hs⟩
    · exact ⟨hc.orderly, fun ⟨m, hm, he⟩ => absurd he (hc.vacant m hm)⟩
  obtain ⟨⟨hwf, hsound, hpair⟩, hearned⟩ := hinv
  have hhonest : ∀ i command a, d.thread i = .answered command a →
      command = (c.thread i).command ∧ Honest address d.shared.tables command a := by
    intro i command a heq
    have hi : Sound address d.shared.tables (d.thread i) := hsound i
    rw [heq] at hi
    refine ⟨?_, hi⟩
    rw [← run_command h i, heq]
    rfl
  have htaken : Taken address.value d.shared.tables := by
    obtain ⟨i, hv⟩ := hvalid
    obtain ⟨command, a, heq⟩ := hdone i
    obtain ⟨rfl, hi⟩ := hhonest i command a heq
    rcases hi with ⟨-, ht⟩ | ⟨-, ht⟩ | ⟨-, hno⟩
    · exact ht
    · exact ht
    · exact absurd hv hno
  refine ⟨?_, ?_⟩
  · obtain ⟨m, hm, he⟩ := htaken
    refine ⟨m, ⟨hm, he⟩, ?_⟩
    rintro m' ⟨hm', he'⟩
    exact Keyed.unique hwf.emails hm' hm (he'.trans he.symm)
  · obtain ⟨i, hi⟩ := hearned htaken
    obtain ⟨command, a, heq⟩ := hdone i
    have ha : a = success := by simpa [heq, RegisterThread.succeeded] using hi
    refine ⟨i, ⟨command, by rw [heq, ha]⟩, ?_⟩
    intro j hj command' a' heq'
    have hlost : a' ≠ success := by
      have := (hpair i j (Ne.symm hj)).winner hi
      simpa [heq', RegisterThread.succeeded] using this
    refine ⟨hlost, ?_⟩
    intro hv
    obtain ⟨rfl, hj'⟩ := hhonest j command' a' heq'
    rcases hj' with ⟨hwon, -⟩ | ⟨hgen, -⟩ | ⟨-, hno⟩
    · exact absurd hwon hlost
    · exact hgen
    · exact absurd hv hno

end Step

end Runs

section Sample
open SampleContainer

def bobAddress : Email sample.unicode :=
  ⟨"bob@example.com", bob_accepted, bob_normalized⟩

def bobCommand : RegisterUserCommand := ⟨"bob@example.com", "Passw0rd1"⟩

def bobAgainCommand : RegisterUserCommand := ⟨" Bob@Example.com", "Passw0rd2"⟩

def bobTwice : Pool Bool (Database Bool) (RegisterThread sample) where
  shared := ⟨initialWorld.db.committed, fun _ => none⟩
  thread i :=
    if i then .request bobAgainCommand ⟨jtiOne, saltTwo⟩ startTime
    else .request bobCommand ⟨bob, saltOne⟩ startTime

theorem bobAgain_normalises : Email.new sample.unicode " Bob@Example.com" = .ok bobAddress := by
  rfl

theorem bobTwice_launch : Launch bobAddress bobTwice where
  tables := initialWorld_wellFormed
  unlocked _ := rfl
  start i := by
    cases i with
    | false => exact ⟨_, _, _, rfl, Email.new_value bobAddress⟩
    | true => exact ⟨_, _, _, rfl, bobAgain_normalises⟩
  vacant m hm := by
    rw [List.mem_singleton.1 hm]
    decide +kernel
  fresh i id hid m hm := by
    rw [List.mem_singleton.1 hm]
    cases i <;> cases hid <;> decide +kernel
  distinct i j hij id hi hj := by
    have hne : bob ≠ jtiOne := by decide
    cases i <;> cases j <;> simp [bobTwice, RegisterThread.drawnId] at hij hi hj
    · exact hne (hi.trans hj.symm)
    · exact hne (hj.trans hi.symm)

def finished : RegisterThread sample → Option Answer
  | .answered _ a => some a
  | _ => none

theorem finished_some {t : RegisterThread sample} {a : Answer} (h : finished t = some a) :
    ∃ command, t = .answered command a := by
  cases t <;> cases h
  exact ⟨_, rfl⟩

def inTurn : List (Move Bool (Database Bool)) := [.run false, .run false, .run false, .run true]

theorem registrations_serialised_inTurn :
    ∃ p d, Runs (registerPool sample Bool bobAddress) bobTwice p d ∧
      (∃! m, m ∈ d.shared.tables.users ∧ m.email = bobAddress.value) ∧
      ∃ i, (∃ command, d.thread i = .answered command success) ∧
        ∀ j, j ≠ i → ∀ command a, d.thread j = .answered command a → a ≠ success ∧
          (Valid sample (bobTwice.thread j).command → a = generic) := by
  obtain ⟨d, hd⟩ : ∃ d, playMeeting Undisturbed (fun i db t => t.step i db) inTurn bobTwice =
    some d := by
    have hsome : (playMeeting Undisturbed (fun i db t => t.step i db) inTurn bobTwice).isSome =
      true := by
      decide +kernel
    exact Option.isSome_iff_exists.1 hsome
  have hend : (playMeeting Undisturbed (fun i db t => t.step i db) inTurn bobTwice).map
      (fun d => (finished (d.thread false), finished (d.thread true))) =
      some (some success, some generic) := by
    decide +kernel
  rw [hd, Option.map_some, Option.some.injEq, Prod.mk.injEq] at hend
  obtain ⟨hfalse, htrue⟩ := hend
  have hdone : ∀ i, ∃ command a, d.thread i = .answered command a := by
    intro i
    cases i with
    | false => exact (finished_some hfalse).imp fun _ h => ⟨_, h⟩
    | true => exact (finished_some htrue).imp fun _ h => ⟨_, h⟩
  obtain ⟨p, hp, hmeets⟩ : ∃ p, Runs (registerPool sample Bool bobAddress) bobTwice p d ∧
      Meets Undisturbed p :=
    playMeeting_runs (fun _ _ _ _ _ hs => hs) (by simp [inTurn]) hd
  exact ⟨p, d, hp, registrations_serialised (by decide +kernel) bobTwice_launch hp hmeets hdone
    ⟨false, by decide +kernel⟩⟩

/-- Both look the address up before either account is committed. -/
def bothLook : List (Move Bool (Database Bool)) :=
  [.run false, .run true, .run false, .run false, .run true]

/-- The second INSERT trips the unique index, and the request reports that. -/
theorem overlapping_registrations_report_conflict :
    ∃ p d, Launch bobAddress bobTwice ∧ Runs (registerPool sample Bool bobAddress) bobTwice p d ∧
      Valid sample bobCommand ∧ Valid sample bobAgainCommand ∧
      d.thread false = .answered bobCommand success ∧
      d.thread true = .answered bobAgainCommand (.errors .integrityError) ∧
      Answer.errors .integrityError ≠ generic := by
  obtain ⟨d, hd⟩ : ∃ d, play (fun i db t => t.step i db) bothLook bobTwice = some d := by
    have hsome : (play (fun i db t => t.step i db) bothLook bobTwice).isSome = true := by
      decide +kernel
    exact Option.isSome_iff_exists.1 hsome
  have hend : (play (fun i db t => t.step i db) bothLook bobTwice).map
      (fun d => (finished (d.thread false), finished (d.thread true))) =
      some (some success, some (.errors .integrityError)) := by
    decide +kernel
  rw [hd, Option.map_some, Option.some.injEq, Prod.mk.injEq] at hend
  obtain ⟨⟨_, hfalse⟩, ⟨_, htrue⟩⟩ := And.imp finished_some finished_some hend
  obtain ⟨p, hp⟩ : ∃ p, Runs (registerPool sample Bool bobAddress) bobTwice p d :=
    play_runs (fun _ _ _ _ _ hs => hs) (by simp [bothLook]) hd
  have hcommand : ∀ i, (d.thread i).command = (bobTwice.thread i).command := run_command hp
  have hc : _ := hcommand false
  have hc' : _ := hcommand true
  rw [hfalse] at hc
  rw [htrue] at hc'
  subst hc hc'
  exact ⟨p, d, bobTwice_launch, hp, by decide +kernel, by decide +kernel, hfalse, htrue,
    by simp [generic]⟩

end Sample

end AuthService.RegistrationThreads
