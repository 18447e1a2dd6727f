import AuthService.IdempotencyExtension
import AuthService.SampleContainer
import AuthService.ServiceRuns
import AuthService.ThreadPools

set_option autoImplicit false

/-! Retries of one request under one idempotency key: lookup, execution and storing of
several copies next to each other. -/
namespace AuthService.IdempotentRetries
open Uuids DomainModel AccountTables Transactions FallibleState Fallible ExpiringMaps RedisSessions
open LabelledRuns ThreadPools RequestPorts CommandHandlers GraphqlResolvers HandlerRuns
open SessionDiscipline ServiceRuns IdempotencyExtension

structure Backend where
  world : World
  records : ExpiringMap String (IdempotencyRecord Answer)

def Backend.store (b : Backend) : IdempotencyStore Answer := ⟨b.world.redis.now, b.records⟩

def Backend.advance (d : ℕ) (b : Backend) : Backend :=
  ⟨{ b.world with redis := b.world.redis.advance d }, (b.store.advance d).records⟩

def resultOf : Answer → ExecutionResult Answer
  | .errors _ => ⟨none, [⟨"", none⟩]⟩
  | a => ⟨some a, []⟩

def conflictAnswer : Answer := .errors (.graphQLError "Idempotency key reused with different request")

/-- A copy of the request between two of its steps; `ran` tells an execution from a replay. -/
inductive Retry where
  | request (r : Request)
  | missed (r : Request)
  | executed (r : Request) (a : Answer)
  | answered (r : Request) (ran : Bool) (a : Answer)

namespace Retry

def busy : Retry → Bool
  | .missed _ => true
  | .executed _ (.errors _) => false
  | .executed _ _ => true
  | _ => false

def won : Retry → Bool
  | .executed _ a => !a.failed
  | .answered _ ran a => ran && !a.failed
  | _ => false

def response : Retry → Option Answer
  | .executed _ a => some a
  | .answered _ _ a => some a
  | _ => none

def opens : Retry → Option UUID
  | .request r => target r
  | .missed r => target r
  | .executed r _ => target r
  | .answered r _ _ => target r
where
  target : Request → Option UUID
    | .login _ _ _ _ d => some d.sessionId
    | _ => none

section Step
variable (g : GlobalContainer) (c : ExecutionContext)

def afterLookup (r : Request) : Lookup Answer → Retry
  | .notEnrolled => .missed r
  | .replay a => .answered r false a
  | .conflict => .answered r false conflictAnswer
  | .miss => .missed r

def step (b : Backend) : Retry → Option (Backend × Retry)
  | .request r => some (b, afterLookup r (lookup g.sha256 c b.store))
  | .missed r =>
    some (⟨after g noFaults r b.world, b.records⟩, .executed r (answer g noFaults r b.world))
  | .executed r a =>
    some (⟨b.world, (persist g.sha256 c (resultOf a) b.store).records⟩, .answered r true a)
  | .answered _ _ _ => none

end Step

end Retry

/-- Copies of one request; time passes, but not beyond the lifetime of the record. -/
def retryProgram (g : GlobalContainer) (c : ExecutionContext) (key : String) (ι : Type) :
    Program ι Backend Retry where
  step _ b t b' t' := t.step g c b = some (b', t')
  env b b' := ∃ d, b' = b.advance d ∧ b'.store.get key = b.store.get key

def SameBody : Request → Request → Prop
  | .login email password device _ _, .login email' password' device' _ _ =>
    email = email' ∧ password = password' ∧ device = device'
  | .requestPasswordReset email _ _, .requestPasswordReset email' _ _ => email = email'
  | _, _ => False

/-- All threads carry the same request and key, and nothing is stored under the key. -/
structure Launch {ι : Type} (c : ExecutionContext) (key : String) (p : Pool ι Backend Retry) :
    Prop where
  enrolled : ∃ operation idempotencyKey, c.enrolled = some (operation, idempotencyKey) ∧
    makeKey operation idempotencyKey = key
  start : ∀ i, ∃ r, p.thread i = .request r
  same : ∀ i j r r', p.thread i = .request r → p.thread j = .request r' → SameBody r r'
  unused : p.shared.records key = none
  session : p.shared.world.db.Fresh

def retryPool (g : GlobalContainer) (c : ExecutionContext) (key : String) (ι : Type) [DecidableEq ι] :
    System (Pool ι Backend Retry) (Turn ι) :=
  (retryProgram g c key ι).system (Launch c key)

def Retry.looks : Retry → Bool
  | .request _ => true
  | _ => false

/-- No lookup while another copy is between its own miss and the storing of its result. -/
def Uncontended {ι : Type} (p : Pool ι Backend Retry) : Turn ι → Prop
  | .env => True
  | .run i => (p.thread i).looks = true → ∀ j, j ≠ i → (p.thread j).busy = false

instance {ι : Type} [DecidableEq ι] [Fintype ι] (p : Pool ι Backend Retry) (l : Turn ι) :
    Decidable (Uncontended p l) :=
  match l with
  | .env => inferInstanceAs (Decidable True)
  | .run i => inferInstanceAs
      (Decidable ((p.thread i).looks = true → ∀ j, j ≠ i → (p.thread j).busy = false))

section Effects
variable {g : GlobalContainer} {w : World}

def SameMails (w w' : World) : Prop := w'.sentEmails = w.sentEmails

theorem sameMails_refl (w : World) : SameMails w w := rfl

theorem sameMails_trans (s t u : World) (h : SameMails s t) (h' : SameMails t u) : SameMails s u :=
  h'.trans h

theorem mails_bind {α β : Type} {m : AuthM α} {f : α → AuthM β} (hm : Keeps SameMails m)
    (hf : ∀ a, Keeps SameMails (f a)) : Keeps SameMails (m >>= f) :=
  Keeps.bind sameMails_trans hm hf

theorem mails_query {α : Type} {c : PortCall} {f : Tables → Except Exn α} :
    Keeps SameMails (query noFaults c f) := by
  intro w
  unfold query port
  simp only [noFaults]
  split_ifs <;> rfl

theorem mails_tryRecord (dto : AuditEventDTO) : Keeps SameMails (tryRecord noFaults dto) := by
  refine Keeps.handle sameMails_trans ?_ (fun _ => Keeps.pure sameMails_refl _)
  intro w
  unfold record flush port
  simp only [noFaults]
  split_ifs <;> rfl

theorem mails_recordLoginFailed (userId : Option UUID) (ip : Option String) (reason : String)
    (eventId : UUID) : Keeps SameMails (recordLoginFailed noFaults userId ip reason eventId) :=
  mails_bind (fun _ => rfl) (fun _ => mails_tryRecord _)

theorem mails_verifyDummy (password salt : String) : Keeps SameMails (verifyDummy g password salt) := by
  intro w
  rw [verifyDummy, bind_ok (update_run _ _)]
  change (if w.dummyHash = "" then _ else w).sentEmails = w.sentEmails
  split_ifs <;> rfl

theorem mails_authenticateUser (cmd : AuthenticateUserCommand) (d : LoginDraws) :
    Keeps SameMails (authenticateUser g noFaults cmd d) := by
  have hraise : ∀ e, Keeps SameMails (raise e : AuthM TokenPairDTO) :=
    fun e => Keeps.raise sameMails_refl e
  refine mails_bind (Keeps.ofExcept sameMails_refl _) (fun email => ?_)
  refine mails_bind mails_query (fun found => ?_)
  cases found with
  | none =>
    refine mails_bind (mails_verifyDummy _ _) (fun _ => ?_)
    exact mails_bind (mails_recordLoginFailed _ _ _ _) (fun _ => hraise _)
  | some user =>
    simp only
    split_ifs
    · exact mails_bind (mails_recordLoginFailed _ _ _ _) (fun _ => hraise _)
    · exact mails_bind (mails_recordLoginFailed _ _ _ _) (fun _ => hraise _)
    · refine mails_bind (fun _ => rfl) (fun _ => ?_)
      refine mails_bind (fun _ => rfl) (fun _ => ?_)
      refine mails_bind (fun _ => rfl) (fun _ => ?_)
      exact mails_bind (mails_tryRecord _) (fun _ => Keeps.pure sameMails_refl _)

structure Effect (r : Request) (w w' : World) (a : Answer) : Prop where
  clock : w'.redis.now = w.redis.now
  sessions : ∀ s, w'.redis.session s ≠ none → w.redis.session s ≠ none ∨
    (a.failed = false ∧ Retry.opens.target r = some s)
  mails : w'.sentEmails.length ≤ w.sentEmails.length + 1
  silent : a.failed = true → w'.sentEmails.length = w.sentEmails.length

theorem login_effect (hdb : w.db.Fresh) (email password : String) (device ip : Option String)
    (d : LoginDraws) :
    Effect (.login email password device ip d) w
      (after g noFaults (.login email password device ip d) w)
      (answer g noFaults (.login email password device ip d) w) := by
  obtain ⟨hafter, hok, -⟩ := serve_login g noFaults w email password device ip d
  have hmails : SameMails { w with commands := 0 } _ :=
    mails_authenticateUser (g := g) ⟨email, password, device, ip⟩ d { w with commands := 0 }
  have hout := @authenticateUser_outcome g noFaults { w with commands := 0 } quiet_noFaults hdb.2
    ⟨email, password, device, ip⟩ d
  generalize authenticateUser g noFaults ⟨email, password, device, ip⟩ d { w with commands := 0 } = out
    at hafter hok hmails hout
  rw [hafter]
  have hlen : out.2.sentEmails.length = w.sentEmails.length := congrArg List.length hmails
  cases hout with
  | refused redis =>
    refine ⟨congrArg Redis.now redis, ?_, by simpa using hlen.le.trans (Nat.le_succ _), fun _ => hlen⟩
    intro s hs
    simp only [redis] at hs
    exact .inl hs
  | opened stored active verified redis =>
    refine ⟨?_, ?_, by simpa using hlen.le.trans (Nat.le_succ _), fun _ => hlen⟩
    · simp only [redis, create_now]
    · intro s hs
      simp only [redis] at hs
      rw [RedisSessions.create_session] at hs
      split_ifs at hs with he
      · exact .inr ⟨by rw [hok _ rfl]; rfl, by rw [he]; rfl⟩
      · exact .inl hs

theorem requestReset_effect (hdb : w.db.Fresh) (email : String) (ip : Option String)
    (d : RequestResetDraws) :
    Effect (.requestPasswordReset email ip d) w
      (after g noFaults (.requestPasswordReset email ip d) w)
      (answer g noFaults (.requestPasswordReset email ip d) w) := by
  obtain ⟨hafter, hok, -⟩ := serve_requestReset g noFaults w email ip d
  have hout := @requestPasswordReset_outcome g noFaults { w with commands := 0 } quiet_noFaults hdb.2
    ⟨email, ip⟩ d
  generalize requestPasswordReset g noFaults ⟨email, ip⟩ d { w with commands := 0 } = out
    at hafter hok hout
  rw [hafter]
  cases hout with
  | refused => exact ⟨rfl, fun s hs => .inl hs, Nat.le_succ _, fun _ => rfl⟩
  | rejected => exact ⟨rfl, fun s hs => .inl hs, Nat.le_succ _, fun _ => rfl⟩
  | issued =>
    have hwon := hok () rfl
    refine ⟨?_, ?_, ?_, ?_⟩
    · simp only [audited_redis]
    · intro s hs
      simp only [audited_redis] at hs
      exact .inl hs
    · simp only [audited_sentEmails]
      simp
    · intro hfail
      rw [hwon] at hfail
      cases hfail

end Effects

def storable : Answer → Bool
  | .errors _ => false
  | _ => true

theorem storable_of_success {a : Answer} (h : a.failed = false) : storable a = true := by
  cases a <;> first | rfl | cases h

namespace Retry

def stored : Retry → Bool
  | .answered _ ran a => ran && storable a
  | _ => false

theorem busy_executed {r : Request} {a : Answer} : (executed r a).busy = storable a := by
  cases a <;> rfl

theorem won_cases {t : Retry} (h : t.won = true) :
    ∃ r a, a.failed = false ∧ (t = .executed r a ∧ t.busy = true ∨
      t = .answered r true a ∧ t.stored = true) := by
  cases t with
  | executed r a =>
    have ha : a.failed = false := by simpa [won] using h
    exact ⟨r, a, ha, .inl ⟨rfl, by rw [busy_executed]; exact storable_of_success ha⟩⟩
  | answered r ran a =>
    obtain ⟨rfl, ha⟩ : ran = true ∧ a.failed = false := by simpa [won] using h
    exact ⟨r, a, ha, .inr ⟨rfl, storable_of_success ha⟩⟩
  | _ => cases h

end Retry

section Invariant
variable {g : GlobalContainer} {c : ExecutionContext} {operation idempotencyKey : String} {ι : Type}

abbrev RetryPool (ι : Type) := Pool ι Backend Retry

structure Consistent (g : GlobalContainer) (c : ExecutionContext) (operation idempotencyKey : String)
    (v : RetryPool ι) : Prop where
  lone : ∀ i j, i ≠ j → (v.thread i).busy = true → (v.thread j).busy = false
  vacant : ∀ i, (v.thread i).busy = true →
    v.shared.store.get (makeKey operation idempotencyKey) = none
  recorded : ∀ rec, v.shared.store.get (makeKey operation idempotencyKey) = some rec →
    rec.requestHash = g.sha256 (c.hashInput operation) ∧
      ∃ j r, v.thread j = .answered r true rec.response
  kept : ∀ i, (v.thread i).stored = true →
    ∃ rec, v.shared.store.get (makeKey operation idempotencyKey) = some rec ∧
      (v.thread i).response = some rec.response
  once : ∀ i j, i ≠ j → (v.thread i).stored = true → (v.thread j).stored = false
  replayed : ∀ i r a, v.thread i = .answered r false a → a.failed = false →
    ∃ rec, v.shared.store.get (makeKey operation idempotencyKey) = some rec ∧ rec.response = a

theorem lookup_enrolled (hen : c.enrolled = some (operation, idempotencyKey))
    (s : IdempotencyStore Answer) :
    lookup g.sha256 c s = match s.get (makeKey operation idempotencyKey) with
      | none => .miss
      | some rec =>
        if rec.requestHash = g.sha256 (c.hashInput operation) then .replay rec.response
        else .conflict := by
  simp only [lookup, hen]
  cases s.get (makeKey operation idempotencyKey) <;> rfl

theorem persist_storable (hen : c.enrolled = some (operation, idempotencyKey)) {a : Answer}
    (ha : storable a = true) (s : IdempotencyStore Answer) :
    persist g.sha256 c (resultOf a) s =
      s.set (makeKey operation idempotencyKey) ⟨g.sha256 (c.hashInput operation), a⟩ := by
  cases a with
  | errors e => cases ha
  | _ => simp only [persist, hen, resultOf, if_true]

theorem persist_error (e : Exn) (s : IdempotencyStore Answer) :
    persist g.sha256 c (resultOf (.errors e)) s = s := by
  unfold persist
  split
  · rename_i h
    simp [resultOf] at h
  · rfl

theorem Consistent.update {v u : RetryPool ι} (h : Consistent g c operation idempotencyKey v) {i : ι}
    {t : Retry} (hself : u.thread i = t) (hother : ∀ j, j ≠ i → u.thread j = v.thread j)
    (hstore : u.shared.store.get (makeKey operation idempotencyKey) =
      v.shared.store.get (makeKey operation idempotencyKey))
    (hstored : t.stored = false)
    (hran : ∀ r a, v.thread i ≠ .answered r true a)
    (hbusy : t.busy = true → (∀ j, j ≠ i → (v.thread j).busy = false) ∧
      v.shared.store.get (makeKey operation idempotencyKey) = none)
    (hreplay : ∀ r a, t = .answered r false a → a.failed = false →
      ∃ rec, v.shared.store.get (makeKey operation idempotencyKey) = some rec ∧ rec.response = a) :
    Consistent g c operation idempotencyKey u := by
  refine ⟨?_, ?_, ?_, ?_, ?_, ?_⟩
  · intro j k hjk hj
    by_cases hji : j = i
    · rw [hji, hself] at hj
      rw [hother k (hji ▸ Ne.symm hjk)]
      exact (hbusy hj).1 k (hji ▸ Ne.symm hjk)
    · rw [hother j hji] at hj
      by_cases hki : k = i
      · rw [hki, hself]
        by_contra ht
        have hfree := (hbusy (by simpa using ht)).1 j hji
        rw [hj] at hfree
        cases hfree
      · rw [hother k hki]
        exact h.lone j k hjk hj
  · intro j hj
    rw [hstore]
    by_cases hji : j = i
    · rw [hji, hself] at hj
      exact (hbusy hj).2
    · rw [hother j hji] at hj
      exact h.vacant j hj
  · intro rec hrec
    rw [hstore] at hrec
    obtain ⟨hhash, j, r, hj⟩ := h.recorded rec hrec
    have hji : j ≠ i := by
      rintro rfl
      exact hran _ _ hj
    exact ⟨hhash, j, r, by rw [hother j hji, hj]⟩
  · intro j hj
    rw [hstore]
    by_cases hji : j = i
    · rw [hji, hself, hstored] at hj
      cases hj
    · rw [hother j hji] at hj ⊢
      exact h.kept j hj
  · intro j k hjk hj
    by_cases hji : j = i
    · rw [hji, hself, hstored] at hj
      cases hj
    · rw [hother j hji] at hj
      by_cases hki : k = i
      · rw [hki, hself, hstored]
      · rw [hother k hki]
        exact h.once j k hjk hj
  · intro j r a hj ha
    rw [hstore]
    by_cases hji : j = i
    · rw [hji, hself] at hj
      exact hreplay r a hj ha
    · rw [hother j hji] at hj
      exact h.replayed j r a hj ha

theorem Consistent.store {v u : RetryPool ι} (h : Consistent g c operation idempotencyKey v) {i : ι}
    {r : Request} {a : Answer} (hi : v.thread i = .executed r a) (ha : storable a = true)
    (hself : u.thread i = .answered r true a) (hother : ∀ j, j ≠ i → u.thread j = v.thread j)
    (hstore : u.shared.store = v.shared.store.set (makeKey operation idempotencyKey)
      ⟨g.sha256 (c.hashInput operation), a⟩) :
    Consistent g c operation idempotencyKey u := by
  have hbusy : (v.thread i).busy = true := by rw [hi, Retry.busy_executed, ha]
  have hnone := h.vacant i hbusy
  have hget : u.shared.store.get (makeKey operation idempotencyKey) =
      some ⟨g.sha256 (c.hashInput operation), a⟩ := by
    rw [hstore]
    exact get_set _ _ _
  -- nothing was recorded, so no other copy has stored or replayed
  have hidle : ∀ j, j ≠ i → (v.thread j).stored = false := by
    intro j hj
    by_contra hs
    obtain ⟨rec, hrec, -⟩ := h.kept j (by simpa using hs)
    rw [hnone] at hrec
    cases hrec
  have hfree : ∀ j, (u.thread j).busy = false := by
    intro j
    by_cases hj : j = i
    · rw [hj, hself]
      rfl
    · rw [hother j hj]
      exact h.lone i j (Ne.symm hj) hbusy
  refine ⟨fun j k _ _ => hfree k, fun j hj => ?_, ?_, ?_, ?_, ?_⟩
  · rw [hfree j] at hj
    cases hj
  · intro rec hrec
    obtain rfl := Option.some.inj (hget.symm.trans hrec)
    exact ⟨rfl, i, r, hself⟩
  · intro j hj
    refine ⟨_, hget, ?_⟩
    by_cases hji : j = i
    · rw [hji, hself]
      rfl
    · rw [hother j hji, hidle j hji] at hj
      cases hj
  · intro j k hjk hj
    by_cases hki : k = i
    · have hji : j ≠ i := fun hji => hjk (hji.trans hki.symm)
      rw [hother j hji, hidle j hji] at hj
      cases hj
    · rw [hother k hki]
      exact hidle k hki
  · intro j r' a' hj hs
    have hji : j ≠ i := by
      rintro rfl
      rw [hself] at hj
      cases hj
    rw [hother j hji] at hj
    obtain ⟨rec, hrec, -⟩ := h.replayed j r' a' hj hs
    rw [hnone] at hrec
    cases hrec

theorem Consistent.unwon {v : RetryPool ι} (h : Consistent g c operation idempotencyKey v) {i : ι}
    {r : Request} (hi : v.thread i = .missed r) (j : ι) : (v.thread j).won = false := by
  by_contra hwon
  have hbusy : (v.thread i).busy = true := by rw [hi]; rfl
  obtain ⟨r', a, -, ⟨hj, hb⟩ | ⟨-, hs⟩⟩ := Retry.won_cases (by simpa using hwon)
  · by_cases hij : i = j
    · subst hij
      rw [hi] at hj
      cases hj
    · rw [h.lone i j hij hbusy] at hb
      cases hb
  · obtain ⟨rec, hrec, -⟩ := h.kept j hs
    rw [h.vacant i hbusy] at hrec
    cases hrec

def Retry.body : Retry → Request
  | .request r => r
  | .missed r => r
  | .executed r _ => r
  | .answered r _ _ => r

structure Accounted (start v : RetryPool ι) : Prop where
  session : v.shared.world.db.Fresh
  bodies : ∀ i, SameBody (v.thread i).body (v.thread i).body
  sessions : ∀ s, v.shared.world.redis.session s ≠ none → start.shared.world.redis.session s ≠ none ∨
    ∃ i, (v.thread i).won = true ∧ (v.thread i).opens = some s
  mails : v.shared.world.sentEmails.length ≤ start.shared.world.sentEmails.length + 1
  silent : (∀ i, (v.thread i).won = false) →
    v.shared.world.sentEmails.length ≤ start.shared.world.sentEmails.length

theorem Accounted.update {start v u : RetryPool ι} (h : Accounted start v) {i : ι} {t t' : Retry}
    (hi : v.thread i = t) (hself : u.thread i = t') (hother : ∀ j, j ≠ i → u.thread j = v.thread j)
    (hbody : t'.body = t.body) (hwon : t'.won = t.won) (hopens : t'.opens = t.opens)
    (hworld : u.shared.world = v.shared.world) : Accounted start u := by
  have hall : ∀ j, (u.thread j).body = (v.thread j).body ∧ (u.thread j).won = (v.thread j).won ∧
      (u.thread j).opens = (v.thread j).opens := by
    intro j
    by_cases hj : j = i
    · rw [hj, hself, hi]
      exact ⟨hbody, hwon, hopens⟩
    · rw [hother j hj]
      exact ⟨rfl, rfl, rfl⟩
  refine ⟨by rw [hworld]; exact h.session, fun j => ?_, ?_, by rw [hworld]; exact h.mails, ?_⟩
  · rw [(hall j).1]
    exact h.bodies j
  · intro s hs
    rw [hworld] at hs
    refine (h.sessions s hs).imp_right ?_
    rintro ⟨j, hj, hs⟩
    exact ⟨j, (hall j).2.1.trans hj, (hall j).2.2.trans hs⟩
  · intro hno
    rw [hworld]
    exact h.silent fun j => (hall j).2.1.symm.trans (hno j)

theorem served_effect {r : Request} {w : World} (hdb : w.db.Fresh) (hr : SameBody r r) :
    Effect r w (after g noFaults r w) (answer g noFaults r w) := by
  cases r with
  | login => exact login_effect hdb _ _ _ _ _
  | requestPasswordReset => exact requestReset_effect hdb _ _ _
  | _ => exact absurd hr id

theorem Accounted.execute {start v u : RetryPool ι} (h : Accounted start v) {i : ι} {r : Request}
    (hi : v.thread i = .missed r) (hno : ∀ j, (v.thread j).won = false)
    (hself : u.thread i = .executed r (answer g noFaults r v.shared.world))
    (hother : ∀ j, j ≠ i → u.thread j = v.thread j)
    (hworld : u.shared.world = after g noFaults r v.shared.world) : Accounted start u := by
  have hbody := h.bodies i
  rw [hi] at hbody
  have heffect := @served_effect g r v.shared.world h.session hbody
  have hlen := h.silent hno
  have hmails := heffect.mails
  refine ⟨by rw [hworld]; exact after_fresh _ _ _ _, ?_, ?_, by rw [hworld]; omega, ?_⟩
  · intro j
    by_cases hj : j = i
    · rw [hj, hself]
      exact hbody
    · rw [hother j hj]
      exact h.bodies j
  · intro s hs
    rw [hworld] at hs
    rcases heffect.sessions s hs with hold | ⟨hwon, hopens⟩
    · refine (h.sessions s hold).imp_right ?_
      rintro ⟨j, hj, -⟩
      rw [hno j] at hj
      cases hj
    · refine .inr ⟨i, ?_, ?_⟩
      · rw [hself, Retry.won, hwon]
        rfl
      · rw [hself]
        exact hopens
  · intro hlost
    have hfail : (answer g noFaults r v.shared.world).failed = true := by
      have hi' := hlost i
      rw [hself] at hi'
      simpa [Retry.won] using hi'
    rw [hworld, heffect.silent hfail]
    exact hlen

theorem Consistent.found {v : RetryPool ι} (h : Consistent g c operation idempotencyKey v)
    (hen : c.enrolled = some (operation, idempotencyKey)) (r : Request) :
    (v.shared.store.get (makeKey operation idempotencyKey) = none ∧
        Retry.afterLookup r (lookup g.sha256 c v.shared.store) = .missed r) ∨
      ∃ rec, v.shared.store.get (makeKey operation idempotencyKey) = some rec ∧
        Retry.afterLookup r (lookup g.sha256 c v.shared.store) = .answered r false rec.response := by
  rw [lookup_enrolled hen]
  cases hrec : v.shared.store.get (makeKey operation idempotencyKey) with
  | none => exact .inl ⟨rfl, rfl⟩
  | some rec =>
    refine .inr ⟨rec, rfl, ?_⟩
    simp only [if_pos (h.recorded rec hrec).1]
    rfl

variable [DecidableEq ι]

theorem consistent_step (hen : c.enrolled = some (operation, idempotencyKey)) {start v u : RetryPool ι}
    {l : Turn ι} (h : Consistent g c operation idempotencyKey v) (ha : Accounted start v)
    (hl : Uncontended v l)
    (hs : PoolStep (retryProgram g c (makeKey operation idempotencyKey) ι) v l u) :
    Consistent g c operation idempotencyKey u ∧ Accounted start u := by
  cases hs with
  | @run b t i hs =>
    have hself : Function.update v.thread i t i = t := Function.update_self _ _ _
    have hother : ∀ j, j ≠ i → Function.update v.thread i t j = v.thread j :=
      fun j hj => Function.update_of_ne hj _ _
    cases hi : v.thread i with
    | request r =>
      rw [hi] at hs
      cases hs
      have hfree := hl (by rw [hi]; rfl)
      rcases h.found hen r with ⟨hnone, heq⟩ | ⟨rec, hrec, heq⟩
      · rw [heq] at hself hother ⊢
        refine ⟨h.update hself hother rfl rfl (by simp [hi]) (fun _ => ⟨hfree, hnone⟩) (by simp), ?_⟩
        exact ha.update hi hself hother rfl rfl rfl rfl
      · rw [heq] at hself hother ⊢
        refine ⟨h.update hself hother rfl rfl (by simp [hi]) (fun hb => by cases hb) ?_, ?_⟩
        · rintro r' a hra -
          cases hra
          exact ⟨rec, hrec, rfl⟩
        · exact ha.update hi hself hother rfl rfl rfl rfl
    | missed r =>
      rw [hi] at hs
      have hno := h.unwon hi
      cases hs
      have hbusy : (v.thread i).busy = true := by rw [hi]; rfl
      refine ⟨h.update hself hother rfl rfl (by simp [hi]) (fun _ => ?_) (by simp), ?_⟩
      · exact ⟨fun j hj => h.lone i j (Ne.symm hj) hbusy, h.vacant i hbusy⟩
      · exact ha.execute hi hno hself hother rfl
    | executed r a =>
      rw [hi] at hs
      cases hs
      refine ⟨?_, ha.update hi hself hother rfl rfl rfl rfl⟩
      cases hstorable : storable a with
      | true =>
        refine h.store hi hstorable hself hother ?_
        rw [← persist_storable hen hstorable]
        simp only [persist, hen]
        split <;> (try split_ifs) <;> rfl
      | false =>
        cases a with
        | errors e =>
          refine h.update hself hother ?_ rfl (by simp [hi]) (fun hb => by cases hb) (by simp)
          rw [persist_error]
          rfl
        | _ => cases hstorable
    | answered r ran a =>
      rw [hi] at hs
      cases hs
  | @env b hs =>
    obtain ⟨d, rfl, hget⟩ := hs
    refine ⟨⟨h.lone, ?_, ?_, ?_, h.once, ?_⟩, ⟨ha.session, ha.bodies, ?_, ha.mails, ha.silent⟩⟩
    · intro i hi
      rw [hget]
      exact h.vacant i hi
    · intro rec hrec
      rw [hget] at hrec
      exact h.recorded rec hrec
    · intro i hi
      rw [hget]
      exact h.kept i hi
    · intro i r a hi hf
      rw [hget]
      exact h.replayed i r a hi hf
    · intro s hs
      refine ha.sessions s ?_
      obtain ⟨e, he⟩ := Option.ne_none_iff_exists'.1 hs
      rw [(advance_session.1 he).1]
      simp

omit [DecidableEq ι] in
theorem Launch.consistent {start : RetryPool ι} {key : String} (h : Launch c key start) :
    ∃ operation idempotencyKey, c.enrolled = some (operation, idempotencyKey) ∧
      makeKey operation idempotencyKey = key ∧ Consistent g c operation idempotencyKey start ∧
      Accounted start start := by
  obtain ⟨operation, idempotencyKey, hen, hkey⟩ := h.enrolled
  have hnone : start.shared.store.get (makeKey operation idempotencyKey) = none := by
    rw [hkey, IdempotencyStore.get, ExpiringMap.value_eq_none]
    exact h.unused
  have hquiet : ∀ i, (start.thread i).busy = false ∧ (start.thread i).stored = false ∧
      (start.thread i).won = false := by
    intro i
    obtain ⟨r, hr⟩ := h.start i
    rw [hr]
    exact ⟨rfl, rfl, rfl⟩
  refine ⟨operation, idempotencyKey, hen, hkey, ⟨fun _ j _ _ => (hquiet j).1, fun _ _ => hnone, ?_, ?_,
    fun _ j _ _ => (hquiet j).2.1, ?_⟩, ⟨h.session, ?_, fun _ hs => .inl hs, Nat.le_succ _,
    fun _ => le_rfl⟩⟩
  · intro rec hrec
    rw [hnone] at hrec
    cases hrec
  · intro i hi
    rw [(hquiet i).2.1] at hi
    cases hi
  · intro i r a hi
    obtain ⟨r', hr'⟩ := h.start i
    rw [hi] at hr'
    cases hr'
  · intro i
    obtain ⟨r, hr⟩ := h.start i
    rw [hr]
    exact h.same i i r r hr hr

/-- One copy executes, everybody else gets its answer: at most one session is opened and at
most one mail is sent. -/
theorem retries_execute_once {key : String} {start v : RetryPool ι} {p : List (RetryPool ι × Turn ι)}
    (hstart : Launch c key start) (h : Runs (retryPool g c key ι) start p v)
    (hp : Meets Uncontended p) :
    (∀ i j, (v.thread i).won = true → (v.thread j).won = true → i = j) ∧
      (∀ i r ran a, v.thread i = .answered r ran a → a.failed = false →
        ∃ j, (v.thread j).won = true ∧ (v.thread j).response = some a) ∧
      (∀ s s', (v.shared.world.redis.session s ≠ none ∧ start.shared.world.redis.session s = none) →
        (v.shared.world.redis.session s' ≠ none ∧ start.shared.world.redis.session s' = none) →
          s = s') ∧
      v.shared.world.sentEmails.length ≤ start.shared.world.sentEmails.length + 1 := by
  obtain ⟨operation, idempotencyKey, hen, rfl, hcons, hacc⟩ := hstart.consistent (g := g)
  obtain ⟨hv, ha⟩ : Consistent g c operation idempotencyKey v ∧ Accounted start v := by
    refine h.invariant_of_meets (fun v => Consistent g c operation idempotencyKey v ∧ Accounted start v)
      Uncontended ?_ hp ⟨hcons, hacc⟩
    intro s l u hI hl hs
    exact consistent_step hen hI.1 hI.2 hl hs
  have hunique : ∀ i j, (v.thread i).won = true → (v.thread j).won = true → i = j := by
    intro i j hi hj
    by_contra hij
    obtain ⟨r, a, -, ⟨-, hb⟩ | ⟨-, hs⟩⟩ := Retry.won_cases hi
    · obtain ⟨r', a', -, ⟨-, hb'⟩ | ⟨-, hs'⟩⟩ := Retry.won_cases hj
      · rw [hv.lone i j hij hb] at hb'
        cases hb'
      · obtain ⟨rec, hrec, -⟩ := hv.kept j hs'
        rw [hv.vacant i hb] at hrec
        cases hrec
    · obtain ⟨r', a', -, ⟨-, hb'⟩ | ⟨-, hs'⟩⟩ := Retry.won_cases hj
      · obtain ⟨rec, hrec, -⟩ := hv.kept i hs
        rw [hv.vacant j hb'] at hrec
        cases hrec
      · rw [hv.once i j hij hs] at hs'
        cases hs'
  refine ⟨hunique, ?_, ?_, ha.mails⟩
  · intro i r ran a hi hok
    cases ran with
    | true =>
      refine ⟨i, ?_, ?_⟩
      · rw [hi, Retry.won, hok]
        rfl
      · rw [hi]
        rfl
    | false =>
      obtain ⟨rec, hrec, rfl⟩ := hv.replayed i r a hi hok
      obtain ⟨-, j, r', hj⟩ := hv.recorded rec hrec
      refine ⟨j, ?_, ?_⟩
      · rw [hj, Retry.won, hok]
        rfl
      · rw [hj]
        rfl
  · rintro s s' ⟨hs, hnew⟩ ⟨hs', hnew'⟩
    obtain ⟨i, hi, his⟩ := (ha.sessions s hs).resolve_left (fun hne => hne hnew)
    obtain ⟨j, hj, hjs⟩ := (ha.sessions s' hs').resolve_left (fun hne => hne hnew')
    obtain rfl := hunique i j hi hj
    exact Option.some.inj (his.symm.trans hjs)

end Invariant

section Sample
open SampleContainer

def otherDraws : LoginDraws := ⟨nextRow, jtiTwo, rawB, tokenRow, saltTwo⟩

def loginTwice : RetryPool Bool where
  shared := ⟨initialWorld, ExpiringMap.empty⟩
  thread i := .request (.login "alice@example.com" "Passw0rd1" none none
    (if i then otherDraws else loginDraws))

theorem loginTwice_launch : Launch aliceByVariable (makeKey "login" "key-1") loginTwice where
  enrolled := ⟨"login", "key-1", by decide +kernel, rfl⟩
  start _ := ⟨_, rfl⟩
  same i j r r' hi hj := by
    cases hi
    cases hj
    exact ⟨rfl, rfl, rfl⟩
  unused := rfl
  session := initialWorld_fresh

abbrev retryStep (_ : Bool) (b : Backend) (t : Retry) : Option (Backend × Retry) :=
  t.step sample aliceByVariable b

def afterwards : List (Move Bool Backend) := [.run false, .run false, .run false, .run true]

theorem retries_execute_once_afterwards :
    ∃ p v, Runs (retryPool sample aliceByVariable (makeKey "login" "key-1") Bool) loginTwice p v ∧
      (∀ i j, (v.thread i).won = true → (v.thread j).won = true → i = j) ∧
      (∀ i r ran a, v.thread i = .answered r ran a → a.failed = false →
        ∃ j, (v.thread j).won = true ∧ (v.thread j).response = some a) ∧
      (∀ s s', (v.shared.world.redis.session s ≠ none ∧ loginTwice.shared.world.redis.session
        s = none) →
        (v.shared.world.redis.session s' ≠ none ∧ loginTwice.shared.world.redis.session s' = none) →
          s = s') ∧
      v.shared.world.sentEmails.length ≤ loginTwice.shared.world.sentEmails.length + 1 := by
  obtain ⟨v, hv⟩ : ∃ v, playMeeting Uncontended retryStep afterwards loginTwice = some v := by
    have hsome : (playMeeting Uncontended retryStep afterwards loginTwice).isSome = true := by
      decide +kernel
    exact Option.isSome_iff_exists.1 hsome
  obtain ⟨p, hp, hmeets⟩ : ∃ p,
      Runs (retryPool sample aliceByVariable (makeKey "login" "key-1") Bool) loginTwice p v ∧
        Meets Uncontended p :=
    playMeeting_runs (fun _ _ _ _ _ hs => hs) (by simp [afterwards]) hv
  exact ⟨p, v, hp, retries_execute_once loginTwice_launch hp hmeets⟩

def bothLookUp : List (Move Bool Backend) :=
  [.run false, .run true, .run false, .run true, .run false, .run true]

/-- Both execute, and two sessions are opened. -/
theorem overlapping_retries_execute_twice :
    ∃ p v, Launch aliceByVariable (makeKey "login" "key-1") loginTwice ∧
      Runs (retryPool sample aliceByVariable (makeKey "login" "key-1") Bool) loginTwice p v ∧
      (v.thread false).won = true ∧ (v.thread true).won = true ∧
      v.shared.world.redis.session sessionOne ≠ none ∧ v.shared.world.redis.session nextRow ≠ none ∧
      sessionOne ≠ nextRow := by
  obtain ⟨v, hv⟩ : ∃ v, play retryStep bothLookUp loginTwice = some v := by
    have hsome : (play retryStep bothLookUp loginTwice).isSome = true := by decide +kernel
    exact Option.isSome_iff_exists.1 hsome
  have hend : (play retryStep bothLookUp loginTwice).map (fun v =>
      ((v.thread false).won && (v.thread true).won,
        (v.shared.world.redis.session sessionOne).isSome &&
          (v.shared.world.redis.session nextRow).isSome)) =
      some (true, true) := by
    decide +kernel
  rw [hv, Option.map_some, Option.some.injEq, Prod.mk.injEq, Bool.and_eq_true, Bool.and_eq_true] at hend
  obtain ⟨⟨hfalse, htrue⟩, hone, hnext⟩ := hend
  obtain ⟨p, hp⟩ : ∃ p,
      Runs (retryPool sample aliceByVariable (makeKey "login" "key-1") Bool) loginTwice p v :=
    play_runs (fun _ _ _ _ _ hs => hs) (by simp [bothLookUp]) hv
  refine ⟨p, v, loginTwice_launch, hp, hfalse, htrue, ?_, ?_, by decide⟩
  · exact Option.isSome_iff_ne_none.1 hone
  · exact Option.isSome_iff_ne_none.1 hnext

end Sample

end AuthService.IdempotentRetries
