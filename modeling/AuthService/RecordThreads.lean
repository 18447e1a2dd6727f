import AuthService.IdempotencyRecords
import AuthService.RedisKeyspace

set_option autoImplicit false

/-! Requests with idempotency keys next to each other: GET in front of the execution, and
SETEX behind it. -/
namespace AuthService.RecordThreads
open PythonText JsonText GraphqlDocuments ExpiringMaps RedisSessions LabelledRuns ThreadPools
open IdempotencyExtension IdempotencyRecords RedisKeyspace

/-- A request whose mutation, if it is executed, returns `e`, between its commands. -/
inductive RecordThread where
  | arriving (c : ExecutionContext) (e : Execution)
  | missed (c : ExecutionContext) (e : Execution)
  | done (c : ExecutionContext) (e : Execution) (served : Served)

namespace RecordThread

def opened (c : ExecutionContext) (e : Execution) : Opened → RecordThread
  | .skipped => .done c e ⟨true, some e.result⟩
  | .missed => .missed c e
  | .answered result => .done c e ⟨false, some result⟩
  | .raised => .done c e ⟨false, none⟩

def step (sha256 : String → String) (s : RecordStore) : RecordThread →
    Option (RecordStore × RecordThread)
  | .arriving c e => some (s, opened c e (beforeYield sha256 c s))
  | .missed c e => some (afterYield sha256 c e.result s, .done c e ⟨true, some e.result⟩)
  | .done _ _ _ => none

def request : RecordThread → ExecutionContext × Execution
  | .arriving c e => (c, e)
  | .missed c e => (c, e)
  | .done c e _ => (c, e)

def served : RecordThread → Option Served
  | .done _ _ served => some served
  | _ => none

end RecordThread

def recordProgram (sha256 : String → String) (ι : Type) : Program ι RecordStore RecordThread where
  step _ s t s' t' := t.step sha256 s = some (s', t')
  env s s' := ∃ d, s' = s.advance d

/-- Nothing is stored, and every request is about to be looked up. -/
structure Launch {ι : Type} (v : Pool ι RecordStore RecordThread) : Prop where
  blank : ∀ key, v.shared.texts key = none
  start : ∀ i, ∃ c e, v.thread i = .arriving c e

def recordPool (sha256 : String → String) (ι : Type) [DecidableEq ι] :
    System (Pool ι RecordStore RecordThread) (Turn ι) :=
  (recordProgram sha256 ι).system Launch

theorem solo_serve (sha256 : String → String) (c : ExecutionContext) (e : Execution) (s : RecordStore) :
    Alone (fun s t => RecordThread.step sha256 s t) s (.arriving c e) (serve sha256 c e s).2
      (.done c e (serve sha256 c e s).1) := by
  cases h : beforeYield sha256 c s with
  | skipped =>
    have hstep : RecordThread.step sha256 s (.arriving c e) =
        some (s, .done c e ⟨true, some e.result⟩) := by
      simp only [RecordThread.step, h, RecordThread.opened]
    simp only [serve, h]
    exact .next hstep (.refl _ _)
  | missed =>
    have hstep : RecordThread.step sha256 s (.arriving c e) = some (s, .missed c e) := by
      simp only [RecordThread.step, h, RecordThread.opened]
    simp only [serve, h]
    exact .next hstep (.next rfl (.refl _ _))
  | answered result =>
    have hstep : RecordThread.step sha256 s (.arriving c e) =
        some (s, .done c e ⟨false, some result⟩) := by
      simp only [RecordThread.step, h, RecordThread.opened]
    simp only [serve, h]
    exact .next hstep (.refl _ _)
  | raised =>
    have hstep : RecordThread.step sha256 s (.arriving c e) = some (s, .done c e ⟨false, none⟩) := by
      simp only [RecordThread.step, h, RecordThread.opened]
    simp only [serve, h]
    exact .next hstep (.refl _ _)

section Provenance
variable {sha256 : String → String} {ι : Type}

/-- A request has executed without errors under an operation and a key, and its record says so. -/
def Executed (sha256 : String → String) (v : Pool ι RecordStore RecordThread)
    (operation key hash : String)
    (data : ResponseData) : Prop :=
  ∃ j c e, v.thread j = .done c e ⟨true, some e.result⟩ ∧ c.enrolled = some (operation, key) ∧
    hash = sha256 (c.hashInput operation) ∧ e.data = some data ∧ e.errors = []

/-- The answer to a request that was not executed repeats an execution with its hash, or there
was one with another hash. -/
def Repeats (sha256 : String → String) (v : Pool ι RecordStore RecordThread) (c : ExecutionContext)
    (result : Option (ExecutionResult Json)) : Prop :=
  ∃ operation key hash data, c.enrolled = some (operation, key) ∧
    Executed sha256 v operation key hash data ∧
    result = some (if hash = sha256 (c.hashInput operation) then ⟨some data.json, []⟩
      else conflictResult)

structure Traced (sha256 : String → String) (v : Pool ι RecordStore RecordThread) : Prop where
  records : ∀ operation key entry, operation ∈ idempotentOperations →
    v.shared.texts (makeKey operation key) = some entry →
      ∃ hash data, entry.value = (recordValue hash data.json).dumps ∧
        Executed sha256 v operation key hash data
  answers : ∀ i c e result, v.thread i = .done c e ⟨false, result⟩ → Repeats sha256 v c result

theorem makeKey_inj {operation operation' key key' : String} (h : operation ∈ idempotentOperations)
    (h' : operation' ∈ idempotentOperations) :
    makeKey operation key = makeKey operation' key' ↔ operation = operation' ∧ key = key' := by
  constructor
  · intro heq
    have hrest : operation ++ ":" ++ key = operation' ++ ":" ++ key' := by
      have ht := congrArg String.toList heq
      refine String.toList_inj.1 ?_
      simpa only [makeKey, String.toList_append, List.append_assoc, List.append_cancel_left_eq] using ht
    exact (colon_append_inj (idempotent_colon _ h) (idempotent_colon _ h')).1 hrest
  · rintro ⟨rfl, rfl⟩
    rfl

theorem lookup_repeats {v : Pool ι RecordStore RecordThread} (h : Traced sha256 v)
    {c : ExecutionContext}
    {e : Execution} {result : Option (ExecutionResult Json)}
    (hdone : RecordThread.opened c e (beforeYield sha256 c v.shared) = .done c e ⟨false, result⟩) :
    Repeats sha256 v c result := by
  cases hen : c.enrolled with
  | none =>
    simp only [beforeYield, hen, RecordThread.opened, RecordThread.done.injEq, Served.mk.injEq,
      Bool.true_eq_false, false_and, and_false] at hdone
  | some x =>
    obtain ⟨operation, key⟩ := x
    obtain ⟨-, hop, -, -⟩ := ExecutionContext.enrolled_some.1 hen
    have hserve : (serve sha256 c e v.shared).1 = ⟨false, result⟩ := by
      cases hb : beforeYield sha256 c v.shared <;>
        simp_all [serve, RecordThread.opened]
    cases hkey : v.shared.texts (makeKey operation key) with
    | none =>
      rw [serve_absent hen hkey] at hserve
      cases hserve
    | some entry =>
      obtain ⟨hash, data, hvalue, hex⟩ := h.records operation key entry hop hkey
      have htext : v.shared.texts.value (makeKey operation key) =
        some (recordValue hash data.json).dumps := by
        rw [ExpiringMap.value_of_entry hkey, hvalue]
      rw [serve_written hen htext] at hserve
      refine ⟨operation, key, hash, data, hen, hex, ?_⟩
      injection hserve with _ hresult
      rw [← hresult]
      simp only [eq_comm]

variable [DecidableEq ι]

theorem done_kept {v u : Pool ι RecordStore RecordThread} {l : Turn ι}
    (hs : PoolStep (recordProgram sha256 ι) v l u) {j : ι} {c : ExecutionContext} {e : Execution}
    {served : Served} (h : v.thread j = .done c e served) : u.thread j = .done c e served := by
  cases hs with
  | env _ => exact h
  | @run s t i hi =>
    by_cases hj : j = i
    · subst hj
      change RecordThread.step sha256 v.shared (v.thread j) = _ at hi
      rw [h] at hi
      cases hi
    · simpa only [Function.update_of_ne hj] using h

theorem Executed.kept {v u : Pool ι RecordStore RecordThread} {l : Turn ι}
    (hs : PoolStep (recordProgram sha256 ι) v l u) {operation key hash : String} {data : ResponseData}
    (h : Executed sha256 v operation key hash data) : Executed sha256 u operation key hash data := by
  obtain ⟨j, c, e, hj, hrest⟩ := h
  exact ⟨j, c, e, done_kept hs hj, hrest⟩

theorem Repeats.kept {v u : Pool ι RecordStore RecordThread} {l : Turn ι}
    (hs : PoolStep (recordProgram sha256 ι) v l u) {c : ExecutionContext}
    {result : Option (ExecutionResult Json)} (h : Repeats sha256 v c result) :
    Repeats sha256 u c result := by
  obtain ⟨operation, key, hash, data, hen, hex, hresult⟩ := h
  exact ⟨operation, key, hash, data, hen, hex.kept hs, hresult⟩

theorem afterYield_cases (c : ExecutionContext) (e : Execution) (s : RecordStore) :
    afterYield sha256 c e.result s = s ∨ ∃ operation key data, c.enrolled = some (operation, key) ∧
      e.data = some data ∧ e.errors = [] ∧ afterYield sha256 c e.result s =
        s.set (makeKey operation key) (recordValue (sha256 (c.hashInput operation)) data.json) := by
  by_cases herrors : e.errors = []
  · cases hen : c.enrolled with
    | none =>
      refine .inl ?_
      simp only [afterYield, hen]
    | some x =>
      obtain ⟨data, hdata⟩ := Option.ne_none_iff_exists'.1 fun hnone => e.complete hnone herrors
      exact .inr ⟨x.1, x.2, data, rfl, hdata, herrors, afterYield_success hen hdata herrors s⟩
  · exact .inl (afterYield_errors (show e.result.errors ≠ [] from herrors) s)

theorem traced_step {v u : Pool ι RecordStore RecordThread} {l : Turn ι} (h : Traced sha256 v)
    (hs : PoolStep (recordProgram sha256 ι) v l u) : Traced sha256 u := by
  have hkept : ∀ operation key entry, operation ∈ idempotentOperations →
      v.shared.texts (makeKey operation key) = some entry →
        ∃ hash data, entry.value = (recordValue hash data.json).dumps ∧
          Executed sha256 u operation key hash data := by
    intro operation key entry hop hentry
    obtain ⟨hash, data, hvalue, hex⟩ := h.records operation key entry hop hentry
    exact ⟨hash, data, hvalue, hex.kept hs⟩
  have hkept' : ∀ i c e result, v.thread i = .done c e ⟨false, result⟩ → Repeats sha256 u c result :=
    fun i c e result hi => (h.answers i c e result hi).kept hs
  cases hs with
  | @env s henv =>
    obtain ⟨d, rfl⟩ := henv
    exact ⟨fun operation key entry hop hentry =>
      hkept operation key entry hop (ExpiringMap.purge_le hentry), hkept'⟩
  | @run s t i hi =>
    change RecordThread.step sha256 v.shared (v.thread i) = some (s, t) at hi
    cases hthread : v.thread i with
    | done c e served =>
      rw [hthread] at hi
      cases hi
    | arriving c e =>
      rw [hthread] at hi
      cases hi
      refine ⟨hkept, fun j c' e' result hj => ?_⟩
      by_cases hji : j = i
      · subst hji
        simp only [Function.update_self] at hj
        have hreq : c' = c := by
          cases hb : beforeYield sha256 c v.shared <;> rw [hb] at hj <;> cases hj <;> rfl
        have hreq' : e' = e := by
          cases hb : beforeYield sha256 c v.shared <;> rw [hb] at hj <;> cases hj <;> rfl
        subst hreq hreq'
        exact (lookup_repeats h hj).kept (PoolStep.run j (by
          change RecordThread.step sha256 v.shared (v.thread j) = _
          rw [hthread]
          rfl))
      · simp only [Function.update_of_ne hji] at hj
        exact hkept' j c' e' result hj
    | missed c e =>
      rw [hthread] at hi
      cases hi
      refine ⟨?_, ?_⟩
      · rcases afterYield_cases c e v.shared with hsame |
          ⟨operation, key, data, hen, hdata, herrors, hset⟩
        · rw [hsame] at hkept ⊢
          exact hkept
        · intro operation' key' entry hop' hentry
          obtain ⟨-, hop, -, -⟩ := ExecutionContext.enrolled_some.1 hen
          simp only [hset, RecordStore.set, ExpiringMap.put_apply] at hentry
          split_ifs at hentry with hk
          · obtain ⟨rfl, rfl⟩ := (makeKey_inj hop' hop).1 hk
            cases hentry
            refine ⟨_, data, rfl, i, c, e, ?_, hen, rfl, hdata, herrors⟩
            simp only [Function.update_self]
          · exact hkept operation' key' entry hop' hentry
      · intro j c' e' result hj
        by_cases hji : j = i
        · subst hji
          simp only [Function.update_self, RecordThread.done.injEq, Served.mk.injEq, Bool.true_eq_false,
            false_and, and_false] at hj
        · simp only [Function.update_of_ne hji] at hj
          exact hkept' j c' e' result hj

/-- Whatever the order of the lookups, executions and writes: what is stored under a key is the
result of a request with that key that was executed, and a request that was not executed is
answered with such a result, or with a conflict if the hashes differ. -/
theorem replays_repeat_executions {start v : Pool ι RecordStore RecordThread}
    {p : List (Pool ι RecordStore RecordThread × Turn ι)} (hstart : Launch start)
    (h : Runs (recordPool sha256 ι) start p v) : Traced sha256 v := by
  refine h.invariant (Traced sha256) (fun _ _ _ hI hs => traced_step hI hs) ⟨?_, ?_⟩
  · intro operation key entry _ hentry
    rw [hstart.blank] at hentry
    cases hentry
  · intro i c e result hi
    obtain ⟨c', e', hi'⟩ := hstart.start i
    rw [hi'] at hi
    cases hi

end Provenance

section Sample

def loginTwice : Pool Bool RecordStore RecordThread :=
  ⟨emptyStore, fun _ => .arriving aliceByVariable loggedIn⟩

theorem loginTwice_launch : Launch loginTwice where
  blank _ := rfl
  start _ := ⟨_, _, rfl⟩

theorem replays_repeat_executions_login :
    ∃ p v, Runs (recordPool digest Bool) loginTwice p v ∧ Traced digest v := by
  have hplay : (play (fun _ s t => RecordThread.step digest s t)
      [.run false, .run false, .run true] loginTwice).isSome = true := by decide +kernel
  obtain ⟨v, hv⟩ := Option.isSome_iff_exists.1 hplay
  obtain ⟨p, hp⟩ : ∃ p, Runs (recordPool digest Bool) loginTwice p v :=
    play_runs (fun _ _ _ _ _ h => h) (by simp) hv
  exact ⟨p, v, hp, replays_repeat_executions loginTwice_launch hp⟩

end Sample

end AuthService.RecordThreads
