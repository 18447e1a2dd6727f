import AuthService.IdempotencyExtension
import AuthService.JsonReader
import AuthService.LabelledRuns

set_option autoImplicit false

/-! Idempotency records as the texts that Redis holds: what the first successful execution
leaves under a key, and what later requests with that key are answered. -/
namespace AuthService.IdempotencyRecords
open JsonText JsonReader GraphqlDocuments ExpiringMaps RedisSessions LabelledRuns IdempotencyExtension

/-- The data of a response, a dictionary of JSON trees. -/
structure ResponseData where
  fields : List (String × Json)
  wellFormed : wellFormed (.object fields) = true

def ResponseData.json (data : ResponseData) : Json := .object data.fields

structure Execution where
  data : Option ResponseData
  errors : List GraphQLError
  complete : data = none → errors ≠ []

def Execution.result (e : Execution) : ExecutionResult Json :=
  ⟨e.data.map ResponseData.json, e.errors⟩

structure RecordStore where
  now : ℕ
  texts : ExpiringMap String String

/-- What GET and `json.loads` give. -/
inductive Fetched where
  | absent
  | malformed
  | value (cached : Json)

namespace RecordStore

def get (key : String) (s : RecordStore) : Fetched :=
  match s.texts.value key with
  | none => .absent
  | some text =>
    match loads text with
    | none => .malformed
    | some cached => .value cached

/-- SETEX with `json.dumps`. -/
def set (key : String) (value : Json) (s : RecordStore) : RecordStore :=
  { s with texts := s.texts.put key value.dumps (s.now + seconds recordTtl) }

def advance (d : ℕ) (s : RecordStore) : RecordStore := ⟨s.now + d, s.texts.purge (s.now + d)⟩

end RecordStore

def recordValue (requestHash : String) (response : Json) : Json :=
  .object [("request_hash", .string requestHash), ("response", response)]

/-- The state of the hook when it yields; a malformed record makes it raise. -/
inductive Opened where
  | skipped
  | missed
  | answered (result : ExecutionResult Json)
  | raised

/-- `cached.get("request_hash") == request_hash`. -/
def sameHash (fields : Variables) (requestHash : String) : Bool :=
  match fields.get "request_hash" with
  | some (.string hash) => hash = requestHash
  | _ => false

structure Served where
  ran : Bool
  result : Option (ExecutionResult Json)

section Extension
variable (sha256 : String → String)

/-- `on_execute` up to its `yield`. -/
def beforeYield (c : ExecutionContext) (s : RecordStore) : Opened :=
  match c.enrolled with
  | none => .skipped
  | some (operation, key) =>
    match s.get (makeKey operation key) with
    | .absent => .missed
    | .malformed => .raised
    | .value .null => .missed
    | .value (.object fields) =>
      if sameHash fields (sha256 (c.hashInput operation)) then
        match Variables.get fields "response" with
        | none => .raised
        | some response => .answered ⟨some response, []⟩
      else .answered conflictResult
    | .value _ => .raised

/-- `on_execute` behind the `yield` of a miss. -/
def afterYield (c : ExecutionContext) (result : ExecutionResult Json) (s : RecordStore) : RecordStore :=
  match c.enrolled, result.data with
  | some (operation, key), some data =>
    if result.errors = [] then
      s.set (makeKey operation key) (recordValue (sha256 (c.hashInput operation)) data)
    else s
  | _, _ => s

/-- A request whose mutation, if it is executed, returns `e`. -/
def serve (c : ExecutionContext) (e : Execution) (s : RecordStore) : Served × RecordStore :=
  match beforeYield sha256 c s with
  | .skipped => (⟨true, some e.result⟩, s)
  | .missed => (⟨true, some e.result⟩, afterYield sha256 c e.result s)
  | .answered result => (⟨false, some result⟩, s)
  | .raised => (⟨false, none⟩, s)

end Extension

section Records
variable {sha256 : String → String} {c : ExecutionContext} {operation idempotencyKey : String}

theorem recordValue_loads (hash : String) (data : ResponseData) :
    loads (recordValue hash data.json).dumps = some (recordValue hash data.json) := by
  refine loads_dumps ?_
  have hdata := data.wellFormed
  simp only [recordValue, ResponseData.json, wellFormed, wellFormedFields, Bool.and_true, Bool.true_and]
  rw [wellFormed] at hdata
  rw [hdata]
  rfl

theorem get_written {key : String} {hash : String} {data : ResponseData} {s : RecordStore}
    (h : s.texts.value key = some (recordValue hash data.json).dumps) :
    s.get key = .value (recordValue hash data.json) := by
  simp only [RecordStore.get, h, recordValue_loads]

theorem serve_absent (hen : c.enrolled = some (operation, idempotencyKey)) {s : RecordStore}
    (h : s.texts (makeKey operation idempotencyKey) = none) (e : Execution) :
    serve sha256 c e s = (⟨true, some e.result⟩, afterYield sha256 c e.result s) := by
  have hvalue : s.texts.value (makeKey operation idempotencyKey) = none := ExpiringMap.value_eq_none.2 h
  simp only [serve, beforeYield, hen, RecordStore.get, hvalue]

theorem serve_written (hen : c.enrolled = some (operation, idempotencyKey)) {s : RecordStore}
    {hash : String} {data : ResponseData}
    (h : s.texts.value (makeKey operation idempotencyKey) = some (recordValue hash data.json).dumps)
    (e : Execution) :
    serve sha256 c e s =
      (⟨false, some (if sha256 (c.hashInput operation) = hash then ⟨some data.json, []⟩
        else conflictResult)⟩, s) := by
  have hhash : sameHash [("request_hash", .string hash), ("response", data.json)]
      (sha256 (c.hashInput operation)) = decide (hash = sha256 (c.hashInput operation)) := rfl
  have hresponse : Variables.get [("request_hash", .string hash), ("response", data.json)] "response" =
      some data.json := rfl
  simp only [serve, beforeYield, hen, get_written h, recordValue, hhash, decide_eq_true_eq, hresponse]
  by_cases heq : hash = sha256 (c.hashInput operation)
  · simp only [if_pos heq, if_pos heq.symm]
  · simp only [if_neg heq, if_neg (Ne.symm heq)]

theorem afterYield_errors {result : ExecutionResult Json} (h : result.errors ≠ []) (s : RecordStore) :
    afterYield sha256 c result s = s := by
  unfold afterYield
  split
  · rw [if_neg h]
  · rfl

theorem afterYield_success (hen : c.enrolled = some (operation, idempotencyKey)) {e : Execution}
    {data : ResponseData} (hdata : e.data = some data) (herrors : e.errors = []) (s : RecordStore) :
    afterYield sha256 c e.result s = s.set (makeKey operation idempotencyKey)
      (recordValue (sha256 (c.hashInput operation)) data.json) := by
  simp only [afterYield, hen, Execution.result, hdata, herrors, Option.map_some, if_true]

end Records

def written (t : IdempotencyStore ResponseData) : RecordStore :=
  ⟨t.now, fun k => (t.records k).map fun r =>
    ⟨(recordValue r.value.requestHash r.value.response.json).dumps, r.deadline⟩⟩

def jsonResult (result : ExecutionResult ResponseData) : ExecutionResult Json :=
  ⟨result.data.map ResponseData.json, result.errors⟩

section Refinement
variable {sha256 : String → String} {c : ExecutionContext}

theorem written_advance (d : ℕ) (t : IdempotencyStore ResponseData) :
    (written t).advance d = written (t.advance d) := by
  simp only [RecordStore.advance, written, IdempotencyStore.advance, RecordStore.mk.injEq, true_and]
  funext k
  simp only [ExpiringMap.purge]
  cases t.records k with
  | none => rfl
  | some r =>
    simp only [Option.map_some, Option.filter_some, Entry.aliveAt]
    split_ifs <;> rfl

theorem written_set (key hash : String) (data : ResponseData) (t : IdempotencyStore ResponseData) :
    (written t).set key (recordValue hash data.json) = written (t.set key ⟨hash, data⟩) := by
  simp only [RecordStore.set, written, IdempotencyStore.set, RecordStore.mk.injEq, true_and]
  funext k
  simp only [ExpiringMap.put_apply]
  split_ifs <;> rfl

/-- The extension over the texts does what it does over the records. -/
theorem serve_refines (e : Execution) (t : IdempotencyStore ResponseData) :
    (serve sha256 c e (written t)).1.result =
        some (jsonResult (onExecute sha256 c ⟨e.data, e.errors⟩ t).1) ∧
      (serve sha256 c e (written t)).2 = written (onExecute sha256 c ⟨e.data, e.errors⟩ t).2 := by
  cases hen : c.enrolled with
  | none =>
    simp only [serve, beforeYield, hen, onExecute, lookup, and_true]
    rfl
  | some x =>
    obtain ⟨operation, key⟩ := x
    cases hrec : t.records (makeKey operation key) with
    | none =>
      have htexts : (written t).texts (makeKey operation key) = none := by simp [written, hrec]
      have hget : t.get (makeKey operation key) = none := ExpiringMap.value_eq_none.2 hrec
      rw [serve_absent hen htexts]
      simp only [onExecute, lookup, hen, hget]
      refine ⟨rfl, ?_⟩
      cases hdata : e.data with
      | none => simp only [afterYield, Execution.result, hdata, persist, hen, Option.map_none]
      | some data =>
        simp only [afterYield, Execution.result, hdata, persist, hen, Option.map_some]
        split_ifs
        · exact written_set _ _ _ _
        · rfl
    | some r =>
      have hvalue : (written t).texts.value (makeKey operation key) =
          some (recordValue r.value.requestHash r.value.response.json).dumps := by
        simp [written, ExpiringMap.value, hrec]
      have hget : t.get (makeKey operation key) = some r.value := ExpiringMap.value_of_entry hrec
      rw [serve_written hen hvalue]
      simp only [onExecute, lookup, hen, hget]
      by_cases hhash : r.value.requestHash = sha256 (c.hashInput operation)
      · rw [if_pos hhash, if_pos hhash.symm]
        exact ⟨rfl, rfl⟩
      · rw [if_neg hhash, if_neg (Ne.symm hhash)]
        exact ⟨rfl, rfl⟩

end Refinement

inductive Arrival where
  | request (c : ExecutionContext) (e : Execution)
  | wait (d : ℕ)

/-- Requests that the extension files under one key, one after the other. -/
inductive RecordStep (sha256 : String → String) (operation idempotencyKey : String) :
    RecordStore → Arrival → RecordStore → Prop where
  | request {s : RecordStore} {c : ExecutionContext} (e : Execution)
      (enrolled : c.enrolled = some (operation, idempotencyKey)) :
      RecordStep sha256 operation idempotencyKey s (.request c e) (serve sha256 c e s).2
  | wait {s : RecordStore} (d : ℕ) :
      RecordStep sha256 operation idempotencyKey s (.wait d) (s.advance d)

def recordRuns (sha256 : String → String) (operation idempotencyKey : String) :
    System RecordStore Arrival where
  init s := s.texts (makeKey operation idempotencyKey) = none
  step := RecordStep sha256 operation idempotencyKey

def Arrival.duration : Arrival → ℕ
  | .request _ _ => 0
  | .wait d => d

def elapsed (p : List (RecordStore × Arrival)) : ℕ := (p.map fun x => x.2.duration).sum

def Failing (_ : RecordStore) : Arrival → Prop
  | .request _ e => e.errors ≠ []
  | .wait _ => True

section Sequences
variable {sha256 : String → String} {operation idempotencyKey : String}

theorem failing_vacant {s s' : RecordStore} {p : List (RecordStore × Arrival)}
    (h : Runs (recordRuns sha256 operation idempotencyKey) s p s') (hp : Meets Failing p)
    (hs : s.texts (makeKey operation idempotencyKey) = none) :
    s'.texts (makeKey operation idempotencyKey) = none := by
  refine h.invariant_of_meets (fun s => s.texts (makeKey operation idempotencyKey) = none) Failing
    ?_ hp hs
  intro s l u hI hl hs
  cases hs with
  | request e hen =>
    rw [serve_absent hen hI]
    change (afterYield sha256 _ e.result s).texts _ = none
    rw [afterYield_errors (show e.result.errors ≠ [] from hl)]
    exact hI
  | wait d => exact ExpiringMap.purge_eq_none_of_none hI

theorem written_kept {s s' : RecordStore} {p : List (RecordStore × Arrival)}
    (h : Runs (recordRuns sha256 operation idempotencyKey) s p s') {hash : String} {data : ResponseData}
    {deadline : ℕ}
    (hs : s.texts (makeKey operation idempotencyKey) =
      some ⟨(recordValue hash data.json).dumps, some deadline⟩)
    (hlast : s.now + elapsed p < deadline) :
    s'.now = s.now + elapsed p ∧ s'.texts (makeKey operation idempotencyKey) =
      some ⟨(recordValue hash data.json).dumps, some deadline⟩ := by
  induction h with
  | refl => exact ⟨rfl, hs⟩
  | @next t u p l front hl ih =>
    have hsum : elapsed ((t, l) :: p) = l.duration + elapsed p := rfl
    rw [hsum] at hlast ⊢
    obtain ⟨hnow, htexts⟩ := ih (by omega)
    cases hl with
    | request e hen =>
      have hserve := @serve_written sha256 _ _ _ hen t hash data (ExpiringMap.value_of_entry htexts) e
      rw [hserve]
      exact ⟨by simpa [Arrival.duration] using hnow, htexts⟩
    | wait d =>
      have hd : Arrival.duration (.wait d) = d := rfl
      rw [hd] at hlast ⊢
      refine ⟨?_, ExpiringMap.purge_eq_some.2 ⟨htexts, ?_⟩⟩
      · change t.now + d = s.now + (d + elapsed p)
        omega
      · rw [Entry.aliveAt_some]
        omega

def Sound (key : String) (s : RecordStore) : Prop :=
  ∀ entry, s.texts key = some entry →
    ∃ hash data, entry.value = (recordValue hash (ResponseData.json data)).dumps

theorem sound_step {s s' : RecordStore} {l : Arrival} (h : Sound (makeKey operation idempotencyKey) s)
    (hs : RecordStep sha256 operation idempotencyKey s l s') :
    Sound (makeKey operation idempotencyKey) s' := by
  cases hs with
  | wait d => exact fun entry he => h entry (ExpiringMap.purge_le he)
  | @request c e hen =>
    cases htexts : s.texts (makeKey operation idempotencyKey) with
    | none =>
      rw [serve_absent hen htexts]
      by_cases herrors : e.errors = []
      · obtain ⟨data, hdata⟩ := Option.ne_none_iff_exists'.1 fun hnone => e.complete hnone herrors
        rw [afterYield_success hen hdata herrors]
        intro entry he
        simp only [RecordStore.set, ExpiringMap.put_apply, if_true, Option.some.injEq] at he
        exact ⟨sha256 (c.hashInput operation), data, by rw [← he]⟩
      · rw [afterYield_errors (show e.result.errors ≠ [] from herrors)]
        exact h
    | some entry =>
      obtain ⟨hash, data, hentry⟩ := h entry htexts
      have hvalue := ExpiringMap.value_of_entry htexts
      rw [hentry] at hvalue
      rw [serve_written hen hvalue]
      exact h

theorem vacant_of_ran {c : ExecutionContext} (hen : c.enrolled = some (operation, idempotencyKey))
    {s : RecordStore} (h : Sound (makeKey operation idempotencyKey) s) {e : Execution}
    (hran : (serve sha256 c e s).1.ran = true) : s.texts (makeKey operation idempotencyKey) = none := by
  cases htexts : s.texts (makeKey operation idempotencyKey) with
  | none => rfl
  | some entry =>
    obtain ⟨hash, data, hentry⟩ := h entry htexts
    have hvalue := ExpiringMap.value_of_entry htexts
    rw [hentry] at hvalue
    rw [serve_written hen hvalue] at hran
    cases hran

/-- Before the first success every request executes; from the first success on, its record
stays and answers every request until it expires. -/
theorem records_write_once {start s : RecordStore} {p : List (RecordStore × Arrival)}
    (hstart : (recordRuns sha256 operation idempotencyKey).init start)
    (h : Runs (recordRuns sha256 operation idempotencyKey) start p s) :
    (Meets Failing p → ∀ c e, c.enrolled = some (operation, idempotencyKey) →
      (serve sha256 c e s).1 = ⟨true, some e.result⟩ ∧
        (e.errors ≠ [] → (serve sha256 c e s).2.get (makeKey operation idempotencyKey) = .absent)) ∧
    (∀ newer t c₀ e₀ older, p = newer ++ (t, .request c₀ e₀) :: older →
      (serve sha256 c₀ e₀ t).1.ran = true → e₀.errors = [] → elapsed newer < seconds recordTtl →
      ∃ data, e₀.data = some data ∧
        s.texts (makeKey operation idempotencyKey) =
          some ⟨(recordValue (sha256 (c₀.hashInput operation)) data.json).dumps,
            some (t.now + seconds recordTtl)⟩ ∧
        ∀ c e, c.enrolled = some (operation, idempotencyKey) →
          serve sha256 c e s = (⟨false, some (if sha256 (c.hashInput operation) =
            sha256 (c₀.hashInput operation) then ⟨some data.json, []⟩ else conflictResult)⟩, s)) := by
  refine ⟨?_, ?_⟩
  · intro hp c e hen
    have hvacant := failing_vacant h hp hstart
    rw [serve_absent hen hvacant]
    refine ⟨rfl, fun herrors => ?_⟩
    have hvalue : s.texts.value (makeKey operation idempotencyKey) = none :=
      ExpiringMap.value_eq_none.2 hvacant
    simp only [afterYield_errors (show e.result.errors ≠ [] from herrors), RecordStore.get, hvalue]
  · rintro newer t c₀ e₀ older rfl hran herrors htime
    obtain ⟨data, hdata⟩ := Option.ne_none_iff_exists'.1 fun hnone => e₀.complete hnone herrors
    obtain ⟨v, hfront, hstep, hrest⟩ := h.split
    have hsound : Sound (makeKey operation idempotencyKey) t := by
      refine hfront.invariant (Sound (makeKey operation idempotencyKey))
        (fun _ _ _ hI hs => sound_step hI hs) ?_
      intro entry he
      rw [hstart] at he
      cases he
    cases hstep with
    | request _ hen =>
      rw [serve_absent hen (vacant_of_ran hen hsound hran),
        afterYield_success hen hdata herrors] at hrest
      have hset : (t.set (makeKey operation idempotencyKey)
          (recordValue (sha256 (c₀.hashInput operation)) data.json)).texts
            (makeKey operation idempotencyKey) =
          some ⟨(recordValue (sha256 (c₀.hashInput operation)) data.json).dumps,
            some (t.now + seconds recordTtl)⟩ := by
        simp only [RecordStore.set, ExpiringMap.put_apply, if_true]
      obtain ⟨-, htexts⟩ := written_kept hrest hset
        (show t.now + elapsed newer < t.now + seconds recordTtl by omega)
      refine ⟨data, hdata, htexts, fun c e hc => ?_⟩
      exact serve_written hc (ExpiringMap.value_of_entry htexts) e

end Sequences

section Sample

def tokens : ResponseData :=
  ⟨[("login", .object [("accessToken", .string "secret"), ("refreshToken", .string "secret")])],
    by decide +kernel⟩

def loggedIn : Execution := ⟨some tokens, [], by simp⟩

def emptyStore : RecordStore := ⟨0, ExpiringMap.empty⟩

/-- A login, an hour later the same login, and then another one. -/
theorem records_write_once_login :
    ∃ p s, Runs (recordRuns digest "login" "key-1") emptyStore p s ∧
      serve digest aliceByVariable loggedIn s = (⟨false, some ⟨some tokens.json, []⟩⟩, s) ∧
      serve digest bobByVariable loggedIn s = (⟨false, some conflictResult⟩, s) := by
  have hen : aliceByVariable.enrolled = some ("login", "key-1") := by decide +kernel
  have hbob : bobByVariable.enrolled = some ("login", "key-1") := by decide +kernel
  have hrun : Runs (recordRuns digest "login" "key-1") emptyStore
      [((serve digest aliceByVariable loggedIn emptyStore).2, .wait (seconds 3600)),
        (emptyStore, .request aliceByVariable loggedIn)]
      ((serve digest aliceByVariable loggedIn emptyStore).2.advance (seconds 3600)) :=
    .next (.single (RecordStep.request loggedIn hen)) (RecordStep.wait _)
  have hran : (serve digest aliceByVariable loggedIn emptyStore).1.ran = true := by
    rw [serve_absent hen rfl]
  have hstart : (recordRuns digest "login" "key-1").init emptyStore := rfl
  have hhour : elapsed [((serve digest aliceByVariable loggedIn emptyStore).2, .wait (seconds 3600))] <
      seconds recordTtl := by
    change seconds 3600 + 0 < seconds recordTtl
    decide
  obtain ⟨data, hdata, -, hserve⟩ := (records_write_once hstart hrun).2 [_] emptyStore aliceByVariable
    loggedIn [] rfl hran rfl hhour
  obtain rfl : tokens = data := Option.some.inj hdata
  have hne : digest (bobByVariable.hashInput "login") ≠ digest (aliceByVariable.hashInput "login") := by
    decide +kernel
  refine ⟨_, _, hrun, ?_, ?_⟩
  · rw [hserve aliceByVariable loggedIn hen, if_pos rfl]
  · rw [hserve bobByVariable loggedIn hbob, if_neg hne]

end Sample

end AuthService.IdempotencyRecords
