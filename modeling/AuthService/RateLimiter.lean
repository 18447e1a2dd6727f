import AuthService.RedisSessions
import AuthService.ThreadPools

set_option autoImplicit false

/-! The fixed-window counters in Redis and `RateLimiter.check`, one command at a time. -/
namespace AuthService.RateLimiter
open PythonText ExpiringMaps RedisSessions LabelledRuns ThreadPools

structure Counters where
  now : ℕ
  count : ExpiringMap String ℕ

def Counters.blank (now : ℕ) : Counters := ⟨now, ExpiringMap.empty⟩

def Counters.advance (d : ℕ) (c : Counters) : Counters :=
  ⟨c.now + d, c.count.purge (c.now + d)⟩

/-- SET key 0 EX window NX. -/
def setNx (key : String) (window : ℕ) (c : Counters) : Counters :=
  match c.count key with
  | none => { c with count := c.count.put key 0 (c.now + seconds window) }
  | some _ => c

/-- INCR: an existing key keeps its lifetime, a new one has none. -/
def incr (key : String) (c : Counters) : ℕ × Counters :=
  ((c.count.value key).getD 0 + 1, { c with count := c.count.modify key (fun n => n.getD 0 + 1) })

/-- TTL in seconds; -1 stands for a key without expiry and -2 for no key. -/
def ttl (key : String) (c : Counters) : ℤ :=
  match c.count key with
  | none => -2
  | some e =>
    match e.deadline with
    | none => -1
    | some d => ((d - c.now + 500) / 1000 : ℕ)

structure RateLimitExceededError where
  retryAfter : ℤ
  key : String
  deriving DecidableEq

structure Call where
  key : String
  limit : ℤ
  windowSeconds : ℕ
  deriving DecidableEq

def Call.redisKey (call : Call) : String := "rl:" ++ call.key

theorem redisKey_eq {call : Call} {k : String} : call.redisKey = "rl:" ++ k ↔ call.key = k := by
  unfold Call.redisKey
  constructor
  · intro h
    have ht := congrArg String.toList h
    rw [String.toList_append, String.toList_append, List.append_right_inj] at ht
    exact String.toList_inj.1 ht
  · rintro rfl
    rfl

def checkIp (ip operation : String) (limit : ℤ) (windowSeconds : ℕ) : Call :=
  ⟨operation ++ ":ip:" ++ ip, limit, windowSeconds⟩

def checkEmail (u : Unicode) (email operation : String) (limit : ℤ) (windowSeconds : ℕ) : Call :=
  ⟨operation ++ ":email:" ++ strip (u.lowerText email), limit, windowSeconds⟩

/-- `retry_after` of a call that went over its limit. -/
def retryAfter (call : Call) (c : Counters) : ℤ :=
  if 0 < ttl call.redisKey c then ttl call.redisKey c else call.windowSeconds

/-- A run of `check` between two commands. -/
inductive Check where
  | start (call : Call)
  | counting (call : Call)
  | exceeded (call : Call) (count : ℕ)
  | returned (call : Call) (count : ℕ)
  | raised (call : Call) (error : RateLimitExceededError)
  deriving DecidableEq

namespace Check

def call : Check → Call
  | .start call => call
  | .counting call => call
  | .exceeded call _ => call
  | .returned call _ => call
  | .raised call _ => call

/-- What `check` makes of the answer of INCR. -/
def afterIncr (call : Call) (count : ℕ) : Check :=
  if call.limit < count then .exceeded call count else .returned call count

def step (c : Counters) : Check → Option (Counters × Check)
  | .start call => some (setNx call.redisKey call.windowSeconds c, .counting call)
  | .counting call =>
    some ((incr call.redisKey c).2, afterIncr call (incr call.redisKey c).1)
  | .exceeded call _ => some (c, .raised call ⟨retryAfter call c, call.key⟩)
  | .returned _ _ => none
  | .raised _ _ => none

@[simp] theorem afterIncr_call (call : Call) (count : ℕ) : (afterIncr call count).call = call := by
  unfold afterIncr
  split_ifs <;> rfl

theorem step_cases {c c' : Counters} {t t' : Check} (h : t.step c = some (c', t')) :
    (∃ call, t = .start call ∧ c' = setNx call.redisKey call.windowSeconds c ∧
        t' = .counting call) ∨
      (∃ call, t = .counting call ∧ c' = (incr call.redisKey c).2 ∧
        t' = afterIncr call (incr call.redisKey c).1) ∨
      ∃ call n, t = .exceeded call n ∧ c' = c ∧ ∃ e, t' = .raised call e := by
  cases t with
  | start call =>
    cases h
    exact .inl ⟨call, rfl, rfl, rfl⟩
  | counting call =>
    cases h
    exact .inr (.inl ⟨call, rfl, rfl, rfl⟩)
  | exceeded call n =>
    cases h
    exact .inr (.inr ⟨call, n, rfl, rfl, _, rfl⟩)
  | returned call n => simp [step] at h
  | raised call e => simp [step] at h

theorem step_call {c c' : Counters} {t t' : Check} (h : t.step c = some (c', t')) :
    t'.call = t.call := by
  rcases step_cases h with ⟨call, rfl, -, rfl⟩ | ⟨call, rfl, -, rfl⟩ | ⟨call, n, rfl, -, e, rfl⟩
  · rfl
  · exact afterIncr_call _ _
  · rfl

end Check

section Commands
variable {key k : String} {window : ℕ} {c : Counters}

@[simp] theorem setNx_now : (setNx key window c).now = c.now := by
  unfold setNx
  cases c.count key <;> rfl

@[simp] theorem incr_now : (incr key c).2.now = c.now := rfl

@[simp] theorem incr_fst : (incr key c).1 = (c.count.value key).getD 0 + 1 := rfl

theorem setNx_present {e : Entry ℕ} (h : c.count key = some e) : setNx key window c = c := by
  simp only [setNx, h]

theorem setNx_absent (h : c.count key = none) :
    (setNx key window c).count k =
      if k = key then some ⟨0, some (c.now + seconds window)⟩ else c.count k := by
  simp only [setNx, h, ExpiringMap.put_apply]

theorem setNx_other (h : k ≠ key) : (setNx key window c).count k = c.count k := by
  cases hk : c.count key with
  | none => rw [setNx_absent hk, if_neg h]
  | some e => rw [setNx_present hk]

theorem incr_count : (incr key c).2.count k =
    if k = key then some ⟨(c.count.value key).getD 0 + 1, (c.count key).bind Entry.deadline⟩
    else c.count k :=
  ExpiringMap.modify_apply key k (fun n => n.getD 0 + 1) c.count

theorem advance_count {d : ℕ} {e : Entry ℕ} : (c.advance d).count k = some e ↔
    c.count k = some e ∧ e.aliveAt (c.now + d) = true :=
  ExpiringMap.purge_eq_some

end Commands

/-- The runs take their commands in any order, and time passes between them. -/
def checkProgram (ι : Type) : Program ι Counters Check where
  step _ c t c' t' := t.step c = some (c', t')
  env c c' := ∃ d, c' = c.advance d

/-- No counter yet, and every call is about to begin. -/
structure Launch {ι : Type} (c : Pool ι Counters Check) : Prop where
  blank : ∃ now, c.shared = Counters.blank now
  start : ∀ i, ∃ call, c.thread i = .start call ∧ 0 < call.windowSeconds

def checkPool (ι : Type) [DecidableEq ι] : System (Pool ι Counters Check) (Turn ι) :=
  (checkProgram ι).system Launch

theorem step_calls {ι : Type} [DecidableEq ι] {c d : Pool ι Counters Check} {l : Turn ι}
    (h : (checkPool ι).step c l d) (i : ι) : (d.thread i).call = (c.thread i).call := by
  cases h with
  | @run s t j h =>
    by_cases hi : i = j
    · subst hi
      simpa using Check.step_call h
    · simp [Function.update_of_ne hi]
  | env h => rfl

theorem runs_calls {ι : Type} [DecidableEq ι] {s u : Pool ι Counters Check}
    {p : List (Pool ι Counters Check × Turn ι)} (h : Runs (checkPool ι) s p u) (i : ι) :
    (u.thread i).call = (s.thread i).call :=
  h.invariant (fun v => (v.thread i).call = (s.thread i).call)
    (fun _ _ _ hv hs => (step_calls hs i).trans hv) rfl

end AuthService.RateLimiter
