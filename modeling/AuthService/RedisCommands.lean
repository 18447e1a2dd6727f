import Mathlib.Data.Int.Notation
import Mathlib.Data.List.Basic
import Mathlib.Tactic.SplitIfs
import AuthService.ExpiringMaps

set_option autoImplicit false

/-! A Redis server: one map from keys to values of three types, the commands that read
and write them, and transactions of several commands. -/
namespace AuthService.RedisCommands
open ExpiringMaps

inductive Value where
  | string (text : String)
  | hash (fields : List (String × String))
  | set (members : List String)
  deriving DecidableEq

/-- The clock counts milliseconds. -/
structure Server where
  now : ℕ
  keys : ExpiringMap String Value

def field (name : String) : List (String × String) → Option String
  | [] => none
  | (n, text) :: rest => if n = name then some text else field name rest

/-- HSET of one field: the last one written counts. -/
def setField (name text : String) : List (String × String) → List (String × String)
  | [] => [(name, text)]
  | (n, old) :: rest => if n = name then (n, text) :: rest else (n, old) :: setField name text rest

def setFields (mapping fields : List (String × String)) : List (String × String) :=
  mapping.foldl (fun fields x => setField x.1 x.2 fields) fields

theorem field_setField (name other text : String) (fields : List (String × String)) :
    field other (setField name text fields) = if other = name then some text else field other
      fields := by
  induction fields with
  | nil =>
    simp only [setField, field]
    by_cases h : name = other
    · rw [if_pos h, if_pos h.symm]
    · rw [if_neg h, if_neg (Ne.symm h)]
  | cons x rest ih =>
    simp only [setField]
    by_cases hx : x.1 = name
    · rw [if_pos hx]
      simp only [field, hx]
      by_cases h : name = other
      · rw [if_pos h, if_pos h.symm]
      · rw [if_neg h, if_neg (Ne.symm h), if_neg h]
    · rw [if_neg hx]
      simp only [field, ih]
      by_cases h : x.1 = other
      · have hne : other ≠ name := fun he => hx (h.trans he)
        rw [if_pos h, if_neg hne, if_pos h]
      · rw [if_neg h, if_neg h]

theorem setField_ne_nil (name text : String) (fields : List (String × String)) :
    setField name text fields ≠ [] := by
  cases fields with
  | nil => simp [setField]
  | cons x rest =>
    simp only [setField]
    split_ifs <;> simp

theorem setFields_ne_nil {mapping : List (String × String)} (h : mapping ≠ [])
    (fields : List (String × String)) : setFields mapping fields ≠ [] := by
  induction mapping generalizing fields with
  | nil => exact absurd rfl h
  | cons x rest ih =>
    cases rest with
    | nil => exact setField_ne_nil _ _ _
    | cons y rest => exact ih (by simp) _

def maxInteger : ℕ := 9223372036854775807

/-- The number that a canonical decimal stands for. -/
def integerOf (text : String) : Option ℤ :=
  match text.toList with
  | '-' :: digits =>
    let n := Nat.ofDigitChars 10 digits 0
    if digits = Nat.toDigits 10 n ∧ n ≠ 0 then some (-(n : ℤ)) else none
  | digits =>
    let n := Nat.ofDigitChars 10 digits 0
    if digits = Nat.toDigits 10 n then some n else none

def decimal (n : ℕ) : String := String.ofList (Nat.toDigits 10 n)

theorem integerOf_decimal (n : ℕ) : integerOf (decimal n) = some (n : ℤ) := by
  have hvalue : Nat.ofDigitChars 10 (Nat.toDigits 10 n) 0 = n :=
    Nat.ofDigitChars_toDigits (by decide) (by decide)
  unfold integerOf decimal
  rw [String.toList_ofList]
  split
  · rename_i digits hd
    have hmem : '-' ∈ Nat.toDigits 10 n := by rw [hd]; simp
    have hdigit := Nat.isDigit_of_mem_toDigits (by decide) (by decide) hmem
    exact absurd hdigit (by decide)
  · simp only [hvalue, if_true]

theorem repr_decimal (n : ℕ) : (n : ℤ).repr = decimal n := rfl

inductive CommandError where
  | wrongType
  | notAnInteger
  | overflow
  | invalidExpire
  | wrongArity
  deriving DecidableEq

inductive Reply where
  | ok
  | nil
  | integer (n : ℤ)
  | bulk (text : String)
  | fields (fields : List (String × String))
  | members (members : List String)
  | error (e : CommandError)
  deriving DecidableEq

/-- `set` is SET key value EX seconds NX. -/
inductive Command where
  | get (key : String)
  | setex (key : String) (seconds : ℕ) (text : String)
  | set (key text : String) (seconds : ℕ)
  | incr (key : String)
  | ttl (key : String)
  | getdel (key : String)
  | exists (key : String)
  | del (key : String)
  | hset (key : String) (mapping : List (String × String))
  | hgetall (key : String)
  | expire (key : String) (seconds : ℕ)
  | sadd (key member : String)
  | srem (key member : String)
  | smembers (key : String)
  deriving DecidableEq

def Command.key : Command → String
  | .get key => key
  | .setex key _ _ => key
  | .set key _ _ => key
  | .incr key => key
  | .ttl key => key
  | .getdel key => key
  | .exists key => key
  | .del key => key
  | .hset key _ => key
  | .hgetall key => key
  | .expire key _ => key
  | .sadd key _ => key
  | .srem key _ => key
  | .smembers key => key

namespace Server

def blank (now : ℕ) : Server := ⟨now, ExpiringMap.empty⟩

def advance (d : ℕ) (s : Server) : Server := ⟨s.now + d, s.keys.purge (s.now + d)⟩

def deadline (seconds : ℕ) (s : Server) : ℕ := s.now + 1000 * seconds

end Server

/-- The members of a set with one more; a member is kept once. -/
def insertMember (member : String) (members : List String) : List String :=
  if member ∈ members then members else members ++ [member]

def exec : Command → Server → Reply × Server
  | .get key, s =>
    match s.keys.value key with
    | none => (.nil, s)
    | some (.string text) => (.bulk text, s)
    | some _ => (.error .wrongType, s)
  | .setex key seconds text, s =>
    if seconds = 0 then (.error .invalidExpire, s)
    else (.ok, { s with keys := s.keys.put key (.string text) (s.deadline seconds) })
  | .set key text seconds, s =>
    if seconds = 0 then (.error .invalidExpire, s)
    else
      match s.keys key with
      | none => (.ok, { s with keys := s.keys.put key (.string text) (s.deadline seconds) })
      | some _ => (.nil, s)
  | .incr key, s =>
    match s.keys.value key with
    | none => (.integer 1, { s with keys := s.keys.modify key (fun _ => .string (decimal 1)) })
    | some (.string text) =>
      match integerOf text with
      | none => (.error .notAnInteger, s)
      | some n =>
        if (maxInteger : ℤ) ≤ n then (.error .overflow, s)
        else (.integer (n + 1), { s with keys := s.keys.modify key (fun _ => .string (n + 1).repr) })
    | some _ => (.error .wrongType, s)
  | .ttl key, s =>
    match s.keys key with
    | none => (.integer (-2), s)
    | some e =>
      match e.deadline with
      | none => (.integer (-1), s)
      | some d => (.integer ((d - s.now + 500) / 1000 : ℕ), s)
  | .getdel key, s =>
    match s.keys.value key with
    | none => (.nil, s)
    | some (.string text) => (.bulk text, { s with keys := s.keys.remove key })
    | some _ => (.error .wrongType, s)
  | .exists key, s => (.integer (if (s.keys key).isSome then 1 else 0), s)
  | .del key, s =>
    (.integer (if (s.keys key).isSome then 1 else 0), { s with keys := s.keys.remove key })
  | .hset key mapping, s =>
    if mapping = [] then (.error .wrongArity, s)
    else
      match s.keys.value key with
      | none => (.integer (setFields mapping []).length,
          { s with keys := s.keys.modify key (fun _ => .hash (setFields mapping [])) })
      | some (.hash fields) => (.integer ((setFields mapping fields).length - fields.length),
          { s with keys := s.keys.modify key (fun _ => .hash (setFields mapping fields)) })
      | some _ => (.error .wrongType, s)
  | .hgetall key, s =>
    match s.keys.value key with
    | none => (.fields [], s)
    | some (.hash fields) => (.fields fields, s)
    | some _ => (.error .wrongType, s)
  | .expire key seconds, s =>
    match s.keys key with
    | none => (.integer 0, s)
    | some _ =>
      if seconds = 0 then (.integer 1, { s with keys := s.keys.remove key })
      else (.integer 1, { s with keys := s.keys.expire key (s.deadline seconds) })
  | .sadd key member, s =>
    match s.keys.value key with
    | none => (.integer 1, { s with keys := s.keys.modify key (fun _ => .set [member]) })
    | some (.set members) => (.integer (if member ∈ members then 0 else 1),
        { s with keys := s.keys.modify key (fun _ => .set (insertMember member members)) })
    | some _ => (.error .wrongType, s)
  | .srem key member, s =>
    match s.keys.value key with
    | none => (.integer 0, s)
    | some (.set members) => (.integer (if member ∈ members then 1 else 0),
        { s with keys :=
            if members.filter (fun m => m ≠ member) = [] then s.keys.remove key
            else s.keys.modify key (fun _ => .set (members.filter (fun m => m ≠ member))) })
    | some _ => (.error .wrongType, s)
  | .smembers key, s =>
    match s.keys.value key with
    | none => (.members [], s)
    | some (.set members) => (.members members, s)
    | some _ => (.error .wrongType, s)

def execAll : List Command → Server → List Reply × Server
  | [], s => ([], s)
  | c :: cs, s =>
    let r := exec c s
    let rest := execAll cs r.2
    (r.1 :: rest.1, rest.2)

theorem exec_now (c : Command) (s : Server) : (exec c s).2.now = s.now := by
  unfold exec
  split <;> (repeat' split) <;> rfl

theorem exec_other {c : Command} {s : Server} {k : String} (h : k ≠ c.key) :
    (exec c s).2.keys k = s.keys k := by
  cases c <;> simp only [Command.key] at h <;> simp only [exec] <;> (repeat' split) <;>
    simp [ExpiringMap.put_apply, ExpiringMap.modify_apply, ExpiringMap.remove_apply,
      ExpiringMap.expire_apply, h]

theorem execAll_now (cs : List Command) (s : Server) : (execAll cs s).2.now = s.now := by
  induction cs generalizing s with
  | nil => rfl
  | cons c cs ih => exact (ih _).trans (exec_now c s)

theorem execAll_other {cs : List Command} {s : Server} {k : String} (h : ∀ c ∈ cs, k ≠ c.key) :
    (execAll cs s).2.keys k = s.keys k := by
  induction cs generalizing s with
  | nil => rfl
  | cons c cs ih =>
    refine (ih fun c' hc' => h c' (by simp [hc'])).trans ?_
    exact exec_other (h c (by simp))

section Effects
variable {key text : String} {seconds : ℕ} {s : Server}

theorem exec_setex (h : 0 < seconds) : exec (.setex key seconds text) s =
    (.ok, { s with keys := s.keys.put key (.string text) (s.deadline seconds) }) := by
  simp only [exec, if_neg (Nat.pos_iff_ne_zero.1 h)]

theorem exec_get_string {e : Option ℕ} (h : s.keys key = some ⟨.string text, e⟩) :
    exec (.get key) s = (.bulk text, s) := by
  simp only [exec, ExpiringMap.value_of_entry h]

theorem exec_get_absent (h : s.keys key = none) : exec (.get key) s = (.nil, s) := by
  simp only [exec, ExpiringMap.value_eq_none.2 h]

theorem exec_getdel_string {e : Option ℕ} (h : s.keys key = some ⟨.string text, e⟩) :
    exec (.getdel key) s = (.bulk text, { s with keys := s.keys.remove key }) := by
  simp only [exec, ExpiringMap.value_of_entry h]

theorem exec_getdel_absent (h : s.keys key = none) : exec (.getdel key) s = (.nil, s) := by
  simp only [exec, ExpiringMap.value_eq_none.2 h]

theorem exec_hgetall_hash {fields : List (String × String)} {e : Option ℕ}
    (h : s.keys key = some ⟨.hash fields, e⟩) : exec (.hgetall key) s = (.fields fields, s) := by
  simp only [exec, ExpiringMap.value_of_entry h]

theorem exec_hgetall_absent (h : s.keys key = none) : exec (.hgetall key) s = (.fields [], s) := by
  simp only [exec, ExpiringMap.value_eq_none.2 h]

theorem exec_smembers_set {members : List String} {e : Option ℕ}
    (h : s.keys key = some ⟨.set members, e⟩) : exec (.smembers key) s = (.members members, s) := by
  simp only [exec, ExpiringMap.value_of_entry h]

theorem exec_smembers_absent (h : s.keys key = none) : exec (.smembers key) s = (.members [], s) := by
  simp only [exec, ExpiringMap.value_eq_none.2 h]

theorem exec_hset_hash {mapping fields : List (String × String)} {e : Option ℕ} (hm : mapping ≠ [])
    (h : s.keys key = some ⟨.hash fields, e⟩) : ∃ n, exec (.hset key mapping) s = (.integer n,
      { s with keys := Function.update s.keys key (some ⟨.hash (setFields mapping fields), e⟩) }) := by
  simp only [exec, if_neg hm, ExpiringMap.value_of_entry h, ExpiringMap.modify, h, Option.bind_some]
  exact ⟨_, rfl⟩

theorem exec_hset_absent {mapping : List (String × String)} (hm : mapping ≠ [])
    (h : s.keys key = none) : ∃ n, exec (.hset key mapping) s = (.integer n,
      { s with keys := Function.update s.keys key (some ⟨.hash (setFields mapping []), none⟩) }) := by
  simp only [exec, if_neg hm, ExpiringMap.value_eq_none.2 h, ExpiringMap.modify, h, Option.bind_none]
  exact ⟨_, rfl⟩

/-- EXPIRE does nothing to an absent key. -/
theorem exec_expire (key : String) (s : Server) (h : 0 < seconds) : ∃ n, exec (.expire key seconds) s =
    (.integer n, { s with keys := s.keys.expire key (s.deadline seconds) }) := by
  cases hk : s.keys key with
  | none =>
    refine ⟨0, ?_⟩
    have hsame : s.keys.expire key (s.deadline seconds) = s.keys := by
      rw [ExpiringMap.expire, hk, Option.map_none, ← hk, Function.update_eq_self]
    simp only [exec, hk, hsame]
  | some e =>
    refine ⟨1, ?_⟩
    simp only [exec, hk, if_neg (Nat.pos_iff_ne_zero.1 h)]

theorem exec_sadd_set {members : List String} (member : String) {e : Option ℕ}
    (h : s.keys key = some ⟨.set members, e⟩) : ∃ n, exec (.sadd key member) s = (.integer n,
      { s with keys := Function.update s.keys key (some ⟨.set (insertMember member members), e⟩)
        }) := by
  simp only [exec, ExpiringMap.value_of_entry h, ExpiringMap.modify, h, Option.bind_some]
  exact ⟨_, rfl⟩

theorem exec_sadd_absent (member : String) (h : s.keys key = none) :
    ∃ n, exec (.sadd key member) s = (.integer n,
      { s with keys := Function.update s.keys key (some ⟨.set [member], none⟩) }) := by
  simp only [exec, ExpiringMap.value_eq_none.2 h, ExpiringMap.modify, h, Option.bind_none]
  exact ⟨_, rfl⟩

theorem exec_srem_set {members : List String} (member : String) {e : Option ℕ}
    (h : s.keys key = some ⟨.set members, e⟩) : ∃ n, exec (.srem key member) s = (.integer n,
      ⟨s.now, Function.update s.keys key
        (if members.filter (fun m => m ≠ member) = [] then none
          else some ⟨.set (members.filter (fun m => m ≠ member)), e⟩)⟩) := by
  simp only [exec, ExpiringMap.value_of_entry h, ExpiringMap.modify, h, Option.bind_some]
  refine ⟨if member ∈ members then 1 else 0, ?_⟩
  by_cases hnil : members.filter (fun m => m ≠ member) = []
  · simp only [if_pos hnil, ExpiringMap.remove]
  · simp only [if_neg hnil]

theorem exec_srem_absent {member : String} (h : s.keys key = none) :
    exec (.srem key member) s = (.integer 0, s) := by
  simp only [exec, ExpiringMap.value_eq_none.2 h]

theorem exec_set_absent (hs : 0 < seconds) (h : s.keys key = none) : exec (.set key text seconds) s =
    (.ok, { s with keys := s.keys.put key (.string text) (s.deadline seconds) }) := by
  simp only [exec, if_neg (Nat.pos_iff_ne_zero.1 hs), h]

theorem exec_set_present (hs : 0 < seconds) {e : Entry Value} (h : s.keys key = some e) :
    exec (.set key text seconds) s = (.nil, s) := by
  simp only [exec, if_neg (Nat.pos_iff_ne_zero.1 hs), h]

theorem exec_incr_absent (h : s.keys key = none) : exec (.incr key) s = (.integer 1,
    { s with keys := Function.update s.keys key (some ⟨.string (decimal 1), none⟩) }) := by
  simp only [exec, ExpiringMap.value_eq_none.2 h, ExpiringMap.modify, h, Option.bind_none]

theorem exec_incr_decimal {n : ℕ} {e : Option ℕ} (hn : n < maxInteger)
    (h : s.keys key = some ⟨.string (decimal n), e⟩) : exec (.incr key) s = (.integer (n + 1 : ℕ),
      { s with keys := Function.update s.keys key (some ⟨.string (decimal (n + 1)), e⟩) }) := by
  have hle : ¬ (maxInteger : ℤ) ≤ n := by omega
  have hrepr : ((n : ℤ) + 1).repr = decimal (n + 1) := repr_decimal (n + 1)
  simp only [exec, ExpiringMap.value_of_entry h, integerOf_decimal, if_neg hle, ExpiringMap.modify, h,
    Option.bind_some, hrepr, Int.natCast_succ]

end Effects

/-- An entry whose value stands for a typed one; the deadlines are the same. -/
inductive EntryFor {β : Type} (R : Value → β → Prop) :
    Option (Entry Value) → Option (Entry β) → Prop where
  | absent : EntryFor R none none
  | present {v : Value} {b : β} {d : Option ℕ} (h : R v b) : EntryFor R (some ⟨v, d⟩) (some ⟨b, d⟩)

section EntryFor
variable {β : Type} {R : Value → β → Prop} {x : Option (Entry Value)} {y : Option (Entry β)}

theorem EntryFor.isSome (h : EntryFor R x y) : x.isSome = y.isSome := by
  cases h <;> rfl

theorem EntryFor.purge (now : ℕ) (h : EntryFor R x y) :
    EntryFor R (x.filter (fun e => e.aliveAt now)) (y.filter (fun e => e.aliveAt now)) := by
  cases h with
  | absent => exact .absent
  | @present v b d hR =>
    simp only [Option.filter_some, Entry.aliveAt]
    split_ifs
    · exact .present hR
    · exact .absent

theorem EntryFor.expire (d : ℕ) (h : EntryFor R x y) :
    EntryFor R (x.map (fun e => ⟨e.value, some d⟩)) (y.map (fun e => ⟨e.value, some d⟩)) := by
  cases h with
  | absent => exact .absent
  | present hR => exact .present hR

end EntryFor

end AuthService.RedisCommands
