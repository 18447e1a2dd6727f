import AuthService.GraphqlDocuments
import AuthService.RedisSessions
import Mathlib.Data.Set.Function

set_option autoImplicit false

/-! Idempotency keys: the records in Redis, and the extension that looks a request up
before it is executed and stores the result afterwards. -/
namespace AuthService.IdempotencyExtension
open JsonText GraphqlDocuments ExpiringMaps RedisSessions

structure IdempotencyRecord (δ : Type) where
  requestHash : String
  response : δ

structure IdempotencyStore (δ : Type) where
  now : ℕ
  records : ExpiringMap String (IdempotencyRecord δ)

def recordTtl : ℕ := 86400

def makeKey (operation idempotencyKey : String) : String :=
  "idempotency:" ++ operation ++ ":" ++ idempotencyKey

section Store
variable {δ : Type}

def IdempotencyStore.get (key : String) (s : IdempotencyStore δ) : Option (IdempotencyRecord δ) :=
  s.records.value key

def IdempotencyStore.set (key : String) (value : IdempotencyRecord δ) (s : IdempotencyStore δ) :
    IdempotencyStore δ :=
  { s with records := s.records.put key value (s.now + seconds recordTtl) }

def IdempotencyStore.advance (d : ℕ) (s : IdempotencyStore δ) : IdempotencyStore δ :=
  ⟨s.now + d, s.records.purge (s.now + d)⟩

theorem get_set (key : String) (value : IdempotencyRecord δ) (s : IdempotencyStore δ) :
    (s.set key value).get key = some value := by
  simp [IdempotencyStore.get, IdempotencyStore.set, ExpiringMap.value, ExpiringMap.put_apply]

theorem get_set_ne {key key' : String} (h : key' ≠ key) (record : IdempotencyRecord δ)
    (s : IdempotencyStore δ) : (s.set key record).get key' = s.get key' := by
  simp [IdempotencyStore.get, IdempotencyStore.set, ExpiringMap.value, ExpiringMap.put_apply, h]

end Store

/-- What the extension reads of a request; the key is the `Idempotency-Key` header. -/
structure ExecutionContext where
  document : Document
  operationName : Option String
  variableValues : Option Variables
  idempotencyKey : Option String

structure GraphQLError where
  message : String
  code : Option String
  deriving DecidableEq

structure ExecutionResult (δ : Type) where
  data : Option δ
  errors : List GraphQLError
  deriving DecidableEq

def idempotentOperations : List String := ["login", "requestPasswordReset"]

def firstField {α : Type} : List (Selection α) → Option String
  | [] => none
  | .field _ name _ _ _ :: _ => some name
  | _ :: rest => firstField rest

/-- `_get_mutation_field_name`. -/
def mutationFieldName : Document → Option String
  | [] => none
  | .operation .mutation _ _ selections :: rest =>
    match firstField selections with
    | some name => some name
    | none => mutationFieldName rest
  | _ :: rest => mutationFieldName rest

namespace ExecutionContext

/-- `self.execution_context.variables or {}`. -/
def variableMap (c : ExecutionContext) : Variables := c.variableValues.getD []

/-- The operation and the key under which the extension acts, if it acts. -/
def enrolled (c : ExecutionContext) : Option (String × String) :=
  match mutationFieldName c.document with
  | none => none
  | some operation =>
    if operation ∈ idempotentOperations then
      match c.idempotencyKey with
      | none => none
      | some key => if key = "" then none else some (operation, key)
    else none

def hashInput (operation : String) (c : ExecutionContext) : String :=
  operation ++ (Json.object c.variableMap).dumps

end ExecutionContext

inductive Lookup (δ : Type) where
  | notEnrolled
  | replay (response : δ)
  | conflict
  | miss

def conflictResult {δ : Type} : ExecutionResult δ :=
  ⟨none, [⟨"Idempotency key reused with different request", some "IDEMPOTENCY_CONFLICT"⟩]⟩

section Extension
variable {δ : Type} (sha256 : String → String)

def lookup (c : ExecutionContext) (s : IdempotencyStore δ) : Lookup δ :=
  match c.enrolled with
  | none => .notEnrolled
  | some (operation, key) =>
    match s.get (makeKey operation key) with
    | none => .miss
    | some record =>
      if record.requestHash = sha256 (c.hashInput operation) then .replay record.response
      else .conflict

/-- After an execution: a result without errors is stored. -/
def persist (c : ExecutionContext) (result : ExecutionResult δ) (s : IdempotencyStore δ) :
    IdempotencyStore δ :=
  match c.enrolled, result.data with
  | some (operation, key), some data =>
    if result.errors = [] then
      s.set (makeKey operation key) ⟨sha256 (c.hashInput operation), data⟩
    else s
  | _, _ => s

/-- `on_execute` around an execution that would give `executed`. -/
def onExecute (c : ExecutionContext) (executed : ExecutionResult δ) (s : IdempotencyStore δ) :
    ExecutionResult δ × IdempotencyStore δ :=
  match lookup sha256 c s with
  | .notEnrolled => (executed, s)
  | .replay response => (⟨some response, []⟩, s)
  | .conflict => (conflictResult, s)
  | .miss => (executed, persist sha256 c executed s)

def Stored (c : ExecutionContext) (data : δ) (s : IdempotencyStore δ) : Prop :=
  ∃ operation key, c.enrolled = some (operation, key) ∧
    s.get (makeKey operation key) = some ⟨sha256 (c.hashInput operation), data⟩

end Extension

namespace ExecutionContext

def executedOperation (c : ExecutionContext) : Option Operation :=
  selectOperation c.document c.operationName c.variableMap

def Executes (c : ExecutionContext) (operation : String) : Prop :=
  ∃ op, c.executedOperation = some op ∧ op.type = .mutation ∧ ∃ f ∈ op.rootFields, f.name = operation

theorem enrolled_some {c : ExecutionContext} {operation key : String} :
    c.enrolled = some (operation, key) ↔
      mutationFieldName c.document = some operation ∧ operation ∈ idempotentOperations ∧
        c.idempotencyKey = some key ∧ key ≠ "" := by
  unfold enrolled
  constructor
  · intro h
    split at h
    · cases h
    · rename_i name hname
      split_ifs at h with hmem
      split at h
      · cases h
      · rename_i k hkey
        split_ifs at h with hk
        cases h
        exact ⟨hname, hmem, hkey, hk⟩
  · rintro ⟨hname, hmem, hkey, hk⟩
    simp only [hname, hkey, if_pos hmem, if_neg hk]

end ExecutionContext

theorem makeKey_left {operation operation' key : String}
    (h : makeKey operation key = makeKey operation' key) : operation = operation' := by
  have ht := congrArg String.toList h
  simp only [makeKey, String.toList_append, List.append_cancel_right_eq,
    List.append_cancel_left_eq] at ht
  exact String.toList_inj.1 ht

theorem hashInput_inj {operation : String} {c c' : ExecutionContext}
    (h : c.hashInput operation = c'.hashInput operation) : c.variableMap = c'.variableMap := by
  have ht := congrArg String.toList h
  simp only [ExecutionContext.hashInput, String.toList_append, List.append_cancel_left_eq] at ht
  have hj := Json.dumps_injective (String.toList_inj.1 ht)
  injection hj

section Conflict
variable {δ : Type} {sha256 : String → String} {first second : ExecutionContext}

theorem onExecute_notEnrolled (h : second.enrolled = none) (executed : ExecutionResult δ)
    (s : IdempotencyStore δ) : (onExecute sha256 second executed s).1 = executed := by
  simp only [onExecute, lookup, h]

theorem onExecute_miss {operation key : String} (h : second.enrolled = some (operation, key))
    {s : IdempotencyStore δ} (hs : s.get (makeKey operation key) = none)
    (executed : ExecutionResult δ) :
    (onExecute sha256 second executed s).1 = executed := by
  simp only [onExecute, lookup, h, hs]

theorem onExecute_hit {operation key : String} (h : second.enrolled = some (operation, key))
    {s : IdempotencyStore δ} {stored : String} {data : δ}
    (hs : s.get (makeKey operation key) = some ⟨stored, data⟩) (executed : ExecutionResult δ) :
    (onExecute sha256 second executed s).1 =
      if stored = sha256 (second.hashInput operation) then ⟨some data, []⟩ else conflictResult := by
  simp only [onExecute, lookup, h, hs]
  split_ifs <;> rfl

def onlyRecord (key : String) (record : IdempotencyRecord δ) : IdempotencyStore δ :=
  (⟨0, ExpiringMap.empty⟩ : IdempotencyStore δ).set key record

theorem onlyRecord_get (key : String) (record : IdempotencyRecord δ) :
    (onlyRecord key record).get key = some record := get_set _ _ _

theorem onlyRecord_other {key key' : String} (h : key' ≠ key) (record : IdempotencyRecord δ) :
    (onlyRecord key record).get key' = none := by
  simp [onlyRecord, IdempotencyStore.get, IdempotencyStore.set, ExpiringMap.put_apply, h,
    ExpiringMap.empty]

/-- Whatever a store with the record of the first request makes of a second one: a conflict
exactly if both have the same leading mutation field and different variables. -/
theorem different_request_conflicts_iff [Nonempty δ] {key : String}
    (hkey : first.idempotencyKey = some key)
    (hkey' : second.idempotencyKey = some key) (hstores : first.enrolled ≠ none)
    (hsha : ∀ op, mutationFieldName first.document = some op →
      mutationFieldName second.document = some op →
      Set.InjOn sha256 {first.hashInput op, second.hashInput op}) :
    (∀ (s : IdempotencyStore δ) (data : δ) (executed : ExecutionResult δ), Stored sha256 first data s →
        (onExecute sha256 second executed s).1 = conflictResult) ↔
      mutationFieldName second.document = mutationFieldName first.document ∧
        second.variableMap ≠ first.variableMap := by
  obtain ⟨⟨op, k⟩, hen⟩ := Option.ne_none_iff_exists'.1 hstores
  obtain ⟨hname, hmem, hk, hne⟩ := ExecutionContext.enrolled_some.1 hen
  obtain rfl : k = key := Option.some.inj (hk.symm.trans hkey)
  constructor
  · intro h
    obtain ⟨data⟩ := ‹Nonempty δ›
    have hget := onlyRecord_get (makeKey op k) ⟨sha256 (first.hashInput op), data⟩
    have hstored : Stored sha256 first data
        (onlyRecord (makeKey op k) ⟨sha256 (first.hashInput op), data⟩) := ⟨op, k, hen, hget⟩
    have hres := h _ data ⟨none, []⟩ hstored
    have hexec : (⟨none, []⟩ : ExecutionResult δ) ≠ conflictResult := by simp [conflictResult]
    cases hen' : second.enrolled with
    | none =>
      rw [onExecute_notEnrolled hen'] at hres
      exact absurd hres hexec
    | some x =>
      obtain ⟨op', k'⟩ := x
      obtain ⟨hname', -, hk', -⟩ := ExecutionContext.enrolled_some.1 hen'
      obtain rfl : k' = k := Option.some.inj (hk'.symm.trans hkey')
      by_cases hop : op' = op
      · subst hop
        refine ⟨hname'.trans hname.symm, ?_⟩
        intro hvars
        have hinput : first.hashInput op' = second.hashInput op' := by
          simp only [ExecutionContext.hashInput, hvars]
        rw [onExecute_hit hen' hget, if_pos (by rw [hinput])] at hres
        simp [conflictResult] at hres
      · have hother : makeKey op' k' ≠ makeKey op k' := fun he => hop (makeKey_left he)
        rw [onExecute_miss hen' (onlyRecord_other hother _)] at hres
        exact absurd hres hexec
  · rintro ⟨hsame, hvars⟩ s data executed ⟨op', k', hen', hget⟩
    obtain ⟨rfl, rfl⟩ : op = op' ∧ k = k' := by
      rw [hen] at hen'
      simpa using hen'
    have hen2 : second.enrolled = some (op, k) :=
      ExecutionContext.enrolled_some.2 ⟨hsame.trans hname, hmem, hkey', hne⟩
    rw [onExecute_hit hen2 hget, if_neg ?_]
    intro hhash
    have hinput := hsha op hname (hsame.trans hname) (by simp) (by simp) hhash
    exact hvars (hashInput_inj hinput).symm

end Conflict

section Sample

def credentials (email password : String) : Json :=
  .object [("email", .string email), ("password", .string password)]

/-- `mutation ($input: LoginInput!) { login(input: $input) { accessToken refreshToken } }`. -/
def loginByVariable : Document :=
  [.operation .mutation none [⟨"input", none⟩]
    [.field none "login" [("input", .variable "input")] []
      [.field none "accessToken" [] [] [], .field none "refreshToken" [] [] []]]]

/-- `mutation { login(input: {email: ..., password: ...}) { accessToken refreshToken } }`. -/
def loginInline (email password : String) : Document :=
  [.operation .mutation none []
    [.field none "login" [("input", .object [("email", .string email),
      ("password", .string password)])] []
      [.field none "accessToken" [] [] [], .field none "refreshToken" [] [] []]]]

def requestOf (document : Document) (variableValues : Option Variables) : ExecutionContext :=
  ⟨document, none, variableValues, some "key-1"⟩

def aliceByVariable : ExecutionContext :=
  requestOf loginByVariable (some [("input", credentials "alice@example.com" "Passw0rd1")])

def bobByVariable : ExecutionContext :=
  requestOf loginByVariable (some [("input", credentials "bob@example.com" "Passw0rd1")])

def aliceInline : ExecutionContext := requestOf (loginInline "alice@example.com" "Passw0rd1") none

def bobInline : ExecutionContext := requestOf (loginInline "bob@example.com" "Passw0rd1") none

def digest (s : String) : String :=
  if s = "login\x7b\"input\": \x7b\"email\": \"alice@example.com\", \"password\": \"Passw0rd1\"\x7d\x7d" then
    "2ba51f2667afe277555e5f01c5d243311c1e5b720ead95eb9ab9f21cb1f0c3b3"
  else if s = "login\x7b\"input\": \x7b\"email\": \"bob@example.com\", \"password\": \"Passw0rd1\"\x7d\x7d" then
    "79d31c2a85197136ab7858fec1f112c478741a967487901b51691f5a36b79a70"
  else "5786d7ce55b10856daf1c5446dc6f661aeb2436558d495edebcd2ebf3df6f08a"

def rootArguments (c : ExecutionContext) : Option (OperationType × List (String × String)) :=
  c.executedOperation.map fun op =>
    (op.type, op.rootFields.map fun f => (f.name, (Json.object f.arguments).dumps))

theorem executes_of_text {c : ExecutionContext} {name : String} (text : String)
    (h : rootArguments c = some (.mutation, [(name, text)])) : c.Executes name := by
  obtain ⟨op, hop, heq⟩ := Option.map_eq_some_iff.1 h
  simp only [Prod.mk.injEq] at heq
  obtain ⟨htype, hroots⟩ := heq
  have hmem : (name, text) ∈ op.rootFields.map fun f => (f.name, (Json.object f.arguments).dumps) := by
    rw [hroots]
    simp
  obtain ⟨f, hf, hname⟩ := List.mem_map.1 hmem
  exact ⟨op, hop, htype, f, hf, congrArg Prod.fst hname⟩

theorem differ_of_rootArguments {c c' : ExecutionContext} (h : rootArguments c ≠ rootArguments c') :
    c.executedOperation ≠ c'.executedOperation :=
  fun he => h (by rw [rootArguments, he, rootArguments])

/-- Alice's login is stored, and Bob's login with the same key is in conflict with it. -/
theorem different_request_conflicts_iff_variables :
    (mutationFieldName bobByVariable.document = mutationFieldName aliceByVariable.document ∧
      bobByVariable.variableMap ≠ aliceByVariable.variableMap) ∧
    ∀ (s : IdempotencyStore Json) (data : Json) (executed : ExecutionResult Json),
      Stored digest aliceByVariable data s →
        (onExecute digest bobByVariable executed s).1 = conflictResult := by
  have hdiffer : mutationFieldName bobByVariable.document = mutationFieldName aliceByVariable.document ∧
      bobByVariable.variableMap ≠ aliceByVariable.variableMap := by
    refine ⟨rfl, fun he => ?_⟩
    exact absurd (congrArg (fun v => (Json.object v).dumps) he) (by decide +kernel)
  refine ⟨hdiffer, (@different_request_conflicts_iff Json digest aliceByVariable bobByVariable ⟨.null⟩
    "key-1" rfl rfl (by decide +kernel) ?_).2 hdiffer⟩
  intro op hop _
  obtain rfl : "login" = op := Option.some.inj (Eq.trans (by decide +kernel) hop)
  have hne : digest (aliceByVariable.hashInput "login") ≠ digest (bobByVariable.hashInput "login") := by
    decide +kernel
  rintro x (rfl | rfl) y (rfl | rfl) hxy
  · rfl
  · exact absurd hxy hne
  · exact absurd hxy.symm hne
  · rfl

def aliceData : Json :=
  .object [("login", .object [("accessToken", .string "secret"), ("refreshToken", .string "secret")])]

/-- Inline credentials are not part of the hash: another login is answered with the tokens of
the first. -/
theorem inline_arguments_replayed :
    aliceInline.Executes "login" ∧ bobInline.Executes "login" ∧
      aliceInline.executedOperation ≠ bobInline.executedOperation ∧
      aliceInline.idempotencyKey = bobInline.idempotencyKey ∧
      Stored digest aliceInline aliceData
        (onExecute digest aliceInline ⟨some aliceData, []⟩ ⟨0, ExpiringMap.empty⟩).2 ∧
      ∀ executed, (onExecute digest bobInline executed
        (onExecute digest aliceInline ⟨some aliceData, []⟩ ⟨0, ExpiringMap.empty⟩).2).1 =
          ⟨some aliceData, []⟩ := by
  have hen : aliceInline.enrolled = some ("login", "key-1") := by decide +kernel
  have hen' : bobInline.enrolled = some ("login", "key-1") := by decide +kernel
  have hmiss : lookup digest aliceInline (⟨0, ExpiringMap.empty⟩ : IdempotencyStore Json) = .miss := by
    simp [lookup, hen, IdempotencyStore.get, ExpiringMap.value, ExpiringMap.empty]
  have hstore : (onExecute digest aliceInline ⟨some aliceData, []⟩ ⟨0, ExpiringMap.empty⟩).2 =
      onlyRecord (makeKey "login" "key-1") ⟨digest (aliceInline.hashInput "login"), aliceData⟩ := by
    simp [onExecute, hmiss, persist, hen, onlyRecord]
  rw [hstore]
  refine ⟨executes_of_text (Json.object [("input", credentials "alice@example.com" "Passw0rd1")]).dumps
      (by decide +kernel),
    executes_of_text (Json.object [("input", credentials "bob@example.com" "Passw0rd1")]).dumps
      (by decide +kernel),
    differ_of_rootArguments (by decide +kernel), rfl, ⟨_, _, hen, onlyRecord_get _ _⟩, ?_⟩
  intro executed
  rw [onExecute_hit hen' (onlyRecord_get _ _)]
  rfl

end Sample

end AuthService.IdempotencyExtension
