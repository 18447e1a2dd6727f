import AuthService.IdempotencyExtension

set_option autoImplicit false

/-! The mutation under which the extension files a request, against the operation that the
request executes. -/
namespace AuthService.ExecutedOperations
open JsonText GraphqlDocuments ExpiringMaps RedisSessions IdempotencyExtension

/-- The fields of a selection set that stand in no fragment. -/
def directFields {α : Type} (selections : List (Selection α)) : List String :=
  selections.filterMap fun
    | .field _ name _ _ _ => some name
    | _ => none

/-- The fields that the mutations of a document write outside of fragments, in their order. -/
def writtenFields (document : Document) : List String :=
  document.flatMap fun
    | .operation .mutation _ _ selections => directFields selections
    | _ => []

theorem firstField_eq_head {α : Type} (selections : List (Selection α)) :
    firstField selections = (directFields selections).head? := by
  induction selections with
  | nil => rfl
  | cons s rest ih =>
    cases s with
    | field => rfl
    | fragmentSpread => exact ih
    | inlineFragment => exact ih

theorem mutationFieldName_eq_head (document : Document) :
    mutationFieldName document = (writtenFields document).head? := by
  induction document with
  | nil => rfl
  | cons d rest ih =>
    cases d with
    | fragment => exact ih
    | operation type name definitions selections =>
      cases type with
      | query => exact ih
      | subscription => exact ih
      | mutation =>
        rw [mutationFieldName, firstField_eq_head, writtenFields, List.flatMap_cons, List.head?_append,
          ← writtenFields, ← ih]
        cases (directFields selections).head? <;> rfl

/-- The extension acts on the requests that execute an idempotent mutation and files them
under that mutation. -/
structure ClassifiesExecuted {δ : Type} (sha256 : String → String) (c : ExecutionContext)
    (idempotencyKey : String) : Prop where
  consults : ∀ s : IdempotencyStore δ, lookup sha256 c s ≠ .notEnrolled ↔
    ∃ operation ∈ idempotentOperations, c.Executes operation
  files : ∀ operation key, c.enrolled = some (operation, key) →
    c.Executes operation ∧ key = idempotencyKey
  foreign : ∀ operation ∈ idempotentOperations, ¬ c.Executes operation →
    ∀ (s : IdempotencyStore δ) (executed : ExecutionResult δ) (record : IdempotencyRecord δ),
      (onExecute sha256 c executed s).2.get (makeKey operation idempotencyKey) =
          s.get (makeKey operation idempotencyKey) ∧
        (onExecute sha256 c executed (s.set (makeKey operation idempotencyKey) record)).1 =
          (onExecute sha256 c executed s).1

/-- The first field written in a mutation of the document speaks for the selected operation. -/
structure LeadsExecuted (c : ExecutionContext) : Prop where
  executed : ∀ name, (writtenFields c.document).head? = some name → name ∈ idempotentOperations →
    c.Executes name
  others : (∀ name, (writtenFields c.document).head? = some name → name ∉ idempotentOperations) →
    ∀ operation ∈ idempotentOperations, ¬ c.Executes operation

section Classification
variable {δ : Type} {sha256 : String → String} {c : ExecutionContext} {idempotencyKey : String}

theorem lookup_notEnrolled {s : IdempotencyStore δ} :
    lookup sha256 c s = .notEnrolled ↔ c.enrolled = none := by
  unfold lookup
  split
  · rename_i h
    simp [h]
  · rename_i operation key h
    simp only [h, reduceCtorEq, iff_false]
    split <;> try split_ifs
    all_goals simp

/-- A request with this key is filed under the leading field, when that is idempotent. -/
theorem enrolled_iff_head (hkey : c.idempotencyKey = some idempotencyKey) (hne : idempotencyKey ≠ "")
    {operation key : String} : c.enrolled = some (operation, key) ↔
      (writtenFields c.document).head? = some operation ∧ operation ∈ idempotentOperations ∧
        key = idempotencyKey := by
  rw [ExecutionContext.enrolled_some, mutationFieldName_eq_head, hkey, Option.some.injEq]
  constructor
  · rintro ⟨hname, hmem, rfl, -⟩
    exact ⟨hname, hmem, rfl⟩
  · rintro ⟨hname, hmem, rfl⟩
    exact ⟨hname, hmem, rfl, hne⟩

theorem onExecute_foreign {operation : String} (hen : ∀ key, c.enrolled ≠ some (operation, key))
    (hkeys : ∀ operation' key, c.enrolled = some (operation', key) → key = idempotencyKey)
    (s : IdempotencyStore δ) (executed : ExecutionResult δ) (record : IdempotencyRecord δ) :
    (onExecute sha256 c executed s).2.get (makeKey operation idempotencyKey) =
        s.get (makeKey operation idempotencyKey) ∧
      (onExecute sha256 c executed (s.set (makeKey operation idempotencyKey) record)).1 =
        (onExecute sha256 c executed s).1 := by
  cases hc : c.enrolled with
  | none => simp only [onExecute, lookup, hc, and_self]
  | some x =>
    obtain ⟨operation', key⟩ := x
    obtain rfl := hkeys operation' key hc
    have hother : makeKey operation' key ≠ makeKey operation key := by
      intro he
      obtain rfl := makeKey_left he
      exact hen key hc
    have hpersist : (persist sha256 c executed s).get (makeKey operation key) =
        s.get (makeKey operation key) := by
      unfold persist
      split
      · rename_i o k data h hdata
        rw [hc] at h
        cases h
        split_ifs
        · exact get_set_ne (Ne.symm hother) _ _
        · rfl
      · rfl
    refine ⟨?_, ?_⟩
    · unfold onExecute
      split
      · rfl
      · rfl
      · rfl
      · exact hpersist
    · have hsame : lookup sha256 c (s.set (makeKey operation key) record) = lookup sha256 c s := by
        simp only [lookup, hc, get_set_ne hother]
      simp only [onExecute, hsame]
      cases lookup sha256 c s <;> rfl

/-- The extension classifies the executed operation exactly when the first field written in a
mutation of the document does. -/
theorem classifies_executed_iff (hkey : c.idempotencyKey = some idempotencyKey)
    (hne : idempotencyKey ≠ "") :
    @ClassifiesExecuted δ sha256 c idempotencyKey ↔ LeadsExecuted c := by
  have hen := @enrolled_iff_head c idempotencyKey hkey hne
  constructor
  · intro h
    refine ⟨?_, ?_⟩
    · intro name hname hmem
      exact (h.files name idempotencyKey (hen.2 ⟨hname, hmem, rfl⟩)).1
    · intro hhead operation hmem hexec
      have hnone : c.enrolled = none := by
        by_contra hsome
        obtain ⟨⟨operation', key⟩, hx⟩ := Option.ne_none_iff_exists'.1 hsome
        obtain ⟨hname, hidem, -⟩ := hen.1 hx
        exact hhead operation' hname hidem
      exact (h.consults ⟨0, ExpiringMap.empty⟩).2 ⟨operation, hmem, hexec⟩ (lookup_notEnrolled.2 hnone)
  · intro h
    have hfiles : ∀ operation key, c.enrolled = some (operation, key) →
        c.Executes operation ∧ key = idempotencyKey := by
      intro operation key hc
      obtain ⟨hname, hmem, rfl⟩ := hen.1 hc
      exact ⟨h.executed operation hname hmem, rfl⟩
    refine ⟨fun s => ?_, hfiles, ?_⟩
    · rw [Ne, lookup_notEnrolled]
      constructor
      · intro hsome
        obtain ⟨⟨operation, key⟩, hc⟩ := Option.ne_none_iff_exists'.1 hsome
        exact ⟨operation, (hen.1 hc).2.1, (hfiles operation key hc).1⟩
      · rintro ⟨operation, hmem, hexec⟩ hnone
        refine h.others ?_ operation hmem hexec
        intro name hname hidem
        rw [hen.2 ⟨hname, hidem, rfl⟩] at hnone
        cases hnone
    · intro operation _ hexec s executed record
      refine onExecute_foreign ?_ (fun operation' key hc => (hfiles operation' key hc).2) s
        executed record
      intro key hc
      exact hexec (hfiles operation key hc).1

end Classification

def singleField (name : Option String) (definitions : List VariableDefinition)
    (responseName : Option String) (field : String) (arguments : List (String × Value))
    (selections : List (Selection Value)) : Document :=
  [.operation .mutation name definitions [.field responseName field arguments [] selections]]

theorem leads_singleField {c : ExecutionContext} {name responseName : Option String} {field : String}
    {definitions : List VariableDefinition} {arguments : List (String × Value)}
    {selections : List (Selection Value)}
    (hdoc : c.document = singleField name definitions responseName field arguments selections)
    (hselected : c.operationName = none ∨ c.operationName = name) : LeadsExecuted c := by
  have hop : ∃ op, c.executedOperation = some op ∧ op.type = .mutation ∧
      op.rootFields.map RootField.name = [field] := by
    refine ⟨⟨.mutation, resolveSelections (withDefaults definitions c.variableMap)
      [.field responseName field arguments [] selections],
      fragmentsOf c.document (withDefaults definitions c.variableMap)⟩, ?_, rfl, rfl⟩
    rcases hselected with hnone | hname
    · rw [ExecutionContext.executedOperation, hnone, hdoc]
      rfl
    · rw [ExecutionContext.executedOperation, hname, hdoc]
      cases name with
      | none => rfl
      | some name => simp [selectOperation, operationsOf, singleField]
  obtain ⟨op, hexecuted, htype, hroots⟩ := hop
  have hexecutes : ∀ operation, c.Executes operation ↔ operation = field := by
    intro operation
    constructor
    · rintro ⟨op', hop', -, f, hf, rfl⟩
      rw [hexecuted, Option.some.injEq] at hop'
      have hmem := List.mem_map_of_mem (f := RootField.name) (hop' ▸ hf)
      rw [hroots] at hmem
      exact List.mem_singleton.1 hmem
    · rintro rfl
      have hmem : operation ∈ op.rootFields.map RootField.name := by rw [hroots]; simp
      obtain ⟨f, hf, hname⟩ := List.mem_map.1 hmem
      exact ⟨op, hexecuted, htype, f, hf, hname⟩
  have hhead : (writtenFields c.document).head? = some field := by
    rw [hdoc]
    rfl
  refine ⟨?_, ?_⟩
  · intro name hname _
    rw [hhead, Option.some.injEq] at hname
    exact (hexecutes name).2 hname.symm
  · intro hothers operation hmem hexec
    obtain rfl := (hexecutes operation).1 hexec
    exact hothers operation hhead hmem

section Sample

theorem classifies_executed_login : @ClassifiesExecuted Json digest aliceByVariable "key-1" := by
  refine (classifies_executed_iff rfl (by decide)).2 ?_
  exact @leads_singleField aliceByVariable none _ _ _ _ _ rfl (.inl rfl)

/-- `mutation Login($input: LoginInput!) { login(input: $input) { accessToken } }` in front of
`mutation Refresh($token: String!) { refreshToken(input: {refreshToken: $token}) { accessToken } }`. -/
def loginAndRefresh : Document :=
  [.operation .mutation (some "Login") [⟨"input", none⟩]
    [.field none "login" [("input", .variable "input")] [] [.field none "accessToken" [] [] []]],
   .operation .mutation (some "Refresh") [⟨"token", none⟩]
    [.field none "refreshToken" [("input", .object [("refreshToken", .variable "token")])] []
      [.field none "accessToken" [] [] []]]]

def refreshArguments : Json := .object [("input", .object [("refreshToken", .string "secret")])]

def refreshSelected : ExecutionContext :=
  ⟨loginAndRefresh, some "Refresh", some [("token", .string "secret")], some "key-1"⟩

/-- `mutation($input: LoginInput!) { ...Credentials }` in front of
`fragment Credentials on AuthMutation { login(input: $input) { accessToken } }`. -/
def loginInFragment : Document :=
  [.operation .mutation none [⟨"input", none⟩] [.fragmentSpread "Credentials" []],
   .fragment "Credentials" "AuthMutation"
    [.field none "login" [("input", .variable "input")] [] [.field none "accessToken" [] [] []]]]

def spreadLogin : ExecutionContext :=
  requestOf loginInFragment (some [("input", credentials "alice@example.com" "Passw0rd1")])

/-- The answer of a selected refresh is stored as that of a login, and a login in a fragment is
not noticed. -/
theorem selected_refresh_filed_as_login :
    (refreshSelected.Executes "refreshToken" ∧ ¬ refreshSelected.Executes "login" ∧
      refreshSelected.enrolled = some ("login", "key-1") ∧
      ¬ @ClassifiesExecuted Json digest refreshSelected "key-1") ∧
    (spreadLogin.Executes "login" ∧ spreadLogin.idempotencyKey = some "key-1" ∧
      ¬ @ClassifiesExecuted Json digest spreadLogin "key-1") := by
  have hrefresh : refreshSelected.Executes "refreshToken" :=
    executes_of_text refreshArguments.dumps (by decide +kernel)
  have hnot : ¬ refreshSelected.Executes "login" := by
    rintro ⟨op, hop, -, f, hf, hname⟩
    have htext : rootArguments refreshSelected =
        some (.mutation, [("refreshToken", refreshArguments.dumps)]) := by
      decide +kernel
    rw [rootArguments, hop, Option.map_some, Option.some.injEq, Prod.mk.injEq] at htext
    have hmem := List.mem_map_of_mem (f := fun f => (f.name, (Json.object f.arguments).dumps)) hf
    rw [htext.2, List.mem_singleton, Prod.mk.injEq, hname] at hmem
    exact absurd hmem.1 (by decide)
  have hfiled : refreshSelected.enrolled = some ("login", "key-1") := by decide +kernel
  have hspread : spreadLogin.Executes "login" :=
    executes_of_text (Json.object [("input", credentials "alice@example.com" "Passw0rd1")]).dumps
      (by decide +kernel)
  have hunnoticed : spreadLogin.enrolled = none := by decide +kernel
  refine ⟨⟨hrefresh, hnot, hfiled, fun h => hnot (h.files _ _ hfiled).1⟩, hspread, rfl, fun h => ?_⟩
  exact (h.consults ⟨0, ExpiringMap.empty⟩).2 ⟨"login", by decide, hspread⟩
    (lookup_notEnrolled.2 hunnoticed)

end Sample

end AuthService.ExecutedOperations
