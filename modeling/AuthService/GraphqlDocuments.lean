import AuthService.JsonText

set_option autoImplicit false

/-! GraphQL documents: variables put into arguments, the operation that a request
selects, and the fields that its selection set collects at the root. -/
namespace AuthService.GraphqlDocuments
open JsonText

inductive Value where
  | variable (name : String)
  | null
  | boolean (b : Bool)
  | number (n : Numeral)
  | string (s : String)
  | enum (name : String)
  | list (items : List Value)
  | object (fields : List (String × Value))

structure Directive (α : Type) where
  name : String
  arguments : List (String × α)

/-- Selections whose arguments are values of `α`. -/
inductive Selection (α : Type) where
  | field (responseName : Option String) (name : String) (arguments : List (String × α))
      (directives : List (Directive α)) (selections : List (Selection α))
  | fragmentSpread (name : String) (directives : List (Directive α))
  | inlineFragment (typeCondition : Option String) (directives : List (Directive α))
      (selections : List (Selection α))

inductive OperationType where
  | query
  | mutation
  | subscription
  deriving DecidableEq

structure VariableDefinition where
  name : String
  default : Option Value

inductive Definition where
  | operation (type : OperationType) (name : Option String) (definitions : List VariableDefinition)
      (selections : List (Selection Value))
  | fragment (name : String) (typeCondition : String) (selections : List (Selection Value))

abbrev Document := List Definition

abbrev Variables := List (String × Json)

def Variables.get (vars : Variables) (name : String) : Option Json :=
  (vars.find? (fun x => x.1 = name)).map Prod.snd

/-- An entry of an object takes its place in the order of the keys. -/
def insertField (name : String) (x : Json) : List (String × Json) → List (String × Json)
  | [] => [(name, x)]
  | (name', x') :: fields =>
    if name < name' then (name, x) :: (name', x') :: fields
    else (name', x') :: insertField name x fields

mutual

/-- The value with the variables put in; an object field or an argument whose variable is
absent is left out, a list item becomes null. -/
def Value.resolve (vars : Variables) : Value → Option Json
  | .variable name => vars.get name
  | .null => some .null
  | .boolean b => some (.bool b)
  | .number n => some (.number n)
  | .string s => some (.string s)
  | .enum name => some (.string name)
  | .list items => some (.array (resolveItems vars items))
  | .object fields => some (.object (resolveFields vars fields))

def resolveItems (vars : Variables) : List Value → List Json
  | [] => []
  | x :: xs => (x.resolve vars).getD .null :: resolveItems vars xs

def resolveFields (vars : Variables) : List (String × Value) → List (String × Json)
  | [] => []
  | (name, x) :: fields =>
    match x.resolve vars with
    | none => resolveFields vars fields
    | some j => insertField name j (resolveFields vars fields)

end

def Directive.resolve (vars : Variables) (d : Directive Value) : Directive Json :=
  ⟨d.name, resolveFields vars d.arguments⟩

mutual

def Selection.resolve (vars : Variables) : Selection Value → Selection Json
  | .field responseName name arguments directives selections =>
    .field responseName name (resolveFields vars arguments) (directives.map (Directive.resolve vars))
      (resolveSelections vars selections)
  | .fragmentSpread name directives => .fragmentSpread name (directives.map (Directive.resolve vars))
  | .inlineFragment typeCondition directives selections =>
    .inlineFragment typeCondition (directives.map (Directive.resolve vars))
      (resolveSelections vars selections)

def resolveSelections (vars : Variables) : List (Selection Value) → List (Selection Json)
  | [] => []
  | s :: rest => s.resolve vars :: resolveSelections vars rest

end

/-- The variables of a request with the defaults of the operation behind them. -/
def withDefaults (definitions : List VariableDefinition) (vars : Variables) : Variables :=
  vars ++ definitions.filterMap fun d => (d.default.bind (Value.resolve [])).map fun x => (d.name, x)

structure Operation where
  type : OperationType
  selections : List (Selection Json)
  fragments : List (String × List (Selection Json))

def fragmentsOf (document : Document) (vars : Variables) : List (String × List (Selection Json)) :=
  document.filterMap fun
    | .operation _ _ _ _ => none
    | .fragment name _ selections => some (name, resolveSelections vars selections)

def operationsOf (document : Document) (vars : Variables) : List (Option String × Operation) :=
  document.filterMap fun
    | .operation type name definitions selections =>
      some (name, ⟨type, resolveSelections (withDefaults definitions vars) selections,
        fragmentsOf document (withDefaults definitions vars)⟩)
    | .fragment _ _ _ => none

/-- The operation that `operationName` selects; without it, Strawberry asks for the first operation
by its name. -/
def selectOperation (document : Document) (operationName : Option String) (vars : Variables) :
    Option Operation :=
  match operationName with
  | none =>
    match operationsOf document vars with
    | [(_, op)] => some op
    | (some _, op) :: _ => some op
    | _ => none
  | some name => ((operationsOf document vars).find? (fun x => x.1 = some name)).map Prod.snd

/-- The value of `if` in `@skip(if: ...)` or `@include(if: ...)`. -/
def Directive.condition (d : Directive Json) : Bool :=
  match (d.arguments.find? (fun x => x.1 = "if")).map Prod.snd with
  | some (.bool b) => b
  | _ => false

def shouldInclude (directives : List (Directive Json)) : Bool :=
  directives.all fun d =>
    if d.name = "skip" then !d.condition
    else if d.name = "include" then d.condition
    else true

structure RootField where
  responseKey : String
  name : String
  arguments : List (String × Json)

structure Collected where
  visited : List String
  fields : List RootField

section Collect
variable (expand : List (Selection Json) → Collected → Collected)
  (fragments : List (String × List (Selection Json)))

mutual

/-- `collect_fields` of one selection; `expand` collects a fragment. -/
def collectSelection : Selection Json → Collected → Collected
  | .field responseName name arguments directives _, c =>
    if shouldInclude directives then
      { c with fields := c.fields ++ [⟨responseName.getD name, name, arguments⟩] }
    else c
  | .fragmentSpread name directives, c =>
    if shouldInclude directives && !c.visited.contains name then
      match fragments.find? (fun x => x.1 = name) with
      | none => c
      | some (_, selections) => expand selections { c with visited := name :: c.visited }
    else c
  | .inlineFragment _ directives selections, c =>
    if shouldInclude directives then collectSelections selections c else c

def collectSelections : List (Selection Json) → Collected → Collected
  | [], c => c
  | s :: rest, c => collectSelections rest (collectSelection s c)

end

end Collect

/-- A fragment is expanded once, so as many rounds as there are fragments suffice. -/
def collectRounds (fragments : List (String × List (Selection Json))) :
    ℕ → List (Selection Json) → Collected → Collected
  | 0, _, c => c
  | n + 1, selections, c =>
    collectSelections (collectRounds fragments n) fragments selections c

def Operation.rootSelections (op : Operation) : List RootField :=
  (collectRounds op.fragments (op.fragments.length + 1) op.selections ⟨[], []⟩).fields

/-- Selections with one response key are one field of the answer. -/
def mergeFields : List RootField → List RootField
  | [] => []
  | f :: rest => f :: (mergeFields rest).filter (fun f' => f'.responseKey ≠ f.responseKey)

/-- The root fields that are executed, each once. -/
def Operation.rootFields (op : Operation) : List RootField := mergeFields op.rootSelections

end AuthService.GraphqlDocuments
