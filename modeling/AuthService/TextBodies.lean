import AuthService.RateLimitMiddleware

set_option autoImplicit false

/-! The middleware on whatever `json.loads` gives: the strings of a body may hold surrogates that
stand alone, and no Redis key can be made of these. -/
namespace AuthService.TextBodies
open PythonText JsonText GraphqlDocuments BacktrackingSearch RateLimiter RateLimitMiddleware

inductive TextJson where
  | null
  | bool (b : Bool)
  | number (n : Numeral)
  | string (t : Text)
  | array (items : List TextJson)
  | object (fields : List (Text × TextJson))

abbrev TextFields := List (Text × TextJson)

def TextFields.get (fields : TextFields) (name : String) : Option TextJson :=
  (fields.find? (fun x => x.1 = .ofString name)).map Prod.snd

namespace TextJson

def truthy : TextJson → Bool
  | .null => false
  | .bool b => b
  | .number n => RateLimitMiddleware.truthy (.number n)
  | .string t => !t.isEmpty
  | .array items => !items.isEmpty
  | .object fields => !fields.isEmpty

def orElse (x y : Option TextJson) : Option TextJson :=
  match x with
  | none => y
  | some j => if truthy j then some j else y

end TextJson

section Patterns
variable (word : Char → Bool)

def firstFieldPieces : List (Piece CodePoint) :=
  [.greedy (fun c => c ≠ .scalar '{'), .one (fun c => c = .scalar '{'),
    .lazy (fun c => c ≠ .scalar '{'), .openGroup, .one (CodePoint.inClass word),
    .greedy (CodePoint.inClass word), .closeGroup, .greedy (CodePoint.inClass isSpace),
    .one (fun c => c = .scalar '(' || c = .scalar '{')]

/-- `_MUTATION_OP_RE`. -/
def mutationOpRe : List (Piece CodePoint) :=
  literal (Text.ofString "mutation") ++ .boundary :: firstFieldPieces word

/-- `_NAMED_MUTATION_OP_RE_TEMPLATE` with an escaped name put in. -/
def namedMutationOpRe (name : Text) : List (Piece CodePoint) :=
  literal (Text.ofString "mutation") ++ .one (CodePoint.inClass isSpace) ::
    .greedy (CodePoint.inClass isSpace) :: literal name ++ .boundary :: firstFieldPieces word

def scan (pieces : List (Piece CodePoint)) (query : Text) : Text :=
  (search (CodePoint.inClass word) pieces none query).getD []

/-- `_extract_operation`; a query that is no text raises. -/
def extractOperation (body : TextFields) : Option Text :=
  match (body.get "query").getD (.string []) with
  | .string query =>
    match TextJson.orElse (body.get "operationName") (some (.string [])) with
    | some (.string name) =>
      if name ≠ [] then some (scan word (namedMutationOpRe word name) query)
      else some (scan word (mutationOpRe word) query)
    | _ => some (scan word (mutationOpRe word) query)
  | _ => none

end Patterns

/-- `_extract_email`; variables or an input that is no object raises. -/
def extractEmail (body : TextFields) : Option (Option TextJson) :=
  match TextJson.orElse (body.get "variables") (some (.object [])) with
  | some (.object values) =>
    match TextJson.orElse (TextFields.get values "input") (some (.object [])) with
    | some (.object input) =>
      some (TextJson.orElse (TextFields.get input "email") (TextFields.get values "email"))
    | _ => none
  | _ => none

/-- A POST to `/graphql`; headers are Latin-1 and hold no surrogates. -/
structure TextPost where
  body : Option TextJson
  realIp : Option String
  clientHost : Option String

def TextPost.ip (p : TextPost) : String := Post.ip ⟨none, p.realIp, p.clientHost⟩

def rulesOf (operation : Text) : Option (String × List Rule) :=
  rateLimits.find? (fun x => Text.ofString x.1 = operation)

section Limits
variable (u : Unicode)

/-- `check_email`; the connection to Redis encodes the key, and a surrogate makes it raise. -/
def applyEmail (operation : String) (address : Text) (rule : Rule) (c : Counters) :
    Option (Option RateLimitExceededError × Counters) :=
  (((address.lower u).strip).encode).map fun normalized =>
    check ⟨operation ++ ":email:" ++ normalized, rule.limit, rule.window⟩ c

def applyRules (ip operation : String) (email : Option TextJson) :
    List Rule → Counters → Verdict × Counters
  | [], c => (.forwarded, c)
  | rule :: rules, c =>
    match rule.dimension with
    | .ip =>
      match check (checkIp ip operation rule.limit rule.window) c with
      | (some e, c') => (.tooManyRequests e.retryAfter, c')
      | (none, c') => applyRules ip operation email rules c'
    | .email =>
      match TextJson.orElse email none with
      | none => applyRules ip operation email rules c
      | some (.string address) =>
        match applyEmail u operation address rule c with
        | some (some e, c') => (.tooManyRequests e.retryAfter, c')
        | some (none, c') => applyRules ip operation email rules c'
        | none => (.crashed, c)
      | some _ => (.crashed, c)

/-- `dispatch` up to the call of the application. -/
def dispatch (word : Char → Bool) (p : TextPost) (c : Counters) : Verdict × Counters :=
  match p.body with
  | none => (.forwarded, c)
  | some (.object body) =>
    match extractOperation word body with
    | none => (.crashed, c)
    | some text =>
      match rulesOf text with
      | none => (.forwarded, c)
      | some (operation, rules) =>
        if operation ∈ emailOps then
          match extractEmail body with
          | none => (.crashed, c)
          | some email => applyRules u p.ip operation email rules c
        else applyRules u p.ip operation none rules c
  | some _ => (.crashed, c)

end Limits

mutual

def ofJson : Json → TextJson
  | .null => .null
  | .bool b => .bool b
  | .number n => .number n
  | .string s => .string (.ofString s)
  | .array items => .array (ofItems items)
  | .object fields => .object (ofFields fields)

def ofItems : List Json → List TextJson
  | [] => []
  | x :: xs => ofJson x :: ofItems xs

def ofFields : List (String × Json) → List (Text × TextJson)
  | [] => []
  | (name, x) :: fields => (.ofString name, ofJson x) :: ofFields fields

end

def ofPost (p : Post) : TextPost := ⟨p.body.map ofJson, p.realIp, p.clientHost⟩

section Strings
variable {u : Unicode} {word : Char → Bool}

theorem get_ofFields (fields : Variables) (name : String) :
    TextFields.get (ofFields fields) name = (Variables.get fields name).map ofJson := by
  unfold TextFields.get Variables.get
  induction fields with
  | nil => rfl
  | cons x fields ih =>
    obtain ⟨key, j⟩ := x
    simp only [ofFields, List.find?_cons, Text.ofString_inj]
    cases decide (key = name) with
    | true => rfl
    | false => exact ih

theorem truthy_ofJson (j : Json) : (ofJson j).truthy = RateLimitMiddleware.truthy j := by
  cases j with
  | string s =>
    rw [ofJson, TextJson.truthy, RateLimitMiddleware.truthy, Text.ofString, List.isEmpty_map]
    by_cases hs : s = "" <;> simp [hs]
  | array items => cases items <;> simp [ofJson, ofItems, TextJson.truthy, RateLimitMiddleware.truthy]
  | object fields =>
    cases fields <;> simp [ofJson, ofFields, TextJson.truthy, RateLimitMiddleware.truthy]
  | null | bool b | number n => rfl

theorem orElse_ofJson (x y : Option Json) :
    TextJson.orElse (x.map ofJson) (y.map ofJson) = (orElse x y).map ofJson := by
  cases x with
  | none => rfl
  | some j =>
    simp only [TextJson.orElse, orElse, Option.map_some, truthy_ofJson]
    split_ifs <;> rfl

theorem literal_comap {α β : Type} [DecidableEq α] [DecidableEq β] {f : α → β}
    (hf : Function.Injective f) (cs : List α) :
    (literal (cs.map f)).map (Piece.comap f) = literal cs := by
  simp only [literal, List.map_map, List.map_inj_left, Function.comp_apply, Piece.comap]
  intro c _
  congr 1
  funext d
  exact decide_eq_decide.2 hf.eq_iff

theorem scalar_injective : Function.Injective CodePoint.scalar := fun _ _ h => CodePoint.scalar.inj h

theorem firstFieldPieces_comap : (firstFieldPieces word).map (Piece.comap .scalar) =
    RateLimitMiddleware.firstFieldPieces word := by
  simp only [firstFieldPieces, RateLimitMiddleware.firstFieldPieces, List.map_cons, List.map_nil,
    Piece.comap, CodePoint.inClass, ne_eq, CodePoint.scalar.injEq]

theorem mutationOpRe_comap : (mutationOpRe word).map (Piece.comap .scalar) =
    RateLimitMiddleware.mutationOpRe word := by
  simp only [mutationOpRe, RateLimitMiddleware.mutationOpRe, Text.ofString, List.map_append,
    literal_comap scalar_injective, List.map_cons, Piece.comap, firstFieldPieces_comap]

theorem namedMutationOpRe_comap (name : String) :
    (namedMutationOpRe word (.ofString name)).map (Piece.comap .scalar) =
      RateLimitMiddleware.namedMutationOpRe word name := by
  simp only [namedMutationOpRe, RateLimitMiddleware.namedMutationOpRe, Text.ofString, List.map_append,
    literal_comap scalar_injective, List.map_cons, Piece.comap, firstFieldPieces_comap,
    CodePoint.inClass]

theorem scan_ofString (pieces : List (Piece CodePoint)) (query : String) :
    scan word pieces (.ofString query) =
      .ofString (RateLimitMiddleware.scan word (pieces.map (Piece.comap .scalar)) query) := by
  have hsearch := search_map (f := CodePoint.scalar) (CodePoint.inClass word) pieces none query.toList
  unfold scan RateLimitMiddleware.scan Text.ofString
  rw [Option.map_none] at hsearch
  rw [hsearch, String.toList_ofList]
  change ((search word (pieces.map (Piece.comap .scalar)) none query.toList).map _).getD [] = _
  cases search word (pieces.map (Piece.comap .scalar)) none query.toList <;> rfl

theorem ofString_eq_nil {s : String} : Text.ofString s = [] ↔ s = "" := by
  rw [Text.ofString, List.map_eq_nil_iff, String.toList_eq_nil_iff]

theorem extractOperation_ofFields (body : Variables) : extractOperation word (ofFields body) =
    (RateLimitMiddleware.extractOperation word body).map Text.ofString := by
  have hquery : ((body.get "query").map ofJson).getD (.string []) =
      ofJson ((body.get "query").getD (.string "")) := by
    cases body.get "query" <;> rfl
  have hname : TextJson.orElse ((body.get "operationName").map ofJson) (some (.string [])) =
      (orElse (body.get "operationName") (some (.string ""))).map ofJson :=
    orElse_ofJson _ (some (.string ""))
  unfold extractOperation RateLimitMiddleware.extractOperation
  rw [get_ofFields, get_ofFields, hquery, hname]
  cases (body.get "query").getD (.string "") with
  | string query =>
    simp only [ofJson]
    cases orElse (body.get "operationName") (some (.string "")) with
    | none => simp [scan_ofString, mutationOpRe_comap]
    | some j =>
      cases j with
      | string name =>
        simp only [Option.map_some, ofJson, ne_eq, ofString_eq_nil]
        split_ifs <;> simp [scan_ofString, mutationOpRe_comap, namedMutationOpRe_comap]
      | null | bool b | number n | array items | object fields =>
        simp [ofJson, scan_ofString, mutationOpRe_comap]
  | null | bool b | number n | array items | object fields => rfl

theorem extractEmail_ofFields (body : Variables) : extractEmail (ofFields body) =
    (RateLimitMiddleware.extractEmail body).map (Option.map ofJson) := by
  have hempty : ∀ x : Option Json, TextJson.orElse (x.map ofJson) (some (.object [])) =
      (orElse x (some (.object []))).map ofJson :=
    fun x => orElse_ofJson x (some (.object []))
  unfold extractEmail RateLimitMiddleware.extractEmail
  rw [get_ofFields, hempty]
  cases orElse (body.get "variables") (some (.object [])) with
  | none => rfl
  | some j =>
    cases j with
    | object values =>
      simp only [Option.map_some, ofJson, get_ofFields, hempty]
      cases orElse (Variables.get values "input") (some (.object [])) with
      | none => rfl
      | some i =>
        cases i with
        | object input => simp only [Option.map_some, ofJson, get_ofFields, orElse_ofJson]
        | null | bool b | number n | string s | array items => rfl
    | null | bool b | number n | string s | array items => rfl

theorem applyEmail_ofString (operation address : String) (rule : Rule) (c : Counters) :
    applyEmail u operation (.ofString address) rule c =
      some (check (checkEmail u address operation rule.limit rule.window) c) := by
  rw [applyEmail, Text.lower_ofString, Text.strip_ofString, Text.encode_ofString]
  rfl

theorem applyRules_ofJson (ip operation : String) (email : Option Json) (rules : List Rule)
    (c : Counters) : applyRules u ip operation (email.map ofJson) rules c =
      RateLimitMiddleware.applyRules u ip operation email rules c := by
  have hnone : TextJson.orElse (email.map ofJson) none = (orElse email none).map ofJson :=
    orElse_ofJson email none
  induction rules generalizing c with
  | nil => rfl
  | cons rule rules ih =>
    unfold applyRules RateLimitMiddleware.applyRules
    cases rule.dimension with
    | ip =>
      simp only
      cases check (checkIp ip operation rule.limit rule.window) c with
      | mk e c' =>
        cases e with
        | none => exact ih c'
        | some e => rfl
    | email =>
      simp only [hnone]
      cases orElse email none with
      | none => exact ih c
      | some j =>
        cases j with
        | string address =>
          simp only [Option.map_some, ofJson, applyEmail_ofString]
          cases check (checkEmail u address operation rule.limit rule.window) c with
          | mk e c' =>
            cases e with
            | none => exact ih c'
            | some e => rfl
        | null | bool b | number n | array items | object fields => rfl

theorem rulesOf_ofString (operation : String) : rulesOf (.ofString operation) =
    (RateLimitMiddleware.rulesOf operation).map fun rules => (operation, rules) := by
  simp only [rulesOf, RateLimitMiddleware.rulesOf, Text.ofString_inj]
  cases hfind : rateLimits.find? (fun x => x.1 = operation) with
  | none => rfl
  | some x =>
    have hname : x.1 = operation := by simpa using List.find?_some hfind
    rw [Option.map_some, Option.map_some, ← hname]

/-- Where no surrogate occurs, this is the middleware on bodies of strings. -/
theorem dispatch_ofPost (p : Post) (c : Counters) :
    dispatch u word (ofPost p) c = RateLimitMiddleware.dispatch u word p c := by
  have hip : (ofPost p).ip = p.ip := rfl
  unfold dispatch RateLimitMiddleware.dispatch
  rw [hip]
  cases hbody : p.body with
  | none => simp [ofPost, hbody]
  | some j =>
    cases j with
    | object body =>
      simp only [ofPost, hbody, Option.map_some, ofJson, extractOperation_ofFields]
      cases RateLimitMiddleware.extractOperation word body with
      | none => rfl
      | some operation =>
        simp only [Option.map_some, rulesOf_ofString]
        cases RateLimitMiddleware.rulesOf operation with
        | none => rfl
        | some rules =>
          simp only [Option.map_some, extractEmail_ofFields]
          split_ifs
          · cases RateLimitMiddleware.extractEmail body with
            | none => rfl
            | some email => exact applyRules_ofJson _ _ email rules c
          · exact applyRules_ofJson _ _ none rules c
    | null | bool b | number n | string s | array items => simp [ofPost, hbody, ofJson]

end Strings

end AuthService.TextBodies
