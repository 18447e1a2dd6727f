import AuthService.EmailCounters
import AuthService.GraphqlResolvers
import AuthService.IdempotencyExtension
import AuthService.SampleContainer

set_option autoImplicit false

/-! The way of a POST through the whole application: the rate limits, the idempotency
extension, the root fields of the operation one after the other, and the commit. -/
namespace AuthService.HttpService
open PythonText DomainModel AccountTables Transactions FallibleState Fallible ExpiringMaps JsonText
open GraphqlDocuments RedisSessions RequestPorts CommandHandlers GraphqlResolvers RateLimiter
open RateLimitMiddleware IdempotencyExtension EmailCounters LabelledRuns

structure HttpRequest where
  post : Post
  authorization : Option String
  idempotencyKey : Option String

/-- What the resolver of one root field may draw at random, and the calls that fail in it. -/
structure Chance where
  register : RegisterDraws
  login : LoginDraws
  refresh : RefreshDraws
  revoke : RevokeDraws
  requestReset : RequestResetDraws
  reset : ResetDraws
  faults : Faults

/-- The argument `input`; coercion refuses a field that its type does not have. -/
def inputOf (names : List String) (f : RootField) : Option Variables :=
  match Variables.get f.arguments "input" with
  | some (.object input) => if input.all (fun x => names.contains x.1) then some input else none
  | _ => none

def text (input : Variables) (name : String) : Option String :=
  match Variables.get input name with
  | some (.string s) => some s
  | _ => none

def optionalText (input : Variables) (name : String) : Option (Option String) :=
  match Variables.get input name with
  | none => some none
  | some .null => some none
  | some (.string s) => some (some s)
  | _ => none

def isInteger (n : Numeral) : Bool := n.text.toList.all fun c => c.isDigit || c = '-'

/-- `strawberry.ID`: a text, or an integer. -/
def idText (input : Variables) (name : String) : Option String :=
  match Variables.get input name with
  | some (.string s) => some s
  | some (.number n) => if isInteger n then some n.text else none
  | _ => none

section Calls
variable (h : HttpRequest) (x : Chance)

/-- The fields of `AuthMutation`. -/
def mutationRequest (f : RootField) : Option Request :=
  let ip := h.post.clientHost
  match f.name with
  | "register" => do
    let input ← inputOf ["email", "password"] f
    let email ← text input "email"
    let password ← text input "password"
    some (.register email password x.register)
  | "login" => do
    let input ← inputOf ["email", "password", "deviceInfo"] f
    let email ← text input "email"
    let password ← text input "password"
    let deviceInfo ← optionalText input "deviceInfo"
    some (.login email password deviceInfo ip x.login)
  | "refreshToken" => do
    let input ← inputOf ["refreshToken"] f
    let token ← text input "refreshToken"
    some (.refreshToken token ip x.refresh)
  | "revokeSession" => do
    let input ← inputOf ["sessionId"] f
    let sessionId ← idText input "sessionId"
    some (.revokeSession (h.authorization.getD "") sessionId ip x.revoke)
  | "requestPasswordReset" => do
    let input ← inputOf ["email"] f
    let email ← text input "email"
    some (.requestPasswordReset email ip x.requestReset)
  | "resetPassword" => do
    let input ← inputOf ["token", "newPassword"] f
    let token ← text input "token"
    let newPassword ← text input "newPassword"
    some (.resetPassword token newPassword ip x.reset)
  | _ => none

def queryRequest (f : RootField) : Option Request :=
  if f.name = "me" then some (.me (h.authorization.getD "")) else none

/-- A root field that is about to run; without a request it is `__typename`. -/
structure FieldCall where
  responseKey : String
  request : Option Request
  faults : Faults

def callOf (type : OperationType) (f : RootField) : Option FieldCall :=
  if f.name = "__typename" then some ⟨f.responseKey, none, x.faults⟩
  else
    match type with
    | .mutation => (mutationRequest h x f).map fun r => ⟨f.responseKey, some r, x.faults⟩
    | .query => (queryRequest h f).map fun r => ⟨f.responseKey, some r, x.faults⟩
    | .subscription => none

end Calls

/-- The calls of the root fields from position `i` on; none if an argument is not of its type. -/
def callsFrom (h : HttpRequest) (chance : ℕ → Chance) (type : OperationType) :
    ℕ → List RootField → Option (List FieldCall)
  | _, [] => some []
  | i, f :: fields => do
    let call ← callOf h (chance i) type f
    let calls ← callsFrom h chance type (i + 1) fields
    some (call :: calls)

inductive FieldValue where
  | null
  | typename (name : String)
  | answer (a : Answer)
  deriving DecidableEq

abbrev Data := List (String × FieldValue)

/-- `str(exc)`; the texts of what the libraries raise are not ours. -/
def errorOf (e : Exn) : GraphQLError :=
  match e with
  | .invalidEmailError m => ⟨m, none⟩
  | .weakPasswordError m => ⟨m, none⟩
  | .userAlreadyExistsError m => ⟨m, none⟩
  | .userNotFoundError m => ⟨m, none⟩
  | .invalidCredentialsError m => ⟨m, none⟩
  | .tokenExpiredError m => ⟨m, none⟩
  | .tokenAlreadyUsedError m => ⟨m, none⟩
  | .tokenNotFoundError m => ⟨m, none⟩
  | .invalidTokenError m => ⟨m, none⟩
  | .graphQLError m => ⟨m, none⟩
  | _ => ⟨"", none⟩

def errorResult (e : GraphQLError) : ExecutionResult Data := ⟨none, [e]⟩

section Execution
variable (g : GlobalContainer)

def FieldCall.run (typeName : String) (call : FieldCall) : AuthM FieldValue :=
  match call.request with
  | none => pure (.typename typeName)
  | some r => do
    let a ← resolve g call.faults r
    pure (.answer a)

/-- The fields of a mutation run one after the other. None of them may be null, so the first
exception ends the execution. -/
def runMutation : List FieldCall → AuthM Data
  | [] => pure []
  | call :: calls => do
    let value ← call.run g "AuthMutation"
    let data ← runMutation calls
    pure ((call.responseKey, value) :: data)

/-- `me` may be null. -/
def runQuery : List FieldCall → AuthM (Data × List GraphQLError)
  | [] => pure ([], [])
  | call :: calls => do
    let x ← handle
      (do
        let value ← call.run g "AuthQuery"
        pure (value, []))
      (fun e => pure (FieldValue.null, [errorOf e]))
    let rest ← runQuery calls
    pure ((call.responseKey, x.1) :: rest.1, x.2 ++ rest.2)

def executeOperation (type : OperationType) (calls : List FieldCall) : AuthM (ExecutionResult Data) :=
  match type with
  | .mutation =>
    handle
      (do
        let data ← runMutation g calls
        pure ⟨some data, []⟩)
      (fun e => pure (errorResult (errorOf e)))
  | .query => do
    let x ← runQuery g calls
    pure ⟨some x.1, x.2⟩
  | .subscription => pure (errorResult ⟨"", none⟩)

def plan (c : ExecutionContext) (h : HttpRequest) (chance : ℕ → Chance) :
    Option (OperationType × List FieldCall) := do
  let op ← c.executedOperation
  let calls ← callsFrom h chance op.type 0 op.rootFields
  some (op.type, calls)

def execution (c : ExecutionContext) (h : HttpRequest) (chance : ℕ → Chance) :
    AuthM (ExecutionResult Data) :=
  match plan c h chance with
  | none => pure (errorResult ⟨"", none⟩)
  | some (type, calls) => executeOperation g type calls

end Execution

/-! ## A visit -/

structure Visit where
  request : HttpRequest
  chance : ℕ → Chance
  commits : Bool

inductive HttpResponse where
  | tooManyRequests (retryAfter : ℤ)
  | internalServerError
  | badRequest
  | result (r : ExecutionResult Data)

/-- Everything the application keeps: the world of the handlers, the counters of the limiter
and the records of the extension. -/
structure HttpState where
  world : World
  counters : ExpiringMap String ℕ
  records : ExpiringMap String (IdempotencyRecord Data)

namespace HttpState

def limiter (s : HttpState) : Counters := ⟨s.world.redis.now, s.counters⟩

def store (s : HttpState) : IdempotencyStore Data := ⟨s.world.redis.now, s.records⟩

def advance (d : ℕ) (s : HttpState) : HttpState :=
  ⟨{ s.world with redis := s.world.redis.advance d }, (s.limiter.advance d).count,
    (s.store.advance d).records⟩

end HttpState

/-- An operation name that is no text, and variables that are no object, are refused. -/
def operationName (body : Variables) : Option (Option String) := optionalText body "operationName"

def variableValues (body : Variables) : Option (Option Variables) :=
  match Variables.get body "variables" with
  | none => some none
  | some .null => some none
  | some (.object values) => some (some values)
  | _ => none

/-- What the router makes of a body; `parse` gives the documents that parse and validate. -/
def contextOf (parse : String → Option Document) (h : HttpRequest) : Option ExecutionContext :=
  match h.post.body with
  | some (.object body) => do
    let query ← text body "query"
    let document ← parse query
    let name ← operationName body
    let values ← variableValues body
    some ⟨document, name, values, h.idempotencyKey⟩
  | _ => none

section Visits
variable (g : GlobalContainer) (word : Char → Bool) (parse : String → Option Document)

/-- The result of the execution and the end of `request_scope`; a commit that fails rolls back. -/
def executed (v : Visit) (c : ExecutionContext) (w : World) : ExecutionResult Data × World :=
  match execution g c v.request v.chance { w with commands := 0 } with
  | (x, w') =>
    (match x with
      | .ok r => r
      | .error e => errorResult (errorOf e),
      { w' with db := if v.commits then w'.db.commit Statement.apply else w'.db.discard })

def graphql (v : Visit) (c : ExecutionContext) (s : HttpState) : HttpResponse × HttpState :=
  match lookup g.sha256 c s.store with
  | .replay data => (.result ⟨some data, []⟩, s)
  | .conflict => (.result conflictResult, s)
  | .notEnrolled =>
    let x := executed g v c s.world
    (.result x.1, { s with world := x.2 })
  | .miss =>
    let x := executed g v c s.world
    (.result x.1, { s with world := x.2, records := (persist g.sha256 c x.1 s.store).records })

def route (v : Visit) (s : HttpState) : HttpResponse × HttpState :=
  match contextOf parse v.request with
  | none => (.badRequest, s)
  | some c => graphql g v c s

def visit (v : Visit) (s : HttpState) : HttpResponse × HttpState :=
  let limited := dispatch g.unicode word v.request.post s.limiter
  let s' := { s with counters := limited.2.count }
  match limited.1 with
  | .tooManyRequests retryAfter => (.tooManyRequests retryAfter, s')
  | .crashed => (.internalServerError, s')
  | .forwarded => route g parse v s'

structure FreshIds (v : Visit) (t : Tables) : Prop where
  users : ∀ i < (executedFields parse v.request.post).length,
    ∀ m ∈ t.users, m.id ≠ (v.chance i).register.userId
  tokens : ∀ i < (executedFields parse v.request.post).length,
    ∀ r ∈ t.passwordResetTokens, r.id ≠ (v.chance i).requestReset.tokenId
  distinctUsers : ∀ i j, i < j → j < (executedFields parse v.request.post).length →
    (v.chance i).register.userId ≠ (v.chance j).register.userId
  distinctTokens : ∀ i j, i < j → j < (executedFields parse v.request.post).length →
    (v.chance i).requestReset.tokenId ≠ (v.chance j).requestReset.tokenId

inductive HttpEvent where
  | wait (d : ℕ)
  | visit (v : Visit)

inductive HttpStep : HttpState → HttpEvent → HttpState → Prop where
  | wait (s : HttpState) (d : ℕ) : HttpStep s (.wait d) (s.advance d)
  | visit (s : HttpState) (v : Visit) (fresh : FreshIds parse v s.world.db.committed) :
      HttpStep s (.visit v) (visit g word parse v s).2

/-- Any accounts, and nothing else yet. -/
structure Opens (s : HttpState) : Prop where
  session : s.world.db.Fresh
  tables : s.world.db.committed.WellFormed g.unicode
  noTokens : s.world.db.committed.passwordResetTokens = []

def http : System HttpState HttpEvent := ⟨Opens g, HttpStep g word parse⟩

end Visits

section Sample
open SampleContainer

def askQuery : String :=
  "mutation($i:RequestResetInput!)\x7brequestPasswordReset(input:$i)\x7bsuccess\x7d\x7d"

def resetQuery : String :=
  "mutation($i:ResetPasswordInput!)\x7bresetPassword(input:$i)\x7bsuccess\x7d\x7d"

def oneField (operation : String) : Document :=
  [.operation .mutation none [⟨"i", none⟩]
    [.field none operation [("input", .variable "i")] [] [.field none "success" [] [] []]]]

def parseResets (query : String) : Option Document :=
  if query = askQuery then some (oneField "requestPasswordReset")
  else if query = resetQuery then some (oneField "resetPassword")
  else none

def requestWith (query : String) (input : Variables) : HttpRequest :=
  ⟨⟨some (.object [("query", .string query), ("variables", .object [("i", .object input)])]),
    some "203.0.113.7", none⟩, none, none⟩

def chanceWith (d : RequestResetDraws) (_ : ℕ) : Chance :=
  ⟨⟨jtiTwo, saltOne⟩, loginDraws, ⟨jtiTwo, rawB, eventOne⟩, ⟨eventOne⟩, d, ⟨saltTwo, eventOne⟩,
    noFaults⟩

def askVisit : Visit :=
  ⟨requestWith askQuery [("email", .string "alice@example.com")], chanceWith resetDraws, true⟩

def resetVisit : Visit :=
  ⟨requestWith resetQuery [("token", .string rawA.text), ("newPassword", .string "Passw0rd2")],
    chanceWith ⟨rawB, nextRow, eventOne⟩, true⟩

def sampleHttp : HttpState := ⟨initialWorld, ExpiringMap.empty, ExpiringMap.empty⟩

def askedHttp : HttpState := (visit sample isWordChar parseResets askVisit sampleHttp).2

def resetHttp : HttpState := (visit sample isWordChar parseResets resetVisit askedHttp).2

theorem sampleHttp_opens : Opens sample sampleHttp :=
  ⟨initialWorld_fresh, initialWorld_wellFormed, rfl⟩

theorem askedHttp_users : askedHttp.world.db.committed.users = [aliceRow] := by decide +kernel

theorem askedHttp_tokens :
    askedHttp.world.db.committed.passwordResetTokens.map PasswordResetTokenModel.id = [tokenRow] := by
  decide +kernel

theorem freshIds_one {parse : String → Option Document} {v : Visit} {t : Tables}
    (hone : (executedFields parse v.request.post).length = 1)
    (hu : ∀ m ∈ t.users, m.id ≠ (v.chance 0).register.userId)
    (ht : ∀ r ∈ t.passwordResetTokens, r.id ≠ (v.chance 0).requestReset.tokenId) :
    FreshIds parse v t := by
  refine ⟨fun i hi => ?_, fun i hi => ?_, fun i j hij hj => ?_, fun i j hij hj => ?_⟩
  · obtain rfl : i = 0 := by omega
    exact hu
  · obtain rfl : i = 0 := by omega
    exact ht
  · omega
  · omega

theorem askVisit_fresh : FreshIds parseResets askVisit sampleHttp.world.db.committed := by
  refine freshIds_one (by decide +kernel) (fun m hm => ?_) (fun r hr => absurd hr List.not_mem_nil)
  rw [List.mem_singleton.1 hm]
  decide

theorem resetVisit_fresh : FreshIds parseResets resetVisit askedHttp.world.db.committed := by
  refine freshIds_one (by decide +kernel) (fun m hm => ?_) (fun r hr => ?_)
  · rw [askedHttp_users] at hm
    rw [List.mem_singleton.1 hm]
    decide
  · have hid := List.mem_map_of_mem (f := PasswordResetTokenModel.id) hr
    rw [askedHttp_tokens] at hid
    rw [List.mem_singleton.1 hid]
    decide

theorem reset_runs : Runs (http sample isWordChar parseResets) sampleHttp
    [(askedHttp, .visit resetVisit), (sampleHttp, .visit askVisit)] resetHttp :=
  (Runs.single (HttpStep.visit sampleHttp askVisit askVisit_fresh)).next
    (HttpStep.visit askedHttp resetVisit resetVisit_fresh)

end Sample

end AuthService.HttpService
