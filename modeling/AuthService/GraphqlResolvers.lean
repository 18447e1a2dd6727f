import AuthService.CommandHandlers

set_option autoImplicit false

/-! The GraphQL resolvers, the executor around them and the scope of a request. -/
namespace AuthService.GraphqlResolvers
open Uuids PythonText DomainModel AccountTables Transactions FallibleState Fallible RedisSessions
open RequestPorts RedisTokenStore CommandHandlers

structure UserInfo where
  id : String
  email : String
  isActive : Bool
  deriving DecidableEq

/-- What a client receives; `errors` stands for a response with a GraphQL error. -/
inductive Answer where
  | operationResult (success : Bool) (message : String)
  | authPayload (accessToken refreshToken sessionId tokenType : String)
  | userInfo (info : Option UserInfo)
  | errors (e : Exn)
  deriving DecidableEq

def Answer.failed : Answer → Bool
  | .operationResult success _ => !success
  | .authPayload _ _ _ _ => false
  | .userInfo _ => false
  | .errors _ => true

def TokenPairDTO.toPayload (r : TokenPairDTO) : Answer :=
  .authPayload r.accessToken r.refreshToken r.sessionId.str r.tokenType

/-- The text after `Bearer `, stripped. -/
def bearerToken (header : String) : Option String :=
  if startsWith "Bearer " header then some (strip (removePrefix "Bearer " header)) else none

theorem bearerToken_append {token : String} (h : ∀ c ∈ token.toList, isSpace c = false) :
    bearerToken ("Bearer " ++ token) = some token := by
  have hp : startsWith "Bearer " ("Bearer " ++ token) = true := by
    simp [startsWith, String.toList_append]
  have hr : removePrefix "Bearer " ("Bearer " ++ token) = token := by
    rw [removePrefix, if_pos hp, String.toList_append, List.drop_left, String.ofList_toList]
  rw [bearerToken, if_pos hp, hr, strip_of_no_space _ h]

inductive Request where
  | register (email password : String) (d : RegisterDraws)
  | login (email password : String) (deviceInfo ip : Option String) (d : LoginDraws)
  | refreshToken (token : String) (ip : Option String) (d : RefreshDraws)
  | revokeSession (header sessionId : String) (ip : Option String) (d : RevokeDraws)
  | requestPasswordReset (email : String) (ip : Option String) (d : RequestResetDraws)
  | resetPassword (token newPassword : String) (ip : Option String) (d : ResetDraws)
  | me (header : String)

section Resolvers
variable (g : GlobalContainer) (faults : Faults)

/-- `try: decode_access_token(...) except (TokenExpiredError, InvalidTokenError)`. -/
def tryDecode (token : String) : AuthM (Option Claims) :=
  handle
    (do
      let claims ← decodeAccessToken g token
      pure (some claims))
    fun e =>
      match e with
      | .tokenExpiredError _ => pure none
      | .invalidTokenError _ => pure none
      | e => raise e

def registerExcept (e : Exn) : AuthM Answer :=
  match e with
  | .invalidEmailError m => pure (.operationResult false m)
  | .weakPasswordError m => pure (.operationResult false m)
  | .userAlreadyExistsError _ => pure (.operationResult false "Registration could not be completed")
  | e => raise e

def register (email password : String) (d : RegisterDraws) : AuthM Answer :=
  handle
    (do
      registerUser g faults ⟨email, password⟩ d
      pure (.operationResult true "User registered successfully"))
    registerExcept

def loginExcept (e : Exn) : AuthM Answer :=
  match e with
  | .invalidCredentialsError m => raise (.graphQLError m)
  | .invalidEmailError m => raise (.graphQLError m)
  | e => raise e

def login (email password : String) (deviceInfo ip : Option String) (d : LoginDraws) : AuthM Answer :=
  handle
    (do
      let result ← authenticateUser g faults ⟨email, password, deviceInfo, ip⟩ d
      pure (TokenPairDTO.toPayload result))
    loginExcept

def refreshExcept (e : Exn) : AuthM Answer :=
  match e with
  | .invalidTokenError m => raise (.graphQLError m)
  | e => raise e

def refresh (token : String) (ip : Option String) (d : RefreshDraws) : AuthM Answer :=
  handle
    (do
      let result ← refreshToken g faults ⟨token, ip⟩ d
      pure (TokenPairDTO.toPayload result))
    refreshExcept

def authenticationRequired : Answer := .operationResult false "Authentication required"

def revoke (header sessionIdText : String) (ip : Option String) (d : RevokeDraws) : AuthM Answer :=
  match bearerToken header with
  | none => pure authenticationRequired
  | some token => do
    let decoded ← tryDecode g token
    match decoded with
    | none => pure authenticationRequired
    | some claims =>
      if claims.sub = "" ∨ claims.jti = "" then pure authenticationRequired
      else
        let valid ← isAccessJtiValid faults claims.jti
        if valid = false then pure authenticationRequired
        else
          match UUID.parse sessionIdText with
          | none => raise .valueError
          | some sessionId =>
            let sessionData ← getSession faults sessionId
            match sessionData with
            | none => pure (.operationResult false "Session not found")
            | some data =>
              if data.userId.map UUID.str ≠ some claims.sub then
                pure (.operationResult false "Not authorised to revoke this session")
              else
                handle
                  (do
                    revokeSessionHandler faults ⟨sessionId, ip⟩ d
                    pure (.operationResult true "Session revoked"))
                  fun _ => pure (.operationResult false "Internal error")

def requestResetExcept (e : Exn) : AuthM Answer :=
  match e with
  | .invalidEmailError m => pure (.operationResult false m)
  | .userNotFoundError m => pure (.operationResult false m)
  | e => raise e

def requestReset (email : String) (ip : Option String) (d : RequestResetDraws) : AuthM Answer :=
  handle
    (do
      requestPasswordReset g faults ⟨email, ip⟩ d
      pure (.operationResult true "If this email is registered, a reset link has been sent"))
    requestResetExcept

def resetExcept (e : Exn) : AuthM Answer :=
  match e with
  | .tokenExpiredError _ => pure (.operationResult false "Invalid or expired reset token")
  | .tokenAlreadyUsedError _ => pure (.operationResult false "Invalid or expired reset token")
  | .tokenNotFoundError _ => pure (.operationResult false "Invalid or expired reset token")
  | .userNotFoundError m => pure (.operationResult false m)
  | .weakPasswordError m => pure (.operationResult false m)
  | .invalidTokenError m => pure (.operationResult false m)
  | e => raise e

def reset (token newPassword : String) (ip : Option String) (d : ResetDraws) : AuthM Answer :=
  handle
    (do
      resetPassword g faults ⟨token, newPassword, ip⟩ d
      pure (.operationResult true "Password reset successfully"))
    resetExcept

def me (header : String) : AuthM (Option UserInfo) :=
  match bearerToken header with
  | none => pure none
  | some token =>
    if token = "" then pure none
    else do
      let decoded ← tryDecode g token
      match decoded with
      | none => pure none
      | some claims =>
        if claims.jti = "" ∨ claims.sub = "" then pure none
        else
          let valid ← isAccessJtiValid faults claims.jti
          if valid = false then pure none
          else
            match UUID.parse claims.sub with
            | none => raise .valueError
            | some userId =>
              let found ← findById g faults userId
              match found with
              | none => pure none
              | some user =>
                if user.isActive = false then pure none
                else pure (some ⟨user.id.str, user.email.value, user.isActive⟩)

def resolve : Request → AuthM Answer
  | .register email password d => register g faults email password d
  | .login email password deviceInfo ip d => login g faults email password deviceInfo ip d
  | .refreshToken token ip d => refresh g faults token ip d
  | .revokeSession header sessionId ip d => revoke g faults header sessionId ip d
  | .requestPasswordReset email ip d => requestReset g faults email ip d
  | .resetPassword token newPassword ip d => reset g faults token newPassword ip d
  | .me header => do
    let info ← me g faults header
    pure (.userInfo info)

/-- The executor reports every exception of a resolver in `errors`. -/
def execute (m : AuthM Answer) : AuthM Answer := handle m (fun e => pure (.errors e))

/-- `request_scope`: the session commits when the body exits without an exception. -/
def requestScope {α : Type} (m : AuthM α) : AuthM α := fun w =>
  match m { w with commands := 0 } with
  | (.ok a, w') => (.ok a, { w' with db := w'.db.commit Statement.apply })
  | (.error e, w') => (.error e, { w' with db := w'.db.discard })

def serve (r : Request) : AuthM Answer := requestScope (execute (resolve g faults r))

def reported : Except Exn Answer → Answer
  | .ok a => a
  | .error e => .errors e

def answer (r : Request) (w : World) : Answer := reported (serve g faults r w).1

def after (r : Request) (w : World) : World := (serve g faults r w).2

/-- No exception reaches `request_scope`: the transaction of a request always commits. -/
theorem serve_run (r : Request) (w : World) :
    serve g faults r w =
      (.ok (reported (resolve g faults r { w with commands := 0 }).1),
        { (resolve g faults r { w with commands := 0 }).2 with
          db := (resolve g faults r { w with commands := 0 }).2.db.commit Statement.apply }) := by
  unfold serve requestScope
  cases h : resolve g faults r { w with commands := 0 } with
  | mk x w' =>
    cases x with
    | ok a => rw [execute, handle_ok h]; rfl
    | error e => rw [execute, handle_error h]; rfl

theorem answer_eq (r : Request) (w : World) :
    answer g faults r w = reported (resolve g faults r { w with commands := 0 }).1 := by
  rw [answer, serve_run, reported]

theorem after_eq (r : Request) (w : World) :
    after g faults r w =
      { (resolve g faults r { w with commands := 0 }).2 with
        db := (resolve g faults r { w with commands := 0 }).2.db.commit Statement.apply } := by
  rw [after, serve_run]

end Resolvers

end AuthService.GraphqlResolvers
