import AuthService.RedisTokenStore

set_option autoImplicit false

/-! The command handlers. What a handler draws at random is part of its input. -/
namespace AuthService.CommandHandlers
open Uuids PythonText DomainModel AccountTables FallibleState Fallible RequestPorts RedisTokenStore

structure RegisterUserCommand where
  email : String
  password : String

structure AuthenticateUserCommand where
  email : String
  password : String
  deviceInfo : Option String
  ipAddress : Option String

structure RefreshTokenCommand where
  refreshToken : String
  ipAddress : Option String

structure RevokeSessionCommand where
  sessionId : UUID
  ipAddress : Option String

structure RequestPasswordResetCommand where
  email : String
  ipAddress : Option String

structure ResetPasswordCommand where
  token : String
  newPassword : String
  ipAddress : Option String

structure TokenPairDTO where
  accessToken : String
  refreshToken : String
  sessionId : UUID
  tokenType : String

structure RegisterDraws where
  userId : UUID
  salt : String

structure LoginDraws where
  sessionId : UUID
  jti : UUID
  refreshToken : UrlToken
  eventId : UUID
  dummySalt : String

structure RefreshDraws where
  jti : UUID
  refreshToken : UrlToken
  eventId : UUID

structure RevokeDraws where
  eventId : UUID

structure RequestResetDraws where
  rawToken : UrlToken
  tokenId : UUID
  eventId : UUID

structure ResetDraws where
  salt : String
  eventId : UUID

section Handlers
variable (g : GlobalContainer) (faults : Faults)

def registerUser (command : RegisterUserCommand) (d : RegisterDraws) : AuthM Unit := do
  let email ← ofExcept (Email.new g.unicode command.email)
  let _ ← ofExcept (PlainPassword.new g.unicode command.password)
  let existing ← findByEmail g faults email
  match existing with
  | some _ => raise (.userAlreadyExistsError "An account with this email already exists")
  | none =>
    let createdAt ← now
    saveUser g faults ⟨d.userId, email, g.hashpw command.password d.salt, true, createdAt⟩

/-- `_record_login_failed`. -/
def recordLoginFailed (userId : Option UUID) (ipAddress : Option String) (reason : String)
    (eventId : UUID) : AuthM Unit := do
  let occurredAt ← now
  tryRecord faults ⟨eventId, .loginFailed, occurredAt, userId, none, ipAddress, [("reason", reason)]⟩

/-- The dummy verification; its outcome is thrown away. -/
def verifyDummy (password salt : String) : AuthM Unit := do
  update fun w =>
    if w.dummyHash = "" then { w with dummyHash := g.hashpw "__dummy_timing_guard__" salt } else w
  let w ← get
  let _ := verify g password w.dummyHash
  pure ()

/-- `(device_info or "")[:512] or None`. -/
def trimDeviceInfo (deviceInfo : Option String) : Option String :=
  let s := String.ofList ((deviceInfo.getD "").toList.take 512)
  if s = "" then none else some s

def authenticateUser (command : AuthenticateUserCommand) (d : LoginDraws) : AuthM TokenPairDTO := do
  let email ← ofExcept (Email.new g.unicode command.email)
  let found ← findByEmail g faults email
  match found with
  | none =>
    verifyDummy g command.password d.dummySalt
    recordLoginFailed faults none command.ipAddress "user_not_found" d.eventId
    raise (.invalidCredentialsError "Invalid email or password")
  | some user =>
    if user.isActive = false then
      recordLoginFailed faults (some user.id) command.ipAddress "inactive_account" d.eventId
      raise (.invalidCredentialsError "Invalid email or password")
    else if verify g command.password user.hashedPassword = false then
      recordLoginFailed faults (some user.id) command.ipAddress "invalid_password" d.eventId
      raise (.invalidCredentialsError "Invalid email or password")
    else
      let (accessToken, jti) ← generateAccessToken g user.id d.sessionId d.jti
      let deviceInfo := trimDeviceInfo command.deviceInfo
      createSession g faults d.sessionId user.id jti d.refreshToken.text deviceInfo
        g.accessTokenTtlSeconds g.refreshTokenTtlSeconds
      let occurredAt ← now
      tryRecord faults ⟨d.eventId, .loginSuccess, occurredAt, some user.id, some d.sessionId,
        command.ipAddress, [("device_info", deviceInfo.getD "")]⟩
      pure ⟨accessToken, d.refreshToken.text, d.sessionId, "Bearer"⟩

def refreshToken (command : RefreshTokenCommand) (d : RefreshDraws) : AuthM TokenPairDTO := do
  let sessionData ← getSessionByRefreshToken faults command.refreshToken
  match sessionData with
  | none => raise (.invalidTokenError "Invalid or expired refresh token")
  | some (userIdText, sessionIdText) =>
    match UUID.parse userIdText, UUID.parse sessionIdText with
    | some userId, some sessionId =>
      let (accessToken, jti) ← generateAccessToken g userId sessionId d.jti
      rotateSession g faults sessionId command.refreshToken jti d.refreshToken.text
        g.accessTokenTtlSeconds g.refreshTokenTtlSeconds
      let occurredAt ← now
      tryRecord faults ⟨d.eventId, .tokenRefreshed, occurredAt, some userId, some sessionId,
        command.ipAddress, []⟩
      pure ⟨accessToken, d.refreshToken.text, sessionId, "Bearer"⟩
    | _, _ => raise .valueError

def revokeSessionHandler (command : RevokeSessionCommand) (d : RevokeDraws) : AuthM Unit := do
  let sessionData ← getSession faults command.sessionId
  let userId := sessionData.bind fun data => data.userId
  revokeSession faults command.sessionId
  let occurredAt ← now
  tryRecord faults ⟨d.eventId, .sessionRevoked, occurredAt, userId, some command.sessionId,
    command.ipAddress, [("reason", "user_logout")]⟩

/-- `now + timedelta(minutes=m)`. -/
def minutesAfter (m : ℤ) (now : ℕ) : ℤ := now + 60000 * m

/-- The token a reset request saves; only the hash of the raw token is stored. -/
def requestedToken (d : RequestResetDraws) (userId : UUID) (now : ℕ) : PasswordResetToken :=
  ⟨d.tokenId, userId, g.sha256 d.rawToken.text, minutesAfter g.resetTokenExpireMinutes now, false⟩

def requestPasswordReset (command : RequestPasswordResetCommand) (d : RequestResetDraws) :
    AuthM Unit := do
  let email ← ofExcept (Email.new g.unicode command.email)
  let found ← findByEmail g faults email
  match found with
  | none => raise (.userNotFoundError ("No user with email " ++ command.email))
  | some user =>
    deleteAllByUserId faults user.id
    let time ← now
    saveToken faults (requestedToken g d user.id time)
    sendResetEmail faults email.value d.rawToken.text
    let occurredAt ← now
    tryRecord faults ⟨d.eventId, .passwordResetRequested, occurredAt, some user.id, none,
      command.ipAddress, []⟩

def resetPassword (command : ResetPasswordCommand) (d : ResetDraws) : AuthM Unit := do
  let _ ← ofExcept (PlainPassword.new g.unicode command.newPassword)
  let found ← findByToken faults (g.sha256 command.token)
  match found with
  | none => raise (.tokenNotFoundError "Reset token not found")
  | some stored =>
    let time ← now
    let resetToken ← ofExcept (stored.consume time)
    let found ← findById g faults resetToken.userId
    match found with
    | none => raise (.userNotFoundError "User associated with reset token not found")
    | some user =>
      let user := user.changePassword (g.hashpw command.newPassword d.salt)
      saveUser g faults user
      saveToken faults resetToken
      revokeAllUserSessions faults user.id
      let occurredAt ← now
      tryRecord faults ⟨d.eventId, .passwordResetCompleted, occurredAt, some user.id, none,
        command.ipAddress, []⟩

end Handlers

end AuthService.CommandHandlers
