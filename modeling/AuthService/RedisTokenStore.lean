import AuthService.RequestPorts

set_option autoImplicit false

/-! The methods of `RedisTokenStore` as sequences of Redis commands. -/
namespace AuthService.RedisTokenStore
open Uuids PythonText DomainModel FallibleState Fallible RedisSessions RequestPorts

variable (g : GlobalContainer) (faults : Faults)

def createSession (sessionId userId : UUID) (accessJti refreshToken : String)
    (deviceInfo : Option String) (accessTtl refreshTtl : ℕ) : AuthM Unit :=
  command faults (fun r => ((), createPipeline (g.isoformat r.now) sessionId userId accessJti
    refreshToken deviceInfo accessTtl refreshTtl r))

def getSession (sessionId : UUID) : AuthM (Option SessionHash) :=
  command faults (fun r => (r.session.value sessionId, r))

def isAccessJtiValid (jti : String) : AuthM Bool :=
  command faults (fun r => ((r.access jti).isSome, r))

def getSessionByRefreshToken (refreshToken : String) : AuthM (Option (String × String)) := do
  let raw ← command faults (getdel refreshToken)
  match raw with
  | none => pure none
  | some raw =>
    match splitColon raw with
    | none => raise (.invalidTokenError "Malformed refresh token payload in store")
    | some parts => pure (some parts)

def rotateSession (sessionId : UUID) (oldRefreshToken newAccessJti newRefreshToken : String)
    (accessTtl refreshTtl : ℕ) : AuthM Unit := do
  let sessionData ← getSession faults sessionId
  match sessionData with
  | none => raise (.invalidTokenError "Session not found or expired during rotation")
  | some data =>
    match data.userId with
    | none => raise .keyError
    | some userId =>
      command faults (fun r => ((), rotatePipeline (g.isoformat r.now) sessionId userId
        (data.currentJti.getD "") oldRefreshToken newAccessJti newRefreshToken accessTtl refreshTtl r))

def revokeSession (sessionId : UUID) : AuthM Unit := do
  let sessionData ← getSession faults sessionId
  match sessionData with
  | none => pure ()
  | some data => command faults (fun r => ((), revokePipeline sessionId data r))

/-- The loop of `revoke_all_user_sessions`. -/
def revokeEach : List UUID → AuthM Unit
  | [] => pure ()
  | sid :: rest => do
    revokeSession faults sid
    revokeEach rest

def revokeAllUserSessions (userId : UUID) : AuthM Unit := do
  let sessionIds ← command faults (fun r => ((r.sessions.value userId).getD [], r))
  command faults (fun r => ((), { r with sessions := r.sessions.remove userId }))
  revokeEach faults sessionIds

end AuthService.RedisTokenStore
