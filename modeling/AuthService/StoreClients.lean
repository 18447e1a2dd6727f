import AuthService.RecordThreads
import AuthService.RedisClients
import AuthService.SessionThreads

set_option autoImplicit false

/-! The Redis commands that the token store, the rate limiter and the idempotency store send,
and what they make of the replies. -/
namespace AuthService.StoreClients
open Uuids PythonText JsonText JsonReader GraphqlDocuments ExpiringMaps RedisSessions RateLimiter
open RequestPorts
open CommandHandlers SessionThreads IdempotencyExtension IdempotencyRecords RecordThreads
open RedisCommands RedisClients

/-- The dictionary of `get_session`; an empty one counts as no session. -/
def sessionData (fields : List (String × String)) : Option SessionHash :=
  if fields = [] then none
  else some ⟨(field "user_id" fields).bind UUID.parse, field "device_info" fields,
    field "created_at" fields, field "last_used" fields, field "current_jti" fields,
    field "current_refresh" fields⟩

def createCommands (nowIso : String) (sid uid : UUID) (jti token : String) (device : Option String)
    (accessTtl refreshTtl : ℕ) : List Command :=
  [.setex (Key.access jti).text accessTtl (payload uid sid),
    .setex (Key.refresh token).text refreshTtl (payload uid sid),
    .hset (Key.session sid).text [("user_id", uid.str), ("device_info", device.getD ""),
      ("created_at", nowIso), ("last_used", nowIso), ("current_jti", jti), ("current_refresh", token)],
    .expire (Key.session sid).text refreshTtl,
    .sadd (Key.sessions uid).text sid.str,
    .expire (Key.sessions uid).text refreshTtl]

/-- `if jti: pipe.delete(...)`. -/
def delUnlessEmpty (k : String) (key : Key) : List Command := if k = "" then [] else [.del key.text]

def rotateCommands (nowIso : String) (sid uid : UUID) (oldJti oldToken jti token : String)
    (accessTtl refreshTtl : ℕ) : List Command :=
  .del (Key.refresh oldToken).text :: (delUnlessEmpty oldJti (.access oldJti) ++
    [.setex (Key.access jti).text accessTtl (payload uid sid),
      .setex (Key.refresh token).text refreshTtl (payload uid sid),
      .hset (Key.session sid).text
        [("last_used", nowIso), ("current_jti", jti), ("current_refresh", token)],
      .expire (Key.session sid).text refreshTtl,
      .expire (Key.sessions uid).text refreshTtl])

def revokeCommands (sid : UUID) (data : SessionHash) : List Command :=
  delUnlessEmpty (data.currentJti.getD "") (.access (data.currentJti.getD "")) ++
    (delUnlessEmpty (data.currentRefresh.getD "") (.refresh (data.currentRefresh.getD "")) ++
      (.del (Key.session sid).text ::
        match data.userId with
        | none => []
        | some uid => [.srem (Key.sessions uid).text sid.str]))

def sessionSend (g : GlobalContainer) (now : ℕ) : SessionThread → Option (List Command)
  | .login userId deviceInfo d =>
    some (createCommands (g.isoformat now) d.sessionId userId d.jti.str d.refreshToken.text deviceInfo
      g.accessTokenTtlSeconds g.refreshTokenTtlSeconds)
  | .refresh token _ => some [.getdel (Key.refresh token).text]
  | .claimed _ _ sid => some [.hgetall (Key.session sid).text]
  | .rotating token d sid userId data =>
    some (rotateCommands (g.isoformat now) sid userId (data.currentJti.getD "") token d.jti.str
      d.refreshToken.text g.accessTokenTtlSeconds g.refreshTokenTtlSeconds)
  | .bearer _ jti _ => some [.exists (Key.access jti).text]
  | .ownership _ sid => some [.hgetall (Key.session sid).text]
  | .revokeHandler sid => some [.hgetall (Key.session sid).text]
  | .revoke sid => some [.hgetall (Key.session sid).text]
  | .revoking sid data => some (revokeCommands sid data)
  | .revokeAll userId => some [.smembers (Key.sessions userId).text]
  | .clearing userId _ => some [.del (Key.sessions userId).text]
  | .revokeEach _ (sid :: _) => some [.hgetall (Key.session sid).text]
  | .revokingEach _ sid data _ => some (revokeCommands sid data)
  | .loggedIn _ => none
  | .refreshed _ _ _ => none
  | .refreshFailed => none
  | .declined => none
  | .revokeEach _ [] => none
  | .returned _ => none

def readHash : List Reply → Option (Option SessionHash)
  | [.fields fields] => some (sessionData fields)
  | _ => none

def readText : List Reply → Option (Option String)
  | [.nil] => some none
  | [.bulk text] => some (some text)
  | _ => none

def readExists : List Reply → Option Bool
  | [.integer n] => some (n ≠ 0)
  | _ => none

def readMembers : List Reply → Option (List UUID)
  | [.members members] => members.mapM UUID.parse
  | _ => none

def sessionReceive (replies : List Reply) : SessionThread → Option SessionThread
  | .login _ _ d => some (.loggedIn d)
  | .refresh token d => (readText replies).map (SessionThread.afterGetdel token d)
  | .claimed token d sid => (readHash replies).map (SessionThread.afterHgetall token d sid)
  | .rotating token d sid _ _ => some (.refreshed token d sid)
  | .bearer userId _ sid => (readExists replies).map (SessionThread.afterExists userId sid)
  | .ownership userId sid => (readHash replies).map (SessionThread.afterOwnership userId sid)
  | .revokeHandler sid => (readHash replies).map fun _ => .revoke sid
  | .revoke sid => (readHash replies).map (SessionThread.afterRevokeRead sid)
  | .revoking sid _ => some (.returned [sid])
  | .revokeAll userId => (readMembers replies).map (SessionThread.clearing userId)
  | .clearing _ ids => some (SessionThread.loop [] ids)
  | .revokeEach gone (sid :: rest) => (readHash replies).map (SessionThread.afterEachRead gone sid rest)
  | .revokingEach gone sid _ rest => some (SessionThread.loop (sid :: gone) rest)
  | .loggedIn _ => none
  | .refreshed _ _ _ => none
  | .refreshFailed => none
  | .declined => none
  | .revokeEach _ [] => none
  | .returned _ => none

def sessionClient (g : GlobalContainer) : Client SessionThread :=
  ⟨sessionSend g, fun t replies => sessionReceive replies t⟩

def checkSend : Check → Option (List Command)
  | .start call => some [.set call.redisKey "0" call.windowSeconds]
  | .counting call => some [.incr call.redisKey]
  | .exceeded call _ => some [.ttl call.redisKey]
  | .returned _ _ => none
  | .raised _ _ => none

def checkReceive : Check → List Reply → Option Check
  | .start call, _ => some (.counting call)
  | .counting call, [.integer n] => some (Check.afterIncr call n.toNat)
  | .exceeded call _, [.integer t] =>
    some (.raised call ⟨if 0 < t then t else call.windowSeconds, call.key⟩)
  | _, _ => none

def checkClient : Client Check := ⟨fun _ t => checkSend t, checkReceive⟩

def fetched : Option String → Fetched
  | none => .absent
  | some text =>
    match loads text with
    | none => .malformed
    | some cached => .value cached

/-- The commands of the extension; without a key it sends none. -/
def recordSend (sha256 : String → String) : RecordThread → Option (List Command)
  | .arriving c _ =>
    match c.enrolled with
    | none => some []
    | some (operation, key) => some [.get (makeKey operation key)]
  | .missed c e =>
    match c.enrolled, e.result.data with
    | some (operation, key), some data =>
      if e.errors = [] then
        some [.setex (makeKey operation key) recordTtl
          (recordValue (sha256 (c.hashInput operation)) data).dumps]
      else some []
    | _, _ => some []
  | .done _ _ _ => none

def lookedUp (sha256 : String → String) (c : ExecutionContext) (operation : String) : Fetched → Opened
  | .absent => .missed
  | .malformed => .raised
  | .value .null => .missed
  | .value (.object fields) =>
    if sameHash fields (sha256 (c.hashInput operation)) then
      match Variables.get fields "response" with
      | none => .raised
      | some response => .answered ⟨some response, []⟩
    else .answered conflictResult
  | .value _ => .raised

def recordReceive (sha256 : String → String) : RecordThread → List Reply → Option RecordThread
  | .arriving c e, replies =>
    match c.enrolled with
    | none => some (RecordThread.opened c e .skipped)
    | some (operation, _) =>
      (readText replies).map fun raw => RecordThread.opened c e
        (lookedUp sha256 c operation (fetched raw))
  | .missed c e, _ => some (.done c e ⟨true, some e.result⟩)
  | .done _ _ _, _ => none

def recordClient (sha256 : String → String) : Client RecordThread :=
  ⟨fun _ t => recordSend sha256 t, recordReceive sha256⟩

theorem beforeYield_lookedUp {sha256 : String → String} {c : ExecutionContext} {operation key : String}
    (hen : c.enrolled = some (operation, key)) (s : RecordStore) :
    beforeYield sha256 c s =
      lookedUp sha256 c operation (fetched (s.texts.value (makeKey operation key))) := by
  have hget : s.get (makeKey operation key) = fetched (s.texts.value (makeKey operation key)) := by
    unfold RecordStore.get fetched
    cases s.texts.value (makeKey operation key) <;> rfl
  simp only [beforeYield, hen, hget]
  cases fetched (s.texts.value (makeKey operation key)) with
  | absent => rfl
  | malformed => rfl
  | value j => cases j <;> rfl

end AuthService.StoreClients
