import AuthService.HandlerRuns
import AuthService.ThreadPools

set_option autoImplicit false

/-! Handler runs on the token store, one Redis command at a time. The local state of a
thread is the handler with what it has drawn and read so far. -/
namespace AuthService.SessionThreads
open Uuids PythonText DomainModel FallibleState Fallible ExpiringMaps RedisSessions RequestPorts
open RedisTokenStore CommandHandlers HandlerRuns LabelledRuns ThreadPools

inductive SessionThread where
  | login (userId : UUID) (deviceInfo : Option String) (d : LoginDraws)
  | loggedIn (d : LoginDraws)
  | refresh (token : String) (d : RefreshDraws)
  | claimed (token : String) (d : RefreshDraws) (sessionId : UUID)
  | rotating (token : String) (d : RefreshDraws) (sessionId userId : UUID) (data : SessionHash)
  | refreshed (token : String) (d : RefreshDraws) (sessionId : UUID)
  | refreshFailed
  | bearer (userId : UUID) (jti : String) (sessionId : UUID)
  | ownership (userId sessionId : UUID)
  | declined
  | revokeHandler (sessionId : UUID)
  | revoke (sessionId : UUID)
  | revoking (sessionId : UUID) (data : SessionHash)
  | revokeAll (userId : UUID)
  | clearing (userId : UUID) (sessionIds : List UUID)
  | revokeEach (gone sessionIds : List UUID)
  | revokingEach (gone : List UUID) (sessionId : UUID) (data : SessionHash) (rest : List UUID)
  | returned (gone : List UUID)

namespace SessionThread

def afterGetdel (token : String) (d : RefreshDraws) (raw : Option String) : SessionThread :=
  match raw.bind splitColon with
  | none => .refreshFailed
  | some (userIdText, sessionIdText) =>
    match UUID.parse userIdText, UUID.parse sessionIdText with
    | some _, some sessionId => .claimed token d sessionId
    | _, _ => .refreshFailed

def afterHgetall (token : String) (d : RefreshDraws) (sessionId : UUID) (data : Option SessionHash) :
    SessionThread :=
  match data with
  | none => .refreshFailed
  | some h =>
    match h.userId with
    | none => .refreshFailed
    | some userId => .rotating token d sessionId userId h

/-- What `revoke_session` of the schema makes of EXISTS for the `jti` of the caller. -/
def afterExists (userId sessionId : UUID) (valid : Bool) : SessionThread :=
  if valid then .ownership userId sessionId else .declined

def afterOwnership (userId sessionId : UUID) (data : Option SessionHash) : SessionThread :=
  match data with
  | none => .declined
  | some h => if h.userId = some userId then .revokeHandler sessionId else .declined

def afterRevokeRead (sessionId : UUID) (data : Option SessionHash) : SessionThread :=
  match data with
  | none => .returned []
  | some h => .revoking sessionId h

/-- The loop of `revoke_all_user_sessions`; `gone` are the sessions it has found and revoked. -/
def loop (gone : List UUID) : List UUID → SessionThread
  | [] => .returned gone
  | sid :: rest => .revokeEach gone (sid :: rest)

def afterEachRead (gone : List UUID) (sessionId : UUID) (rest : List UUID)
    (data : Option SessionHash) : SessionThread :=
  match data with
  | none => loop gone rest
  | some h => .revokingEach gone sessionId h rest

def step (g : GlobalContainer) (r : Redis) : SessionThread → Option (Redis × SessionThread)
  | .login userId deviceInfo d =>
    some (createPipeline (g.isoformat r.now) d.sessionId userId d.jti.str d.refreshToken.text deviceInfo
      g.accessTokenTtlSeconds g.refreshTokenTtlSeconds r, .loggedIn d)
  | .refresh token d => some ((getdel token r).2, afterGetdel token d (getdel token r).1)
  | .claimed token d sid => some (r, afterHgetall token d sid (r.session.value sid))
  | .rotating token d sid userId data =>
    some (rotatePipeline (g.isoformat r.now) sid userId (data.currentJti.getD "") token d.jti.str
      d.refreshToken.text g.accessTokenTtlSeconds g.refreshTokenTtlSeconds r, .refreshed token d sid)
  | .bearer userId jti sid => some (r, afterExists userId sid (r.access jti).isSome)
  | .ownership userId sid => some (r, afterOwnership userId sid (r.session.value sid))
  | .revokeHandler sid => some (r, .revoke sid)
  | .revoke sid => some (r, afterRevokeRead sid (r.session.value sid))
  | .revoking sid data => some (revokePipeline sid data r, .returned [sid])
  | .revokeAll userId => some (r, .clearing userId ((r.sessions.value userId).getD []))
  | .clearing userId ids => some ({ r with sessions := r.sessions.remove userId }, loop [] ids)
  | .revokeEach gone (sid :: rest) =>
    some (r, afterEachRead gone sid rest (r.session.value sid))
  | .revokingEach gone sid data rest => some (revokePipeline sid data r, loop (sid :: gone) rest)
  | .loggedIn _ => none
  | .refreshed _ _ _ => none
  | .refreshFailed => none
  | .declined => none
  | .revokeEach _ [] => none
  | .returned _ => none

def start : SessionThread → Bool
  | .login _ _ _ => true
  | .refresh _ _ => true
  | .bearer _ _ _ => true
  | .revokeHandler _ => true
  | .revoke _ => true
  | .revokeAll _ => true
  | _ => false

def finished : SessionThread → Bool
  | .loggedIn _ => true
  | .refreshed _ _ _ => true
  | .refreshFailed => true
  | .declined => true
  | .revokeEach _ [] => true
  | .returned _ => true
  | _ => false

def inFlight (t : SessionThread) : Bool := !t.start && !t.finished

def pending : SessionThread → Option (String × String)
  | .login _ _ d => some (d.jti.str, d.refreshToken.text)
  | .refresh _ d => some (d.jti.str, d.refreshToken.text)
  | .claimed _ d _ => some (d.jti.str, d.refreshToken.text)
  | .rotating _ d _ _ _ => some (d.jti.str, d.refreshToken.text)
  | _ => none

def issued : SessionThread → Option (UUID × String × String)
  | .loggedIn d => some (d.sessionId, d.jti.str, d.refreshToken.text)
  | .refreshed _ d sid => some (sid, d.jti.str, d.refreshToken.text)
  | _ => none

def opening : SessionThread → Option UUID
  | .login _ _ d => some d.sessionId
  | _ => none

/-- The session of a refresh run that has passed GETDEL and neither rotated nor failed. -/
def holds : SessionThread → Option UUID
  | .claimed _ _ sid => some sid
  | .rotating _ _ sid _ _ => some sid
  | _ => none

/-- The refresh token that a thread has taken with GETDEL. -/
def claim : SessionThread → Option String
  | .claimed token _ _ => some token
  | .rotating token _ _ _ _ => some token
  | .refreshed token _ _ => some token
  | _ => none

def revoked : SessionThread → List UUID
  | .revokeEach gone _ => gone
  | .revokingEach gone _ _ _ => gone
  | .returned gone => gone
  | _ => []

def draws (t : SessionThread) : Option (String × String) :=
  t.pending.or (t.issued.map Prod.snd)

end SessionThread

/-- Time passes, and keys vanish exactly at their deadlines. -/
def passing (r r' : Redis) : Prop := ∃ d, r' = r.advance d

/-- Time passes, and keys may vanish at any moment. -/
def vanishing (r r' : Redis) : Prop := passing r r' ∨ ∃ k, r' = r.evict k

/-- Any number of handler runs, with something happening to the store between the commands. -/
def sessionProgram (g : GlobalContainer) (ι : Type) (env : Redis → Redis → Prop) :
    Program ι Redis SessionThread where
  step _ r t r' t' := t.step g r = some (r', t')
  env := env

/-- An empty store, threads at their first command, and draws that are pairwise distinct. -/
structure Launch {ι : Type} (c : Pool ι Redis SessionThread) : Prop where
  blank : ∃ now, c.shared = Redis.blank now
  start : ∀ i, (c.thread i).start = true
  draws : ∀ i j, i ≠ j → ∀ a b, (c.thread i).draws = some a → (c.thread j).draws = some b →
    a.1 ≠ b.1 ∧ a.2 ≠ b.2
  sessions : ∀ i j, i ≠ j → ∀ s, (c.thread i).opening = some s → (c.thread j).opening ≠ some s

theorem Launch.of_checks {ι : Type} {c : Pool ι Redis SessionThread} {now : ℕ}
    (blank : c.shared = Redis.blank now) (start : ∀ i, (c.thread i).start = true)
    (draws : ∀ i j, i ≠ j → (c.thread i).draws = none ∨
      (c.thread i).draws.map Prod.fst ≠ (c.thread j).draws.map Prod.fst ∧
        (c.thread i).draws.map Prod.snd ≠ (c.thread j).draws.map Prod.snd)
    (sessions : ∀ i j, i ≠ j → (c.thread i).opening = none ∨
      (c.thread i).opening ≠ (c.thread j).opening) : Launch c where
  blank := ⟨now, blank⟩
  start := start
  draws i j hij a b ha hb := by
    have h := draws i j hij
    rw [ha, hb] at h
    simpa using h
  sessions i j hij s hi hj := by
    rcases sessions i j hij with h | h
    · simp [hi] at h
    · exact h (hi.trans hj.symm)

def sessionPool (g : GlobalContainer) (ι : Type) [DecidableEq ι] (env : Redis → Redis → Prop) :
    System (Pool ι Redis SessionThread) (Turn ι) :=
  (sessionProgram g ι env).system Launch

/-! ## A thread on its own is the handler -/

abbrev Solo (g : GlobalContainer) : Redis → SessionThread → Redis → SessionThread → Prop :=
  Alone (fun r t => t.step g r)

section Solo
variable {g : GlobalContainer} {faults : Faults} {w : World}

theorem solo_createSession (hq : Quiet faults) (userId : UUID) (deviceInfo : Option String)
    (d : LoginDraws) :
    Solo g w.redis (.login userId deviceInfo d)
      (createSession g faults d.sessionId userId d.jti.str d.refreshToken.text deviceInfo
        g.accessTokenTtlSeconds g.refreshTokenTtlSeconds w).2.redis (.loggedIn d) := by
  rw [createSession, command_run hq]
  exact .next rfl (.refl _ _)

theorem solo_getdel_fails {r : Redis} {token : String} {d : RefreshDraws}
    (h : SessionThread.afterGetdel token d (r.refresh.value token) = .refreshFailed) :
    Solo g r (.refresh token d) (getdel token r).2 .refreshFailed :=
  .next (by rw [SessionThread.step, getdel, h]) (.refl _ _)

/-- A refresh on its own ends as the handler does. -/
theorem solo_refreshToken (hq : Quiet faults) (token : String) (ip : Option String)
    (d : RefreshDraws) :
    ∃ t, Solo g w.redis (.refresh token d) (refreshToken g faults ⟨token, ip⟩ d w).2.redis t ∧
      ((t = .refreshFailed ∧ ∃ e, (refreshToken g faults ⟨token, ip⟩ d w).1 = .error e) ∨
        ∃ s pair, t = .refreshed token d s ∧
          (refreshToken g faults ⟨token, ip⟩ d w).1 = .ok pair ∧ pair.sessionId = s) := by
  unfold refreshToken getSessionByRefreshToken
  rw [bind_run, bind_ok (command_run hq)]
  cases hraw : w.redis.refresh.value token with
  | none =>
    simp only [getdel, hraw, pure_run, raise_run]
    exact ⟨_, solo_getdel_fails (by rw [hraw]; rfl), .inl ⟨rfl, _, rfl⟩⟩
  | some raw =>
    cases hsplit : splitColon raw with
    | none =>
      simp only [getdel, hraw, hsplit, raise_run]
      exact ⟨_, solo_getdel_fails (by simp [hraw, hsplit, SessionThread.afterGetdel]),
        .inl ⟨rfl, _, rfl⟩⟩
    | some parts =>
      obtain ⟨a, b⟩ := parts
      simp only [getdel, hraw, hsplit, pure_run]
      cases hu : UUID.parse a with
      | none =>
        simp only [raise_run]
        exact ⟨_, solo_getdel_fails (by simp [hraw, hsplit, hu, SessionThread.afterGetdel]),
          .inl ⟨rfl, _, rfl⟩⟩
      | some u =>
        cases hs : UUID.parse b with
        | none =>
          simp only [raise_run]
          exact ⟨_, solo_getdel_fails (by simp [hraw, hsplit, hu, hs, SessionThread.afterGetdel]),
            .inl ⟨rfl, _, rfl⟩⟩
        | some s =>
          have hclaim : SessionThread.step g w.redis (.refresh token d) =
              some ((getdel token w.redis).2, .claimed token d s) := by
            simp [SessionThread.step, getdel, hraw, hsplit, hu, hs, SessionThread.afterGetdel]
          simp only
          rw [bind_ok (generateAccessToken_run _ _ _), rotateSession, bind_run,
            bind_ok (getSession_run hq _)]
          cases hh : w.redis.session.value s with
          | none =>
            simp only [commanded, raise_run]
            refine ⟨.refreshFailed, .next hclaim (.next ?_ (.refl _ _)), .inl ⟨rfl, _, rfl⟩⟩
            simp [SessionThread.step, getdel, hh, SessionThread.afterHgetall]
          | some h =>
            cases hv : h.userId with
            | none =>
              simp only [commanded, hv, raise_run]
              refine ⟨.refreshFailed, .next hclaim (.next ?_ (.refl _ _)), .inl ⟨rfl, _, rfl⟩⟩
              simp [SessionThread.step, getdel, hh, hv, SessionThread.afterHgetall]
            | some v =>
              simp only [commanded, hv]
              rw [command_run hq]
              simp only
              rw [bind_ok now_run, bind_ok (tryRecord_run _), pure_run]
              have hread : SessionThread.step g (getdel token w.redis).2 (.claimed token d s) =
                  some ((getdel token w.redis).2, .rotating token d s v h) := by
                simp [SessionThread.step, getdel, hh, hv, SessionThread.afterHgetall]
              refine ⟨.refreshed token d s, .next hclaim (.next hread (.next rfl ?_)),
                .inr ⟨s, _, rfl, rfl, rfl⟩⟩
              rw [audited_redis]
              exact .refl _ _

theorem solo_revokeSession (hq : Quiet faults) (sid : UUID) :
    ∃ gone, Solo g w.redis (.revoke sid) (RedisTokenStore.revokeSession faults sid w).2.redis
      (.returned gone) := by
  rw [revokeSession_run hq]
  cases hv : w.redis.session.value sid with
  | none =>
    have hread : SessionThread.step g w.redis (.revoke sid) = some (w.redis, .returned []) := by
      simp [SessionThread.step, SessionThread.afterRevokeRead, hv]
    refine ⟨[], .next hread ?_⟩
    simp only [commanded, revokeOne, hv]
    exact .refl _ _
  | some h =>
    have hread : SessionThread.step g w.redis (.revoke sid) = some (w.redis, .revoking sid h) := by
      simp [SessionThread.step, SessionThread.afterRevokeRead, hv]
    refine ⟨[sid], .next hread (.next rfl ?_)⟩
    simp only [commanded, revokeOne, hv]
    exact .refl _ _

theorem solo_loop (gone ids : List UUID) (r : Redis) :
    ∃ gone', Solo g r (SessionThread.loop gone ids) (revokeList ids r) (.returned gone') := by
  induction ids generalizing gone r with
  | nil => exact ⟨gone, .refl _ _⟩
  | cons sid rest ih =>
    cases hv : r.session.value sid with
    | none =>
      have hread : SessionThread.step g r (SessionThread.loop gone (sid :: rest)) =
          some (r, SessionThread.loop gone rest) := by
        simp [SessionThread.step, SessionThread.loop, SessionThread.afterEachRead, hv]
      obtain ⟨gone', h⟩ := ih gone r
      refine ⟨gone', .next hread ?_⟩
      simpa only [revokeList, revokeOne, hv] using h
    | some data =>
      have hread : SessionThread.step g r (SessionThread.loop gone (sid :: rest)) =
          some (r, .revokingEach gone sid data rest) := by
        simp [SessionThread.step, SessionThread.loop, SessionThread.afterEachRead, hv]
      obtain ⟨gone', h⟩ := ih (sid :: gone) (revokePipeline sid data r)
      refine ⟨gone', .next hread (.next rfl ?_)⟩
      simpa only [revokeList, revokeOne, hv] using h

theorem solo_revokeAllUserSessions (hq : Quiet faults) (userId : UUID) :
    ∃ gone, Solo g w.redis (.revokeAll userId) (revokeAllUserSessions faults userId w).2.redis
      (.returned gone) := by
  rw [revokeAllUserSessions_run hq]
  obtain ⟨gone, h⟩ := solo_loop (g := g) [] ((w.redis.sessions.value userId).getD [])
    { w.redis with sessions := w.redis.sessions.remove userId }
  exact ⟨gone, .next rfl (.next rfl h)⟩

end Solo

end AuthService.SessionThreads
