import AuthService.SampleContainer
import AuthService.StoreViews

set_option autoImplicit false

/-! The token store, the rate limiter and the idempotency store on one Redis server: each of
them runs as if it had the server for itself. -/
namespace AuthService.SharedRedis
open ExpiringMaps RedisSessions RateLimiter RequestPorts LabelledRuns ThreadPools SessionThreads
open IdempotencyRecords RecordThreads RedisCommands RedisClients StoreClients StoreViews

structure SharedState (ι κ μ : Type) where
  server : Server
  session : ι → Running SessionThread
  check : κ → Running Check
  record : μ → Running RecordThread

inductive SharedTurn (ι κ μ : Type) where
  | session (i : ι)
  | check (k : κ)
  | record (m : μ)
  | wait

section Shared
variable {ι κ μ : Type} [DecidableEq ι] [DecidableEq κ] [DecidableEq μ]

inductive SharedStep (g : GlobalContainer) (sha256 : String → String) :
    SharedState ι κ μ → SharedTurn ι κ μ → SharedState ι κ μ → Prop where
  | session {c : SharedState ι κ μ} {s : Server} {r : Running SessionThread} (i : ι)
      (h : (sessionClient g).step c.server (c.session i) = some (s, r)) :
      SharedStep g sha256 c (.session i) ⟨s, Function.update c.session i r, c.check, c.record⟩
  | check {c : SharedState ι κ μ} {s : Server} {r : Running Check} (k : κ)
      (h : checkClient.step c.server (c.check k) = some (s, r)) :
      SharedStep g sha256 c (.check k) ⟨s, c.session, Function.update c.check k r, c.record⟩
  | record {c : SharedState ι κ μ} {s : Server} {r : Running RecordThread} (m : μ)
      (h : (recordClient sha256).step c.server (c.record m) = some (s, r)) :
      SharedStep g sha256 c (.record m) ⟨s, c.session, c.check, Function.update c.record m r⟩
  | wait {c : SharedState ι κ μ} (d : ℕ) :
      SharedStep g sha256 c .wait ⟨c.server.advance d, c.session, c.check, c.record⟩

/-- An empty server, and three launches next to each other. -/
structure Opens (c : SharedState ι κ μ) (ps : Pool ι Redis SessionThread) (pc : Pool κ Counters Check)
    (pr : Pool μ RecordStore RecordThread) : Prop where
  server : ∃ now, c.server = Server.blank now ∧ ps.shared = Redis.blank now ∧
    pc.shared = Counters.blank now ∧ pr.shared = ⟨now, ExpiringMap.empty⟩
  session : ∀ i, c.session i = .live (ps.thread i)
  check : ∀ k, c.check k = .live (pc.thread k)
  record : ∀ m, c.record m = .live (pr.thread m)
  sessionLaunch : SessionThreads.Launch ps
  checkLaunch : RateLimiter.Launch pc
  recordLaunch : RecordThreads.Launch pr

def sharedRedis (g : GlobalContainer) (sha256 : String → String) (ι κ μ : Type) [DecidableEq ι]
    [DecidableEq κ] [DecidableEq μ] : System (SharedState ι κ μ) (SharedTurn ι κ μ) where
  init c := ∃ ps pc pr, Opens c ps pc pr
  step := SharedStep g sha256

def SharedState.sessions (c : SharedState ι κ μ) : Pool ι Server (Running SessionThread) :=
  ⟨c.server, c.session⟩

def SharedState.checks (c : SharedState ι κ μ) : Pool κ Server (Running Check) := ⟨c.server, c.check⟩

def SharedState.records (c : SharedState ι κ μ) : Pool μ Server (Running RecordThread) :=
  ⟨c.server, c.record⟩

def SharedTurn.ofSession : SharedTurn ι κ μ → Option (Turn ι)
  | .session i => some (.run i)
  | .wait => some .env
  | _ => none

def SharedTurn.ofCheck : SharedTurn ι κ μ → Option (Turn κ)
  | .check k => some (.run k)
  | .wait => some .env
  | _ => none

def SharedTurn.ofRecord : SharedTurn ι κ μ → Option (Turn μ)
  | .record m => some (.run m)
  | .wait => some .env
  | _ => none

theorem session_not_check {k : String} (h : sessionKey k) : ¬ checkKey k := by
  obtain ⟨key, rfl⟩ := h
  rintro ⟨rest, h⟩
  have ht := congrArg String.toList h
  cases key <;> simp [Key.text, String.toList_append] at ht

theorem session_not_record {k : String} (h : sessionKey k) : ¬ recordKey k := by
  obtain ⟨key, rfl⟩ := h
  rintro ⟨rest, h⟩
  have ht := congrArg String.toList h
  cases key <;> simp [Key.text, String.toList_append] at ht

theorem check_not_record {k : String} (h : checkKey k) : ¬ recordKey k := by
  obtain ⟨rest, rfl⟩ := h
  rintro ⟨rest', h⟩
  have ht := congrArg String.toList h
  simp [String.toList_append] at ht

section Hosts
variable {g : GlobalContainer} {sha256 : String → String}

theorem hosts_sessions (ha : 0 < g.accessTokenTtlSeconds) (hr : 0 < g.refreshTokenTtlSeconds) :
    Hosts (sessionComponent g ha hr) (sharedRedis g sha256 ι κ μ)
    SharedState.sessions SharedTurn.ofSession where
  own hs hl := by
    cases hs <;> cases hl
    rename_i h
    exact ⟨_, h, rfl⟩
  env hs hl := by
    cases hs <;> cases hl
    exact ⟨⟨_, rfl⟩, rfl⟩
  others hs hl := by
    cases hs with
    | session i h => cases hl
    | wait d => cases hl
    | check k h =>
      obtain ⟨hnow, hkeys⟩ := step_frame (C := checkClient) check_sends h
      exact ⟨⟨hnow, fun k hk => hkeys k (session_not_check hk)⟩, rfl⟩
    | record m h =>
      obtain ⟨hnow, hkeys⟩ := step_frame (C := recordClient sha256) record_sends h
      exact ⟨⟨hnow, fun k hk => hkeys k (session_not_record hk)⟩, rfl⟩

theorem hosts_checks : Hosts checkComponent (sharedRedis g sha256 ι κ μ)
    SharedState.checks SharedTurn.ofCheck where
  own hs hl := by
    cases hs <;> cases hl
    rename_i h
    exact ⟨_, h, rfl⟩
  env hs hl := by
    cases hs <;> cases hl
    exact ⟨⟨_, rfl⟩, rfl⟩
  others hs hl := by
    cases hs with
    | check k h => cases hl
    | wait d => cases hl
    | session i h =>
      obtain ⟨hnow, hkeys⟩ := step_frame (C := sessionClient g) session_sends h
      exact ⟨⟨hnow, fun k hk => hkeys k fun hk' => session_not_check hk' hk⟩, rfl⟩
    | record m h =>
      obtain ⟨hnow, hkeys⟩ := step_frame (C := recordClient sha256) record_sends h
      exact ⟨⟨hnow, fun k hk => hkeys k (check_not_record hk)⟩, rfl⟩

theorem hosts_records : Hosts (recordComponent sha256) (sharedRedis g sha256 ι κ μ)
    SharedState.records SharedTurn.ofRecord where
  own hs hl := by
    cases hs <;> cases hl
    rename_i h
    exact ⟨_, h, rfl⟩
  env hs hl := by
    cases hs <;> cases hl
    exact ⟨⟨_, rfl⟩, rfl⟩
  others hs hl := by
    cases hs with
    | record m h => cases hl
    | wait d => cases hl
    | session i h =>
      obtain ⟨hnow, hkeys⟩ := step_frame (C := sessionClient g) session_sends h
      exact ⟨⟨hnow, fun k hk => hkeys k fun hk' => session_not_record hk' hk⟩, rfl⟩
    | check k h =>
      obtain ⟨hnow, hkeys⟩ := step_frame (C := checkClient) check_sends h
      exact ⟨⟨hnow, fun k hk => hkeys k fun hk' => check_not_record hk' hk⟩, rfl⟩

end Hosts

/-- Whatever the three components do next to each other on one server, each of them has made a
run of its own model, its state stands under its keys, and no client was ever stopped by a
wrong type or any other error. -/
theorem shared_redis_separates {g : GlobalContainer} {sha256 : String → String}
    (ha : 0 < g.accessTokenTtlSeconds) (hr : 0 < g.refreshTokenTtlSeconds) {c d : SharedState ι κ μ}
    {p : List (SharedState ι κ μ × SharedTurn ι κ μ)} {ps : Pool ι Redis SessionThread}
    {pc : Pool κ Counters Check} {pr : Pool μ RecordStore RecordThread} (hopen : Opens c ps pc pr)
    (h : Runs (sharedRedis g sha256 ι κ μ) c p d) (hp : p.length ≤ maxInteger) :
    (∃ q v, Runs (sessionPool g ι passing) ps q v ∧
        q.map Prod.snd = p.filterMap (fun x => SharedTurn.ofSession x.2) ∧
        Holds d.server v.shared ∧ ∀ i, d.session i = .live (v.thread i)) ∧
      (∃ q v, Runs (checkPool κ) pc q v ∧
        q.map Prod.snd = p.filterMap (fun x => SharedTurn.ofCheck x.2) ∧
        Counts p.length d.server v.shared ∧ ∀ k, d.check k = .live (v.thread k)) ∧
      ∃ q v, Runs (recordPool sha256 μ) pr q v ∧
        q.map Prod.snd = p.filterMap (fun x => SharedTurn.ofRecord x.2) ∧
        Records d.server v.shared ∧ ∀ m, d.record m = .live (v.thread m) := by
  obtain ⟨now, hserver, hps, hpc, hpr⟩ := hopen.server
  refine ⟨?_, ?_, ?_⟩
  · have hrel : (sessionComponent g ha hr).Related 0 c.sessions ps := by
      refine ⟨?_, fun i => ⟨hopen.session i, trivial⟩⟩
      change Holds c.server ps.shared
      rw [hserver, hps]
      exact ⟨rfl, fun k => by cases k <;> exact .absent⟩
    obtain ⟨q, v, hq, hlabels, hstate, hthreads⟩ :=
      (hosts_sessions ha hr).runs SessionThreads.Launch h hp hrel
    exact ⟨q, v, hq, hlabels, hstate, fun i => (hthreads i).1⟩
  · have hrel : checkComponent.Related 0 c.checks pc := by
      refine ⟨?_, fun k => ⟨hopen.check k, ?_⟩⟩
      · change Counts 0 c.server pc.shared
        rw [hserver, hpc]
        exact ⟨rfl, fun _ _ => .absent⟩
      · obtain ⟨call, hcall, hpos⟩ := hopen.checkLaunch.start k
        change 0 < (pc.thread k).call.windowSeconds
        rw [hcall]
        exact hpos
    obtain ⟨q, v, hq, hlabels, hstate, hthreads⟩ :=
      hosts_checks.runs RateLimiter.Launch h hp hrel
    exact ⟨q, v, hq, hlabels, hstate, fun k => (hthreads k).1⟩
  · have hrel : (recordComponent sha256).Related 0 c.records pr := by
      refine ⟨?_, fun m => ⟨hopen.record m, trivial⟩⟩
      change Records c.server pr.shared
      rw [hserver, hpr]
      exact ⟨rfl, fun _ _ => .absent⟩
    obtain ⟨q, v, hq, hlabels, hstate, hthreads⟩ :=
      hosts_records.runs RecordThreads.Launch h hp hrel
    exact ⟨q, v, hq, hlabels, hstate, fun m => (hthreads m).1⟩

end Shared

section Sample
open SampleContainer IdempotencyExtension

def loginPool : Pool Unit Redis SessionThread :=
  ⟨Redis.blank startTime, fun _ => .login alice none loginDraws⟩

def countPool : Pool Unit Counters Check :=
  ⟨Counters.blank startTime, fun _ => .start (checkIp "203.0.113.7" "login" 5 60)⟩

def recordedPool : Pool Unit RecordStore RecordThread :=
  ⟨⟨startTime, ExpiringMap.empty⟩, fun _ => .arriving aliceByVariable loggedIn⟩

def sharedStart : SharedState Unit Unit Unit :=
  ⟨Server.blank startTime, fun _ => .live (.login alice none loginDraws),
    fun _ => .live (.start (checkIp "203.0.113.7" "login" 5 60)),
    fun _ => .live (.arriving aliceByVariable loggedIn)⟩

theorem sharedStart_opens : Opens sharedStart loginPool countPool recordedPool where
  server := ⟨startTime, rfl, rfl, rfl, rfl⟩
  session _ := rfl
  check _ := rfl
  record _ := rfl
  sessionLaunch := ⟨⟨startTime, rfl⟩, fun _ => rfl, fun _ _ h => absurd rfl h,
    fun _ _ h => absurd rfl h⟩
  checkLaunch := ⟨⟨startTime, rfl⟩, fun _ => ⟨_, rfl, by decide⟩⟩
  recordLaunch := ⟨fun _ => rfl, fun _ => ⟨_, _, rfl⟩⟩

theorem shared_redis_separates_login :
    ∃ p d q v, Runs (sharedRedis sample digest Unit Unit Unit) sharedStart p d ∧
      Runs (sessionPool sample Unit passing) loginPool q v ∧ Holds d.server v.shared ∧
      p.length = 4 ∧ q.length = 1 := by
  have hrun : ∃ p d, Runs (sharedRedis sample digest Unit Unit Unit) sharedStart p d ∧
      p.map Prod.snd = [.session (), .record (), .check (), .check ()] :=
    ⟨_, _, .next (.next (.next (.next (.refl _) (SharedStep.check () rfl)) (SharedStep.check () rfl))
      (SharedStep.record () rfl)) (SharedStep.session () rfl), rfl⟩
  obtain ⟨p, d, hp, hlabels⟩ := hrun
  have hlength : p.length = 4 := by
    rw [← List.length_map (f := Prod.snd), hlabels]
    rfl
  obtain ⟨⟨q, v, hq, hturns, hholds, -⟩, -⟩ := shared_redis_separates (by decide) (by decide)
    sharedStart_opens hp (by rw [hlength]; decide)
  refine ⟨p, d, q, v, hp, hq, hholds, hlength, ?_⟩
  have hseen : p.filterMap (fun x => SharedTurn.ofSession x.2) =
      (p.map Prod.snd).filterMap SharedTurn.ofSession := by
    rw [List.filterMap_map]
    rfl
  have hcount : q.map Prod.snd = [.run ()] := by
    rw [hturns, hseen, hlabels]
    rfl
  rw [← List.length_map (f := Prod.snd), hcount]
  rfl

end Sample

end AuthService.SharedRedis
