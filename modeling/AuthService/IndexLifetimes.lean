import AuthService.SessionStoreRuns

set_option autoImplicit false

/-! Runs of the token store in which every call brings its own lifetimes, and the index
of a user's sessions that has to outlive them. -/
namespace AuthService.IndexLifetimes
open Uuids FallibleState Fallible ExpiringMaps LabelledRuns RedisSessions RequestPorts
open RedisTokenStore HandlerRuns SessionStoreRuns

inductive Call where
  | createSession (w : World) (sessionId userId : UUID) (accessJti refreshToken : String)
      (deviceInfo : Option String) (accessTtl refreshTtl : ℕ)
  | rotateSession (w : World) (sessionId : UUID) (oldRefreshToken newAccessJti newRefreshToken : String)
      (accessTtl refreshTtl : ℕ)
  | revokeSession (w : World) (sessionId : UUID)
  | wait (d : ℕ)

def Call.redisAfter (g : GlobalContainer) (c : Call) (r : Redis) : Redis :=
  match c with
  | .createSession w sid uid jti token device accessTtl refreshTtl =>
    (RedisTokenStore.createSession g noFaults sid uid jti token device accessTtl refreshTtl
      (withStore r w)).2.redis
  | .rotateSession w sid oldToken jti token accessTtl refreshTtl =>
    (RedisTokenStore.rotateSession g noFaults sid oldToken jti token accessTtl refreshTtl
      (withStore r w)).2.redis
  | .revokeSession w sid => (RedisTokenStore.revokeSession noFaults sid (withStore r w)).2.redis
  | .wait d => r.advance d

/-- `0 < access_ttl <= refresh_ttl`. -/
def Call.Sensible : Call → Prop
  | .createSession _ _ _ _ _ _ accessTtl refreshTtl => 0 < accessTtl ∧ accessTtl ≤ refreshTtl
  | .rotateSession _ _ _ _ _ accessTtl refreshTtl => 0 < accessTtl ∧ accessTtl ≤ refreshTtl
  | _ => True

def storeCalls (g : GlobalContainer) : System Redis Call where
  init r := ∃ now, r = Redis.blank now
  step r c r' := c.Sensible ∧ r' = c.redisAfter g r

/-- The index of every user lists the live sessions of the user and outlives them. -/
def Outlives (r : Redis) : Prop :=
  ∀ s e u, r.session s = some e → e.value.userId = some u →
    ∃ ids d d', e.deadline = some d ∧ r.sessions u = some ⟨ids, some d'⟩ ∧ s ∈ ids ∧ d ≤ d'

def RevokesAll (r : Redis) : Prop :=
  ∀ u (w : World) s, ((RedisTokenStore.revokeAllUserSessions noFaults u
    (withStore r w)).2.redis.session.value s).bind SessionHash.userId ≠ some u

/-- No session of the user other than `sid` outlives `refreshTtl`. -/
def NoneLonger (r : Redis) (sid uid : UUID) (refreshTtl : ℕ) : Prop :=
  ∀ s e d, s ≠ sid → r.session s = some e → e.value.userId = some uid → e.deadline = some d →
    d ≤ r.now + seconds refreshTtl

/-- The call passes a lifetime that ends no earlier than the user's other live sessions. -/
def Call.Covers (r : Redis) : Call → Prop
  | .createSession _ sid uid _ _ _ _ refreshTtl => NoneLonger r sid uid refreshTtl
  | .rotateSession _ sid _ _ _ _ refreshTtl =>
    ∀ uid, (r.session.value sid).bind SessionHash.userId = some uid → NoneLonger r sid uid refreshTtl
  | _ => True

theorem Outlives.revokesAll {r : Redis} (h : Outlives r) : RevokesAll r := by
  intro u w s hs
  rw [revokeAllUserSessions_run quiet_noFaults] at hs
  obtain ⟨data, hdata, hu⟩ := Option.bind_eq_some_iff.1 hs
  obtain ⟨e, he, rfl⟩ := Option.map_eq_some_iff.1 hdata
  replace he : (revokeAll u r).session s = some e := he
  rw [revokeAll, revokeList_session] at he
  split_ifs at he with hmem
  obtain ⟨ids, _, _, -, hids, hlisted, -⟩ := h s e u he hu
  exact hmem (by rw [ExpiringMap.value_of_entry hids]; exact hlisted)

section Calls
variable {g : GlobalContainer} {r : Redis}

theorem createSession_redis (w : World) (sid uid : UUID) (jti token : String) (device : Option String)
    (accessTtl refreshTtl : ℕ) :
    (Call.createSession w sid uid jti token device accessTtl refreshTtl).redisAfter g r =
      createPipeline (g.isoformat r.now) sid uid jti token device accessTtl refreshTtl r := by
  rw [Call.redisAfter, RedisTokenStore.createSession, command_run quiet_noFaults]
  rfl

theorem rotateSession_redis (w : World) (sid : UUID) (oldToken jti token : String)
    (accessTtl refreshTtl : ℕ) :
    (Call.rotateSession w sid oldToken jti token accessTtl refreshTtl).redisAfter g r =
      match r.session.value sid with
      | none => r
      | some data =>
        match data.userId with
        | none => r
        | some uid => rotatePipeline (g.isoformat r.now) sid uid (data.currentJti.getD "") oldToken jti
            token accessTtl refreshTtl r := by
  rw [Call.redisAfter, RedisTokenStore.rotateSession, bind_ok (getSession_run quiet_noFaults _)]
  cases hv : (withStore r w).redis.session.value sid with
  | none =>
    rw [show r.session.value sid = none from hv]
    rfl
  | some data =>
    rw [show r.session.value sid = some data from hv]
    cases hu : data.userId with
    | none => simp only [hu]; rfl
    | some uid =>
      simp only [hu]
      rw [command_run quiet_noFaults]
      rfl

theorem revokeSession_redis (w : World) (sid : UUID) :
    (Call.revokeSession w sid).redisAfter g r = revokeOne sid r := by
  rw [Call.redisAfter, revokeSession_run quiet_noFaults]
  rfl

theorem outlives_create (h : Outlives r) (nowIso : String) (sid uid : UUID) (jti token : String)
    (device : Option String) (accessTtl refreshTtl : ℕ) :
    Outlives (createPipeline nowIso sid uid jti token device accessTtl refreshTtl r) ↔
      NoneLonger r sid uid refreshTtl := by
  constructor
  · intro h' s e d hs he hu hd
    obtain ⟨ids, d₁, d', hd₁, hids, -, hle⟩ := h' s e uid (by rw [create_session, if_neg hs, he]) hu
    rw [create_sessions, if_pos rfl, Option.some.injEq, Entry.mk.injEq, Option.some.injEq] at hids
    rw [hd, Option.some.injEq] at hd₁
    rw [hd₁, hids.2]
    exact hle
  · intro hc s e u he hu
    rw [create_session] at he
    split_ifs at he with hs
    · rw [Option.some.injEq] at he
      subst he hs
      obtain rfl : uid = u := Option.some.inj hu
      exact ⟨_, _, _, rfl, by rw [create_sessions, if_pos rfl], mem_sadd.2 (.inl rfl), le_rfl⟩
    · obtain ⟨ids, d, d', hd, hids, hmem, hle⟩ := h s e u he hu
      by_cases huid : u = uid
      · subst huid
        refine ⟨_, d, _, hd, by rw [create_sessions, if_pos rfl], mem_sadd.2 (.inr ?_),
          hc s e d hs he hu hd⟩
        rw [ExpiringMap.value_of_entry hids]
        exact hmem
      · exact ⟨ids, d, d', hd, by rw [create_sessions, if_neg huid, hids], hmem, hle⟩

theorem outlives_rotate (h : Outlives r) {sid uid : UUID} {data : SessionHash}
    (hdata : r.session.value sid = some data) (howner : data.userId = some uid)
    (nowIso oldJti oldToken jti token : String) (accessTtl refreshTtl : ℕ) :
    Outlives (rotatePipeline nowIso sid uid oldJti oldToken jti token accessTtl refreshTtl r) ↔
      NoneLonger r sid uid refreshTtl := by
  constructor
  · intro h' s e d hs he hu hd
    obtain ⟨ids, d₁, d', hd₁, hids, -, hle⟩ := h' s e uid (by rw [rotate_session, if_neg hs, he]) hu
    rw [rotate_sessions, if_pos rfl] at hids
    obtain ⟨e', -, heq⟩ := Option.map_eq_some_iff.1 hids
    rw [Entry.mk.injEq, Option.some.injEq] at heq
    rw [hd, Option.some.injEq] at hd₁
    rw [hd₁, heq.2]
    exact hle
  · intro hc s e u he hu
    rw [rotate_session] at he
    split_ifs at he with hs
    · rw [hdata, Option.getD_some, Option.some.injEq] at he
      subst he hs
      obtain rfl : uid = u := Option.some.inj (howner.symm.trans hu)
      obtain ⟨e₀, he₀, rfl⟩ := Option.map_eq_some_iff.1 hdata
      obtain ⟨ids, d, d', hd, hids, hmem, hle⟩ := h s e₀ uid he₀ howner
      exact ⟨ids, _, _, rfl, by rw [rotate_sessions, if_pos rfl, hids, Option.map_some], hmem, le_rfl⟩
    · obtain ⟨ids, d, d', hd, hids, hmem, hle⟩ := h s e u he hu
      by_cases huid : u = uid
      · subst huid
        exact ⟨ids, d, _, hd, by rw [rotate_sessions, if_pos rfl, hids, Option.map_some], hmem,
          hc s e d hs he hu hd⟩
      · exact ⟨ids, d, d', hd, by rw [rotate_sessions, if_neg huid, hids], hmem, hle⟩

theorem outlives_revoke (h : Outlives r) (sid : UUID) : Outlives (revokeOne sid r) := by
  intro s e u he hu
  rw [revokeOne_session] at he
  split_ifs at he with hs
  obtain ⟨ids, d, d', hd, hids, hmem, hle⟩ := h s e u he hu
  unfold revokeOne
  cases hv : r.session.value sid with
  | none => exact ⟨ids, d, d', hd, hids, hmem, hle⟩
  | some data =>
    cases howner : data.userId with
    | none => exact ⟨ids, d, d', hd, by simp only [revokePipeline, howner, hids], hmem, hle⟩
    | some uid =>
      obtain ⟨⟨ids', d₁⟩, he', hd₁, hmem'⟩ := @srem_keeps uid sid u s _ _ hids hmem hs
      simp only at hd₁ hmem'
      subst hd₁
      exact ⟨ids', d, d', hd, by simp only [revokePipeline, howner, he'], hmem', hle⟩

theorem outlives_advance (h : Outlives r) (d : ℕ) : Outlives (r.advance d) := by
  intro s e u he hu
  obtain ⟨he, halive⟩ := advance_session.1 he
  obtain ⟨ids, d₁, d', hd, hids, hmem, hle⟩ := h s e u he hu
  have hnow : r.now + d < d₁ := by
    rw [Entry.aliveAt, hd, decide_eq_true_eq] at halive
    exact halive
  exact ⟨ids, d₁, d', hd, advance_sessions.2 ⟨hids, Entry.aliveAt_some.2 (hnow.trans_le hle)⟩,
    hmem, hle⟩

theorem outlives_call (h : Outlives r) (c : Call) : Outlives (c.redisAfter g r) ↔ c.Covers r := by
  cases c with
  | createSession w sid uid jti token device accessTtl refreshTtl =>
    rw [createSession_redis]
    exact outlives_create h _ _ _ _ _ _ _ _
  | rotateSession w sid oldToken jti token accessTtl refreshTtl =>
    rw [rotateSession_redis, Call.Covers]
    cases hv : r.session.value sid with
    | none => simp [h]
    | some data =>
      cases hu : data.userId with
      | none => simp [h, hu]
      | some uid =>
        simp only [hu, Option.bind_some, Option.some.injEq, forall_eq']
        exact outlives_rotate h hv hu _ _ _ _ _ _ _
  | revokeSession w sid =>
    rw [revokeSession_redis]
    exact ⟨fun _ => trivial, fun _ => outlives_revoke h sid⟩
  | wait d => exact ⟨fun _ => trivial, fun _ => outlives_advance h d⟩

end Calls

/-- In every state of a run the indexes outlive the sessions, and revoking all sessions of
a user reaches each of them, exactly when every call passes a lifetime that covers the
user's other live sessions. -/
theorem index_dominates_iff {g : GlobalContainer} {now : ℕ} {p : List (Redis × Call)} {r : Redis}
    (h : Runs (storeCalls g) (Redis.blank now) p r) :
    (∀ v ∈ Visited p r, Outlives v ∧ RevokesAll v) ↔ Meets (fun v c => c.Covers v) p := by
  have hblank : Outlives (Redis.blank now) := by
    intro s e u he
    simp [Redis.blank, ExpiringMap.empty] at he
  constructor
  · intro hall
    induction h with
    | refl => exact meets_nil _
    | @next t u p c front hs ih =>
      have hfront : ∀ v ∈ Visited p t, Outlives v ∧ RevokesAll v := fun v hv =>
        hall v (List.mem_cons_of_mem _ hv)
      refine meets_cons.2 ⟨?_, ih hfront⟩
      rw [← outlives_call (g := g) (hfront t List.mem_cons_self).1, ← hs.2]
      exact (hall u List.mem_cons_self).1
  · intro hC
    have hv := h.visited_of_meets Outlives (fun v c => c.Covers v) ?_ hC hblank
    · exact fun v hmem => ⟨hv v hmem, (hv v hmem).revokesAll⟩
    · intro v c v' ho hc hs
      rw [hs.2]
      exact (outlives_call ho c).2 hc

section Sample
open SampleContainer

def firstLogin : Call :=
  .createSession initialWorld sessionOne alice jtiOne.str rawA.text none 900 2592000

/-- A login after the lifetime of refresh tokens was cut from thirty days to one. -/
def shortLogin : Call :=
  .createSession initialWorld nextRow alice jtiTwo.str rawB.text none 900 86400

def oneDay : Call := .wait 86400000

def afterFirst : Redis := firstLogin.redisAfter sample (Redis.blank startTime)

def afterShort : Redis := shortLogin.redisAfter sample afterFirst

def nextDay : Redis := oneDay.redisAfter sample afterShort

theorem firstLogin_runs : Runs (storeCalls sample) (Redis.blank startTime)
    [(Redis.blank startTime, firstLogin)] afterFirst :=
  .single ⟨⟨by decide, by decide⟩, rfl⟩

theorem firstLogin_covers : firstLogin.Covers (Redis.blank startTime) := by
  intro s e d _ he
  cases he

theorem index_dominates_firstLogin : Outlives afterFirst ∧ RevokesAll afterFirst :=
  (index_dominates_iff firstLogin_runs).2 (meets_cons.2 ⟨firstLogin_covers, meets_nil _⟩) afterFirst
    List.mem_cons_self

/-- A day after the second login the first session is live and no longer listed. -/
theorem shortened_index_strands_session :
    Runs (storeCalls sample) (Redis.blank startTime)
      [(afterShort, oneDay), (afterFirst, shortLogin), (Redis.blank startTime, firstLogin)] nextDay ∧
    ¬ Outlives afterShort ∧ ¬ RevokesAll nextDay := by
  refine ⟨.next (.next firstLogin_runs ⟨⟨by decide, by decide⟩, rfl⟩) ⟨trivial, rfl⟩, ?_, ?_⟩
  · intro h
    have he : ∃ e, afterShort.session sessionOne = some e ∧ e.value.userId = some alice ∧
        e.deadline = some (startTime + 2592000000) := ⟨_, rfl, rfl, rfl⟩
    obtain ⟨e, he, hu, hd⟩ := he
    obtain ⟨ids, d, d', hd', hids, -, hle⟩ := h sessionOne e alice he hu
    have hdeadline : (afterShort.sessions alice).bind Entry.deadline = some (startTime + 86400000) := by
      decide +kernel
    rw [hids] at hdeadline
    rw [hd, Option.some.injEq] at hd'
    rw [Option.bind_some, Option.some.injEq] at hdeadline
    rw [← hd', hdeadline] at hle
    omega
  · intro h
    exact h alice initialWorld sessionOne (by decide +kernel)

end Sample

end AuthService.IndexLifetimes
