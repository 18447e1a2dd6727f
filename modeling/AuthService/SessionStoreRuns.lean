import AuthService.HandlerRuns
import AuthService.LabelledRuns
import AuthService.SampleContainer
import AuthService.SessionCoupling

set_option autoImplicit false

/-! Runs of uninterrupted store operations: logins, refreshes, revocations and passing
time, each on the store that the one before left. -/
namespace AuthService.SessionStoreRuns
open Uuids PythonText DomainModel AccountTables Transactions FallibleState Fallible ExpiringMaps
open LabelledRuns RedisSessions RequestPorts RedisTokenStore CommandHandlers HandlerRuns
open CredentialLedgers SessionCoupling

structure StoreState where
  redis : Redis
  drawn : Drawn

/-- An operation runs in a world of its own, on the current store. -/
inductive Operation where
  | login (w : World) (command : AuthenticateUserCommand) (d : LoginDraws)
  | refresh (w : World) (command : RefreshTokenCommand) (d : RefreshDraws)
  | revokeSession (w : World) (sessionId : UUID)
  | revokeAllUserSessions (w : World) (userId : UUID)
  | wait (d : ℕ)

def withStore (r : Redis) (w : World) : World := { w with redis := r }

def Operation.redisAfter (g : GlobalContainer) (o : Operation) (r : Redis) : Redis :=
  match o with
  | .login w command d => (authenticateUser g noFaults command d (withStore r w)).2.redis
  | .refresh w command d => (refreshToken g noFaults command d (withStore r w)).2.redis
  | .revokeSession w sid => (RedisTokenStore.revokeSession noFaults sid (withStore r w)).2.redis
  | .revokeAllUserSessions w uid =>
    (RedisTokenStore.revokeAllUserSessions noFaults uid (withStore r w)).2.redis
  | .wait d => r.advance d

def Operation.record (o : Operation) (r' : Redis) (drawn : Drawn) : Drawn :=
  match o with
  | .login _ _ d => drawn.opened d.sessionId d.jti.str d.refreshToken.text r'
  | .refresh _ _ d => drawn.renewed d.jti.str d.refreshToken.text
  | _ => drawn

def Operation.Fresh (o : Operation) (drawn : Drawn) : Prop :=
  match o with
  | .login w _ d => w.db.aborted = false ∧ d.sessionId ∉ drawn.sessions.map Prod.fst ∧
      d.jti.str ∉ drawn.jtis ∧ d.refreshToken.text ∉ drawn.refreshTokens
  | .refresh _ _ d => d.jti.str ∉ drawn.jtis ∧ d.refreshToken.text ∉ drawn.refreshTokens
  | _ => True

def storeRuns (g : GlobalContainer) : System StoreState Operation where
  init s := (∃ now, s.redis = Redis.blank now) ∧ s.drawn = Drawn.none
  step s o s' := o.Fresh s.drawn ∧ s'.redis = o.redisAfter g s.redis ∧
    s'.drawn = o.record s'.redis s.drawn

def StoreInvariant (g : GlobalContainer) (s : StoreState) : Prop :=
  ∃ l, Consistent (seconds g.refreshTokenTtlSeconds) s.drawn s.redis l

theorem StoreInvariant.intro {g : GlobalContainer} {r : Redis} {drawn : Drawn} {l : SessionLedger}
    (h : Consistent (seconds g.refreshTokenTtlSeconds) drawn r l) : StoreInvariant g ⟨r, drawn⟩ :=
  ⟨l, h⟩

/-- On a consistent store a refresh either finds nothing and changes nothing, or runs the
rotation pipeline on the one session that its token renews. -/
theorem refresh_rotates {g : GlobalContainer} {faults : Faults} (hq : Quiet faults) {drawn : Drawn}
    {w : World} {l : SessionLedger}
    (h : Consistent (seconds g.refreshTokenTtlSeconds) drawn w.redis l)
    (command : RefreshTokenCommand) (d : RefreshDraws) :
    (w.redis.refresh command.refreshToken = none ∧
        (∃ e, (refreshToken g faults command d w).1 = .error e) ∧
        (refreshToken g faults command d w).2.redis = w.redis ∧
        ((refreshToken g faults command d w).2.signed = w.signed ∨
          ∃ u s, (refreshToken g faults command d w).2.signed =
            g.accessClaims w.redis.now u s d.jti :: w.signed)) ∨
      ∃ s t, l s = some t ∧ t.renewal = command.refreshToken ∧
        (refreshToken g faults command d w).1 =
          .ok ⟨g.encode (g.accessClaims w.redis.now t.owner s d.jti), d.refreshToken.text, s,
            "Bearer"⟩ ∧
        (refreshToken g faults command d w).2.signed =
          g.accessClaims w.redis.now t.owner s d.jti :: w.signed ∧
        (refreshToken g faults command d w).2.redis =
          rotatePipeline (g.isoformat w.redis.now) s t.owner t.access t.renewal d.jti.str
            d.refreshToken.text g.accessTokenTtlSeconds g.refreshTokenTtlSeconds
            (getdel t.renewal w.redis).2 := by
  have hout := refreshToken_outcome (g := g) (w := w) hq command d
  generalize refreshToken g faults command d w = out at hout ⊢
  cases hout with
  | refused unusable redis signed =>
    cases hv : w.redis.refresh.value command.refreshToken with
    | none =>
      exact .inl ⟨ExpiringMap.value_eq_none.1 hv, ⟨_, rfl⟩, by rw [redis, getdel_absent hv], signed⟩
    | some raw =>
      obtain ⟨s, t, hl, -, rfl⟩ := h.coupled.refresh_value hv
      obtain ⟨data, hdata, hu, -, -⟩ := h.coupled.session s t hl
      exact absurd hu (unusable _ _ data _ hv (ExpiringMap.value_of_entry hdata))
  | rotated claimed split user session stored owner redis signed =>
    obtain ⟨s, t, hl, htok, rfl⟩ := h.coupled.refresh_value claimed
    rw [splitColon_payload, Option.some.injEq, Prod.mk.injEq] at split
    obtain ⟨rfl, rfl⟩ := split
    rw [parse_str, Option.some.injEq] at user session
    subst user session
    obtain ⟨data, hdata, hu, hjti, -⟩ := h.coupled.session s t hl
    rw [ExpiringMap.value_of_entry hdata, Option.some.injEq] at stored
    subst stored
    rw [hu, Option.some.injEq] at owner
    subst owner
    refine .inr ⟨s, t, hl, htok, rfl, signed, ?_⟩
    rw [redis, hjti, ← htok]
    rfl

theorem refresh_consistent {g : GlobalContainer} {faults : Faults} (hq : Quiet faults)
    (hpos : 0 < g.accessTokenTtlSeconds) (hle : g.accessTokenTtlSeconds ≤ g.refreshTokenTtlSeconds)
    {drawn : Drawn} {w : World} {l : SessionLedger}
    (h : Consistent (seconds g.refreshTokenTtlSeconds) drawn w.redis l)
    (command : RefreshTokenCommand) {d : RefreshDraws} (hj : d.jti.str ∉ drawn.jtis)
    (ht : d.refreshToken.text ∉ drawn.refreshTokens) :
    ((∃ e, (refreshToken g faults command d w).1 = .error e) ∧
        (refreshToken g faults command d w).2.redis = w.redis ∧
        ((refreshToken g faults command d w).2.signed = w.signed ∨
          ∃ u s, (refreshToken g faults command d w).2.signed =
            g.accessClaims w.redis.now u s d.jti :: w.signed)) ∨
      ∃ s t, l s = some t ∧ t.renewal = command.refreshToken ∧
        (refreshToken g faults command d w).1 =
          .ok ⟨g.encode (g.accessClaims w.redis.now t.owner s d.jti), d.refreshToken.text, s,
            "Bearer"⟩ ∧
        (refreshToken g faults command d w).2.signed =
          g.accessClaims w.redis.now t.owner s d.jti :: w.signed ∧
        (refreshToken g faults command d w).2.redis.now = w.redis.now ∧
        Consistent (seconds g.refreshTokenTtlSeconds)
          (drawn.renewed d.jti.str d.refreshToken.text)
          (refreshToken g faults command d w).2.redis
          (l.issue s (freshTicket t.owner d.jti.str d.refreshToken.text g.accessTokenTtlSeconds
            g.refreshTokenTtlSeconds w.redis.now)) := by
  rcases refresh_rotates hq h command d with ⟨-, hout⟩ | ⟨s, t, hl, htok, hok, hsig, hredis⟩
  · exact .inl hout
  · refine .inr ⟨s, t, hl, htok, hok, hsig, by rw [hredis, rotate_now]; rfl, ?_⟩
    rw [hredis]
    exact consistent_rotate h hpos hle hl hj ht (str_ne_empty _) d.refreshToken.ne_empty

theorem login_consistent {g : GlobalContainer} {faults : Faults} (hq : Quiet faults)
    (hpos : 0 < g.accessTokenTtlSeconds) (hle : g.accessTokenTtlSeconds ≤ g.refreshTokenTtlSeconds)
    {drawn : Drawn} {w : World} {l : SessionLedger} (hdb : w.db.aborted = false)
    (h : Consistent (seconds g.refreshTokenTtlSeconds) drawn w.redis l)
    (command : AuthenticateUserCommand) {d : LoginDraws}
    (hs : d.sessionId ∉ drawn.sessions.map Prod.fst) (hj : d.jti.str ∉ drawn.jtis)
    (ht : d.refreshToken.text ∉ drawn.refreshTokens) :
    ((∃ e, (authenticateUser g faults command d w).1 = .error e) ∧
        (authenticateUser g faults command d w).2.redis = w.redis ∧
        (authenticateUser g faults command d w).2.signed = w.signed) ∨
      ∃ uid, (authenticateUser g faults command d w).1 =
          .ok ⟨g.encode (g.accessClaims w.redis.now uid d.sessionId d.jti), d.refreshToken.text,
            d.sessionId, "Bearer"⟩ ∧
        (authenticateUser g faults command d w).2.signed =
          g.accessClaims w.redis.now uid d.sessionId d.jti :: w.signed ∧
        (authenticateUser g faults command d w).2.redis.now = w.redis.now ∧
        Consistent (seconds g.refreshTokenTtlSeconds)
          (drawn.opened d.sessionId d.jti.str d.refreshToken.text
            (authenticateUser g faults command d w).2.redis)
          (authenticateUser g faults command d w).2.redis
          (l.issue d.sessionId (freshTicket uid d.jti.str d.refreshToken.text
            g.accessTokenTtlSeconds g.refreshTokenTtlSeconds w.redis.now)) := by
  have hout := authenticateUser_outcome (g := g) (w := w) hq hdb command d
  generalize authenticateUser g faults command d w = out at hout ⊢
  cases hout with
  | refused redis signed => exact .inl ⟨⟨_, rfl⟩, redis, signed⟩
  | @opened m w' stored active verified redis signed =>
    refine .inr ⟨m.id, rfl, signed, by rw [redis, create_now], ?_⟩
    rw [redis]
    exact consistent_create h hpos hle hs hj ht (str_ne_empty _) d.refreshToken.ne_empty

theorem storeInvariant_step (g : GlobalContainer) (hpos : 0 < g.accessTokenTtlSeconds)
    (hle : g.accessTokenTtlSeconds ≤ g.refreshTokenTtlSeconds) (s : StoreState) (o : Operation)
    (s' : StoreState) (h : StoreInvariant g s) (hs : (storeRuns g).step s o s') :
    StoreInvariant g s' := by
  obtain ⟨l, hc⟩ := h
  obtain ⟨hfresh, hredis, hdrawn⟩ := hs
  obtain ⟨r', drawn'⟩ := s'
  simp only at hredis hdrawn
  cases o with
  | login w command d =>
    obtain ⟨hdb, hsid, hj, ht⟩ := hfresh
    rw [Operation.record] at hdrawn
    rw [Operation.redisAfter] at hredis
    subst hdrawn
    rcases login_consistent (w := withStore s.redis w) quiet_noFaults hpos hle hdb hc command hsid hj
        ht with ⟨-, hsame, -⟩ | ⟨uid, -, -, -, hnew⟩
    · replace hredis : r' = s.redis := hredis.trans hsame
      subst hredis
      exact .intro (hc.opened_of_untouched hsid)
    · rw [hredis]
      exact .intro hnew
  | refresh w command d =>
    obtain ⟨hj, ht⟩ := hfresh
    rw [Operation.record] at hdrawn
    rw [Operation.redisAfter] at hredis
    subst hdrawn
    rcases refresh_consistent (w := withStore s.redis w) quiet_noFaults hpos hle hc command hj ht
      with ⟨-, hsame, -⟩ | ⟨sid, t, -, -, -, -, -, hnew⟩
    · replace hredis : r' = s.redis := hredis.trans hsame
      subst hredis
      exact .intro (hc.mono rfl (List.subset_cons_self _ _) (List.subset_cons_self _ _))
    · rw [hredis]
      exact .intro hnew
  | revokeSession w sid =>
    rw [Operation.redisAfter, revokeSession_run quiet_noFaults] at hredis
    subst hredis hdrawn
    exact .intro (consistent_revokeOne hc sid)
  | revokeAllUserSessions w uid =>
    rw [Operation.redisAfter, revokeAllUserSessions_run quiet_noFaults] at hredis
    subst hredis hdrawn
    exact .intro (consistent_revokeAll hc uid)
  | wait d =>
    subst hredis hdrawn
    exact .intro (consistent_advance hc d)

theorem storeInvariant_reachable {g : GlobalContainer} (hpos : 0 < g.accessTokenTtlSeconds)
    (hle : g.accessTokenTtlSeconds ≤ g.refreshTokenTtlSeconds) {s : StoreState}
    (h : Reachable (storeRuns g) s) : StoreInvariant g s := by
  refine h.invariant (StoreInvariant g) ?_ (storeInvariant_step g hpos hle)
  rintro ⟨r, drawn⟩ ⟨⟨now, rfl⟩, rfl⟩
  exact .intro (consistent_blank _ now)

def currentRefreshOf (r : Redis) (s : UUID) : String :=
  ((r.session.value s).bind SessionHash.currentRefresh).getD ""

theorem access_points_back {ttl : ℕ} {r : Redis} {l : SessionLedger} (h : Coupled ttl r l)
    {j raw : String} (hv : r.access.value j = some raw) :
    ∃ s u data, raw = payload u s ∧ r.session.value s = some data ∧ data.userId = some u ∧
      data.currentJti = some j := by
  obtain ⟨e, he, rfl⟩ := Option.map_eq_some_iff.1 hv
  obtain ⟨s, t, hl, hj, -, rfl⟩ := (h.access j e).1 he
  obtain ⟨data, hdata, hu, hjti, -⟩ := h.session s t hl
  exact ⟨s, t.owner, data, rfl, ExpiringMap.value_of_entry hdata, hu, by rw [hjti, hj]⟩

theorem refresh_bijOn {ttl : ℕ} {r : Redis} {l : SessionLedger} (h : Coupled ttl r l) :
    Set.BijOn (currentRefreshOf r) {s | r.session s ≠ none} {k | r.refresh k ≠ none} := by
  have hticket : ∀ s, r.session s ≠ none → ∃ t, l s = some t ∧ currentRefreshOf r s = t.renewal := by
    intro s hs
    cases hl : l s with
    | none => exact absurd (h.dead s hl) hs
    | some t =>
      obtain ⟨data, hdata, -, -, hr⟩ := h.session s t hl
      refine ⟨t, rfl, ?_⟩
      rw [currentRefreshOf, ExpiringMap.value_of_entry hdata, Option.bind_some, hr, Option.getD_some]
  refine ⟨?_, ?_, ?_⟩
  · intro s hs
    obtain ⟨t, hl, hk⟩ := hticket s hs
    have he := (h.refresh t.renewal _).2 ⟨s, t, hl, rfl, trivial, rfl⟩
    simp [hk, he]
  · intro s hs s' hs' heq
    obtain ⟨t, hl, hk⟩ := hticket s hs
    obtain ⟨t', hl', hk'⟩ := hticket s' hs'
    exact h.renewalSeparates s s' t t' hl hl' (by rw [← hk, ← hk', heq])
  · intro k hk
    obtain ⟨e, he⟩ := Option.ne_none_iff_exists'.1 hk
    obtain ⟨s, t, hl, ht, -, -⟩ := (h.refresh k e).1 he
    obtain ⟨data, hdata, -⟩ := h.session s t hl
    have hs : r.session s ≠ none := by simp [hdata]
    obtain ⟨t', hl', hk'⟩ := hticket s hs
    rw [hl, Option.some.injEq] at hl'
    exact ⟨s, hs, by rw [hk', ← hl', ht]⟩

theorem refresh_payload {ttl : ℕ} {r : Redis} {l : SessionLedger} (h : Coupled ttl r l) {s : UUID}
    {data : SessionHash} (hs : r.session.value s = some data) :
    ∃ u k raw, data.userId = some u ∧ data.currentRefresh = some k ∧
      r.refresh.value k = some raw ∧ splitColon raw = some (u.str, s.str) ∧
      UUID.parse u.str = some u ∧ UUID.parse s.str = some s := by
  obtain ⟨t, hl, hu, -, hr⟩ := h.session_value hs
  have he := (h.refresh t.renewal _).2 ⟨s, t, hl, rfl, trivial, rfl⟩
  exact ⟨t.owner, t.renewal, _, hu, hr, ExpiringMap.value_of_entry he, splitColon_payload _ _,
    parse_str _, parse_str _⟩

theorem index_outlives {ttl : ℕ} {r : Redis} {l : SessionLedger} (h : Coupled ttl r l)
    (hi : Indexed r l) {s : UUID} {e : Entry SessionHash} (hs : r.session s = some e) :
    ∃ u ids d d', e.value.userId = some u ∧ e.deadline = some d ∧
      r.sessions u = some ⟨ids, some d'⟩ ∧ s ∈ ids ∧ d ≤ d' := by
  cases hl : l s with
  | none => simp [h.dead s hl] at hs
  | some t =>
    obtain ⟨data, hdata, hu, -, -⟩ := h.session s t hl
    rw [hdata, Option.some.injEq] at hs
    subst hs
    obtain ⟨ids, d', hids, hmem, hd⟩ := hi.listed s t hl
    exact ⟨t.owner, ids, t.validUntil, d', hu, rfl, hids, hmem, hd⟩

theorem owner_kept {ttl : ℕ} {drawn : Drawn} {r : Redis} {l : SessionLedger}
    (hc : Consistent ttl drawn r l) {s : UUID} {data : SessionHash}
    (hs : r.session.value s = some data) :
    ∃ u, data.userId = some u ∧ ∀ u', (s, u') ∈ drawn.sessions ↔ u' = u := by
  obtain ⟨t, hl, hu, -, -⟩ := hc.coupled.session_value hs
  have hmem := hc.recorded.owner s t hl
  refine ⟨t.owner, hu, fun u' => ⟨fun hu' => ?_, fun hu' => hu' ▸ hmem⟩⟩
  exact congrArg Prod.snd (List.inj_on_of_nodup_map hc.recorded.once hu' hmem rfl)

/-- The four key families stay coupled. -/
theorem session_families_coupled {g : GlobalContainer} (hpos : 0 < g.accessTokenTtlSeconds)
    (hle : g.accessTokenTtlSeconds ≤ g.refreshTokenTtlSeconds) {v : StoreState}
    (h : Reachable (storeRuns g) v) :
    (∀ j raw, v.redis.access.value j = some raw → ∃ s u data, raw = payload u s ∧
      v.redis.session.value s = some data ∧ data.userId = some u ∧ data.currentJti = some j) ∧
    (Set.BijOn (currentRefreshOf v.redis) {s | v.redis.session s ≠ none}
        {k | v.redis.refresh k ≠ none} ∧
      ∀ s data, v.redis.session.value s = some data → ∃ u k raw, data.userId = some u ∧
        data.currentRefresh = some k ∧ v.redis.refresh.value k = some raw ∧
        splitColon raw = some (u.str, s.str) ∧ UUID.parse u.str = some u ∧
        UUID.parse s.str = some s) ∧
    (∀ s e, v.redis.session s = some e → ∃ u ids d d', e.value.userId = some u ∧
      e.deadline = some d ∧ v.redis.sessions u = some ⟨ids, some d'⟩ ∧ s ∈ ids ∧ d ≤ d') ∧
    ∀ s data, v.redis.session.value s = some data → ∃ u, data.userId = some u ∧
      ∀ u', (s, u') ∈ v.drawn.sessions ↔ u' = u := by
  obtain ⟨l, hc⟩ := storeInvariant_reachable hpos hle h
  refine ⟨fun j raw => access_points_back hc.coupled, ⟨refresh_bijOn hc.coupled, fun s data =>
    refresh_payload hc.coupled⟩, fun s e => index_outlives hc.coupled hc.indexed, fun s data =>
    owner_kept hc⟩

section Sample
open SampleContainer

def sampleLogin : Operation := .login initialWorld loginCommand loginDraws

def afterLogin : StoreState :=
  let redis := sampleLogin.redisAfter sample (Redis.blank startTime)
  ⟨redis, sampleLogin.record redis Drawn.none⟩

theorem afterLogin_reachable : Reachable (storeRuns sample) afterLogin := by
  refine ⟨⟨Redis.blank startTime, Drawn.none⟩, _, ⟨⟨_, rfl⟩, rfl⟩,
    .single (l := sampleLogin) ⟨⟨rfl, ?_, ?_, ?_⟩, rfl, rfl⟩⟩
  · simp [Drawn.none]
  · simp [Drawn.none]
  · simp [Drawn.none]

theorem session_families_coupled_login : ∃ s u data, payload alice sessionOne = payload u s ∧
    afterLogin.redis.session.value s = some data ∧ data.userId = some u ∧
    data.currentJti = some jtiOne.str := by
  have hlive : afterLogin.redis.access.value jtiOne.str = some (payload alice sessionOne) := by
    decide +kernel
  exact (session_families_coupled (g := sample)
    (by decide) (by decide) afterLogin_reachable).1 _ _ hlive

end Sample

end AuthService.SessionStoreRuns
