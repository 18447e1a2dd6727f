import AuthService.SessionStoreRuns

set_option autoImplicit false

/-! What a refresh does to the keys, exactly: which session it renews, which keys it
replaces, which it leaves alone, and what is left when one of its Redis calls fails. -/
namespace AuthService.SessionFrames
open Uuids PythonText DomainModel AccountTables FallibleState Fallible ExpiringMaps LabelledRuns
open RedisSessions RequestPorts RedisTokenStore CommandHandlers HandlerRuns CredentialLedgers
open SessionCoupling SessionStoreRuns

/-- Two stores hold the same keys of every session that `P` speaks of, by owner and id. -/
structure SameKeys (P : UUID → UUID → Prop) (r r' : Redis) : Prop where
  access : ∀ u s, P u s → ∀ j,
    r.access.value j = some (payload u s) ∨ r'.access.value j = some (payload u s) →
      r'.access j = r.access j
  refresh : ∀ u s, P u s → ∀ k,
    r.refresh.value k = some (payload u s) ∨ r'.refresh.value k = some (payload u s) →
      r'.refresh k = r.refresh k
  session : ∀ u s, P u s →
    (r.session.value s).bind SessionHash.userId = some u ∨
      (r'.session.value s).bind SessionHash.userId = some u → r'.session s = r.session s

/-- No key of a session that `P` speaks of is left. -/
structure NoKeys (P : UUID → UUID → Prop) (r : Redis) : Prop where
  access : ∀ u s, P u s → ∀ j, r.access.value j ≠ some (payload u s)
  refresh : ∀ u s, P u s → ∀ k, r.refresh.value k ≠ some (payload u s)
  session : ∀ u s, P u s → (r.session.value s).bind SessionHash.userId ≠ some u

section Frames
variable {ttl : ℕ} {r r' : Redis} {l l' : SessionLedger} {P : UUID → UUID → Prop}

theorem Coupled.refresh_value_of (h : Coupled ttl r l) {s : UUID} {t : Ticket UUID String}
    (hl : l s = some t) : r.refresh.value t.renewal = some (payload t.owner s) := by
  have he : r.refresh t.renewal = some (refreshEntry s t) :=
    (h.refresh t.renewal _).2 ⟨s, t, hl, rfl, trivial, rfl⟩
  rw [ExpiringMap.value_of_entry he, refreshEntry]

theorem Coupled.access_value_of (h : Coupled ttl r l) {s : UUID} {t : Ticket UUID String}
    (hl : l s = some t) (hlive : r.now < t.accessUntil) :
    r.access.value t.access = some (payload t.owner s) := by
  have he : r.access t.access = some (accessEntry s t) :=
    (h.access t.access _).2 ⟨s, t, hl, rfl, hlive, rfl⟩
  rw [ExpiringMap.value_of_entry he, accessEntry]

theorem Coupled.access_eq_some (h : Coupled ttl r l) {j : String} {u s : UUID}
    (hv : r.access.value j = some (payload u s)) :
    ∃ t, l s = some t ∧ t.owner = u ∧ t.access = j ∧ r.now < t.accessUntil ∧
      r.access j = some (accessEntry s t) := by
  obtain ⟨e, he, hp⟩ := Option.map_eq_some_iff.1 hv
  obtain ⟨s', t, hl, hj, hlive, rfl⟩ := (h.access j e).1 he
  obtain ⟨rfl, rfl⟩ := payload_inj.1 hp
  exact ⟨t, hl, rfl, hj, hlive, he⟩

theorem Coupled.refresh_eq_some (h : Coupled ttl r l) {k : String} {u s : UUID}
    (hv : r.refresh.value k = some (payload u s)) :
    ∃ t, l s = some t ∧ t.owner = u ∧ t.renewal = k ∧ r.refresh k = some (refreshEntry s t) := by
  obtain ⟨e, he, hp⟩ := Option.map_eq_some_iff.1 hv
  obtain ⟨s', t, hl, hk, -, rfl⟩ := (h.refresh k e).1 he
  obtain ⟨rfl, rfl⟩ := payload_inj.1 hp
  exact ⟨t, hl, rfl, hk, he⟩

theorem Coupled.session_eq_some (h : Coupled ttl r l) {u s : UUID}
    (hv : (r.session.value s).bind SessionHash.userId = some u) :
    ∃ t, l s = some t ∧ t.owner = u := by
  obtain ⟨data, hdata, hu⟩ := Option.bind_eq_some_iff.1 hv
  obtain ⟨t, hl, howner, -⟩ := h.session_value hdata
  rw [howner, Option.some.injEq] at hu
  exact ⟨t, hl, hu⟩

theorem Coupled.only_access (h : Coupled ttl r l) {s : UUID} {t : Ticket UUID String}
    (hl : l s = some t) (hlive : r.now < t.accessUntil) (j : String) :
    (∃ u, r.access.value j = some (payload u s)) ↔ j = t.access := by
  constructor
  · rintro ⟨u, hv⟩
    obtain ⟨t', ht', -, rfl, -⟩ := Coupled.access_eq_some h hv
    rw [hl, Option.some.injEq] at ht'
    rw [ht']
  · rintro rfl
    exact ⟨t.owner, Coupled.access_value_of h hl hlive⟩

theorem Coupled.only_refresh (h : Coupled ttl r l) {s : UUID} {t : Ticket UUID String}
    (hl : l s = some t) (k : String) :
    (∃ u, r.refresh.value k = some (payload u s)) ↔ k = t.renewal := by
  constructor
  · rintro ⟨u, hv⟩
    obtain ⟨t', ht', -, rfl, -⟩ := Coupled.refresh_eq_some h hv
    rw [hl, Option.some.injEq] at ht'
    rw [ht']
  · rintro rfl
    exact ⟨t.owner, Coupled.refresh_value_of h hl⟩

theorem Coupled.sameKeys (h : Coupled ttl r l) (h' : Coupled ttl r' l') (hnow : r'.now = r.now)
    (hl : ∀ s t, P t.owner s → (l' s = some t ↔ l s = some t))
    (hs : ∀ s t, P t.owner s → l s = some t → r'.session s = r.session s) : SameKeys P r r' where
  access u s hP j := by
    rintro (hv | hv)
    · obtain ⟨t, ht, rfl, hj, hlive, he⟩ := Coupled.access_eq_some h hv
      rw [he, (h'.access j _).2 ⟨s, t, (hl s t hP).2 ht, hj, hnow ▸ hlive, rfl⟩]
    · obtain ⟨t, ht, rfl, hj, hlive, he⟩ := Coupled.access_eq_some h' hv
      rw [he, (h.access j _).2 ⟨s, t, (hl s t hP).1 ht, hj, hnow ▸ hlive, rfl⟩]
  refresh u s hP k := by
    rintro (hv | hv)
    · obtain ⟨t, ht, rfl, hk, he⟩ := Coupled.refresh_eq_some h hv
      rw [he, (h'.refresh k _).2 ⟨s, t, (hl s t hP).2 ht, hk, trivial, rfl⟩]
    · obtain ⟨t, ht, rfl, hk, he⟩ := Coupled.refresh_eq_some h' hv
      rw [he, (h.refresh k _).2 ⟨s, t, (hl s t hP).1 ht, hk, trivial, rfl⟩]
  session u s hP := by
    rintro (hv | hv)
    · obtain ⟨t, ht, rfl⟩ := Coupled.session_eq_some h hv
      exact hs s t hP ht
    · obtain ⟨t, ht, rfl⟩ := Coupled.session_eq_some h' hv
      exact hs s t hP ((hl s t hP).1 ht)

theorem Coupled.noKeys (h : Coupled ttl r l) (hl : ∀ s t, P t.owner s → l s ≠ some t) :
    NoKeys P r where
  access u s hP j hv := by
    obtain ⟨t, ht, rfl, -⟩ := Coupled.access_eq_some h hv
    exact hl s t hP ht
  refresh u s hP k hv := by
    obtain ⟨t, ht, rfl, -⟩ := Coupled.refresh_eq_some h hv
    exact hl s t hP ht
  session u s hP hv := by
    obtain ⟨t, ht, rfl⟩ := Coupled.session_eq_some h hv
    exact hl s t hP ht

end Frames

/-- The refresh token `r` was replaced by the pair with the new `jti`. -/
structure Rotated (g : GlobalContainer) (token : String) (jti : UUID) (pair : TokenPairDTO)
    (r r' : Redis) : Prop where
  /-- The pair names the session of the presented token, and its owner. -/
  named : ∃ u, r.refresh.value token = some (payload u pair.sessionId) ∧
    pair.accessToken = g.encode (g.accessClaims r.now u pair.sessionId jti) ∧
    ∃ ids, r.sessions.value u = some ids ∧ pair.sessionId ∈ ids ∧
      r'.sessions u = some ⟨ids, some (r.now + seconds g.refreshTokenTtlSeconds)⟩ ∧
      ∀ u', u' ≠ u → r'.sessions u' = r.sessions u'
  onlyAccess : ∀ j, (∃ u, r'.access.value j = some (payload u pair.sessionId)) ↔ j = jti.str
  onlyRefresh : ∀ k, (∃ u, r'.refresh.value k = some (payload u pair.sessionId)) ↔
    k = pair.refreshToken
  /-- What was live before is dead, and the hash keeps what does not name a credential. -/
  replaced : r'.refresh token = none ∧ ∃ old oldJti, r.session.value pair.sessionId = some old ∧
    old.currentJti = some oldJti ∧ r'.access oldJti = none ∧
    old.currentRefresh = some token ∧
    ∃ new, r'.session pair.sessionId = some ⟨new, some (r.now + seconds g.refreshTokenTtlSeconds)⟩ ∧
      new.userId = old.userId ∧ new.deviceInfo = old.deviceInfo ∧ new.createdAt = old.createdAt ∧
      new.currentJti = some jti.str ∧ new.currentRefresh = some pair.refreshToken
  others : SameKeys (fun _ s => s ≠ pair.sessionId) r r'

section Refresh
variable {g : GlobalContainer} {drawn : Drawn} {r : Redis} {l : SessionLedger}

theorem rotate_rotated (hpos : 0 < g.accessTokenTtlSeconds)
    (hle : g.accessTokenTtlSeconds ≤ g.refreshTokenTtlSeconds)
    (h : Consistent (seconds g.refreshTokenTtlSeconds) drawn r l) {s jti : UUID}
    {t : Ticket UUID String} (hl : l s = some t) {newToken : String} (hj : jti.str ∉ drawn.jtis)
    (hk : newToken ∉ drawn.refreshTokens) (hne : newToken ≠ "") :
    Rotated g t.renewal jti
      ⟨g.encode (g.accessClaims r.now t.owner s jti), newToken, s, "Bearer"⟩ r
      (rotatePipeline (g.isoformat r.now) s t.owner t.access t.renewal jti.str newToken
        g.accessTokenTtlSeconds g.refreshTokenTtlSeconds (getdel t.renewal r).2) := by
  have hnew : Consistent (seconds g.refreshTokenTtlSeconds) (drawn.renewed jti.str newToken)
      (rotatePipeline (g.isoformat r.now) s t.owner t.access t.renewal jti.str newToken
        g.accessTokenTtlSeconds g.refreshTokenTtlSeconds (getdel t.renewal r).2)
      (l.issue s (freshTicket t.owner jti.str newToken g.accessTokenTtlSeconds
        g.refreshTokenTtlSeconds r.now)) :=
    consistent_rotate h hpos hle hl hj hk (str_ne_empty jti) hne
  have hA := seconds_pos hpos
  obtain ⟨data, hdata, -, hold, hcur⟩ := h.coupled.session s t hl
  obtain ⟨ids, d, hids, hmem, -⟩ := h.indexed.listed s t hl
  have hpay := Coupled.refresh_value_of h.coupled hl
  have hissued := Ledger.issue_apply s s (freshTicket t.owner jti.str newToken
    g.accessTokenTtlSeconds g.refreshTokenTtlSeconds r.now) l
  rw [if_pos rfl] at hissued
  have honly := Coupled.only_access hnew.coupled hissued (by
    simp only [rotate_now, getdel, freshTicket]
    omega)
  have honly' := Coupled.only_refresh hnew.coupled hissued
  have hdead : t.renewal ≠ newToken := fun he => hk (he ▸ h.recorded.token s t hl)
  have hdead' : t.access ≠ jti.str := fun he => hj (he ▸ h.recorded.jti s t hl)
  have hlisted := ExpiringMap.value_of_entry hids
  have hv : (getdel t.renewal r).2.session.value s = some data := ExpiringMap.value_of_entry hdata
  constructor
  case named =>
    refine ⟨t.owner, hpay, rfl, ids, hlisted, hmem, ?_, ?_⟩
    · rw [rotate_sessions, if_pos rfl, show (getdel t.renewal r).2.sessions = r.sessions from rfl, hids]
      rfl
    · intro u' hu'
      rw [rotate_sessions, if_neg hu']
      rfl
  case onlyAccess => exact honly
  case onlyRefresh => exact honly'
  case replaced =>
    refine ⟨?_, data, t.access, hv, hold, ?_, hcur,
      data.rotated (g.isoformat r.now) jti.str newToken, ?_, rfl, rfl, rfl, rfl, rfl⟩
    · rw [rotate_refresh, if_neg hdead, if_pos rfl]
    · rw [rotate_access, if_neg hdead', if_pos ⟨(h.coupled.written s t hl).1, rfl⟩]
    · rw [rotate_session, if_pos rfl, hv]
      rfl
  case others =>
    refine Coupled.sameKeys h.coupled hnew.coupled (rotate_now _ _ _ _ _ _ _ _ _ _) ?_ ?_
    · intro s' t' hs'
      rw [Ledger.issue_apply, if_neg hs']
    · intro s' t' hs' _
      rw [rotate_session, if_neg hs']
      rfl

end Refresh

/-- A refresh succeeds exactly when the presented key is live; then it replaces the
credentials of that session and of no other, and otherwise it changes nothing. -/
theorem refresh_exact {g : GlobalContainer} (hpos : 0 < g.accessTokenTtlSeconds)
    (hle : g.accessTokenTtlSeconds ≤ g.refreshTokenTtlSeconds) {v : StoreState}
    (h : Reachable (storeRuns g) v) (w : World) (command : RefreshTokenCommand) {d : RefreshDraws}
    (hj : d.jti.str ∉ v.drawn.jtis) (ht : d.refreshToken.text ∉ v.drawn.refreshTokens) :
    let out := refreshToken g noFaults command d (withStore v.redis w)
    ((∃ pair, out.1 = .ok pair) ↔ v.redis.refresh command.refreshToken ≠ none) ∧
      (∀ pair, out.1 = .ok pair → pair.refreshToken = d.refreshToken.text ∧
        Rotated g command.refreshToken d.jti pair v.redis out.2.redis) ∧
      ∀ e, out.1 = .error e → out.2.redis = v.redis := by
  intro out
  obtain ⟨l, hc⟩ := storeInvariant_reachable hpos hle h
  have hrun := refresh_rotates (w := withStore v.redis w) quiet_noFaults hc command d
  rcases hrun with ⟨hnone, ⟨e, he⟩, hsame, -⟩ | ⟨s, t, hl, htok, hok, -, hredis⟩
  · replace hnone : v.redis.refresh command.refreshToken = none := hnone
    refine ⟨?_, ?_, fun _ _ => hsame⟩
    · simp [out, he, hnone]
    · intro pair hp
      simp [out, he] at hp
  · have hlive := (hc.coupled.refresh t.renewal _).2 ⟨s, t, hl, rfl, trivial, rfl⟩
    refine ⟨?_, ?_, ?_⟩
    · rw [← htok, hlive]
      exact ⟨fun _ => by simp, fun _ => ⟨_, hok⟩⟩
    · intro pair hp
      rw [show out.1 = _ from hok, Except.ok.injEq] at hp
      subst hp
      rw [← htok]
      rw [show out.2.redis = _ from hredis]
      exact ⟨rfl, rotate_rotated hpos hle hc hl hj ht d.refreshToken.ne_empty⟩
    · intro e he
      rw [show out.1 = _ from hok] at he
      simp at he

section Sample
open SampleContainer

def renewDraws : RefreshDraws := ⟨jtiTwo, rawB, eventOne⟩

theorem renewDraws_fresh : renewDraws.jti.str ∉ afterLogin.drawn.jtis ∧
    renewDraws.refreshToken.text ∉ afterLogin.drawn.refreshTokens := by
  constructor <;> decide +kernel

theorem afterLogin_live : afterLogin.redis.refresh rawA.text ≠ none := by
  decide +kernel

theorem refresh_exact_login : ∃ pair,
    (refreshToken sample noFaults ⟨rawA.text, none⟩ renewDraws
      (withStore afterLogin.redis initialWorld)).1 = .ok pair :=
  (refresh_exact (g := sample) (by decide) (by decide) afterLogin_reachable initialWorld
    ⟨rawA.text, none⟩ renewDraws_fresh.1 renewDraws_fresh.2).1.2 afterLogin_live

end Sample

/-! ## A failing Redis call -/

inductive RotationCall where
  | getdel
  | hgetall
  | pipeline
  deriving DecidableEq

def RotationCall.position : RotationCall → ℕ
  | .getdel => 0
  | .hgetall => 1
  | .pipeline => 2

def failing (w : World) (call : RotationCall) : Faults := fun c =>
  if c = .redis (w.commands + call.position) then some .raises else none

theorem failing_redis (w : World) (call : RotationCall) (n : ℕ) :
    failing w call (.redis (w.commands + n)) = if n = call.position then some .raises else none := by
  simp [failing]

def liveTokens (r : Redis) : Set String × Set String :=
  ({j | r.access j ≠ none}, {k | r.refresh k ≠ none})

/-- A refresh that raises leaves the live tokens as they were, so that the session can still
be renewed; and either the presented token is spent and the new pair is live, or neither. -/
def AllOrNothing (token : String) (d : RefreshDraws) (r : Redis)
    (out : Except Exn TokenPairDTO × World) : Prop :=
  ((∃ e, out.1 = .error e) → liveTokens out.2.redis = liveTokens r) ∧
    (out.2.redis.refresh token = none ↔
      out.2.redis.access d.jti.str ≠ none ∧ out.2.redis.refresh d.refreshToken.text ≠ none)

section Faults
variable {g : GlobalContainer} {w : World} {command : RefreshTokenCommand} {d : RefreshDraws}

theorem command_failing {α : Type} {f : Redis → α × Redis} {w w₀ : World} {call : RotationCall}
    (hn : w.commands = w₀.commands + call.position) :
    RequestPorts.command (failing w₀ call) f w =
      (.error .portError, { w with commands := w.commands + 1 }) := by
  have hf : failing w₀ call (.redis w.commands) = some .raises := by
    rw [hn, failing_redis, if_pos rfl]
  simp only [RequestPorts.command, hf]

theorem command_passing {α : Type} {f : Redis → α × Redis} {w w₀ : World} {call : RotationCall}
    {n : ℕ} (hn : w.commands = w₀.commands + n) (hne : n ≠ call.position) :
    RequestPorts.command (failing w₀ call) f w =
      (.ok (f w.redis).1, { w with redis := (f w.redis).2, commands := w.commands + 1 }) := by
  have hf : failing w₀ call (.redis w.commands) = none := by
    rw [hn, failing_redis, if_neg hne]
  simp only [RequestPorts.command, hf]

/-- When the first call fails nothing has happened; when a later one fails the presented
token is gone. -/
theorem refresh_failing (call : RotationCall) {u s : UUID} {data : SessionHash}
    (hraw : w.redis.refresh.value command.refreshToken = some (payload u s))
    (hdata : w.redis.session.value s = some data) (hu : data.userId = some u) :
    (∃ e, (refreshToken g (failing w call) command d w).1 = .error e) ∧
      (refreshToken g (failing w call) command d w).2.redis =
        if call = .getdel then w.redis else (getdel command.refreshToken w.redis).2 := by
  unfold refreshToken getSessionByRefreshToken
  rw [bind_run, bind_run]
  cases call with
  | getdel =>
    rw [command_failing rfl]
    exact ⟨⟨_, rfl⟩, rfl⟩
  | hgetall =>
    rw [command_passing (n := 0) rfl (by decide)]
    simp only [getdel, hraw, splitColon_payload, pure_run, parse_str]
    rw [bind_ok (generateAccessToken_run _ _ _), rotateSession, bind_run, bind_run, getSession,
      command_failing rfl]
    exact ⟨⟨_, rfl⟩, rfl⟩
  | pipeline =>
    rw [command_passing (n := 0) rfl (by decide)]
    simp only [getdel, hraw, splitColon_payload, pure_run, parse_str]
    rw [bind_ok (generateAccessToken_run _ _ _), rotateSession, bind_run, bind_run, getSession,
      command_passing (n := 1) rfl (by decide)]
    simp only [hdata, hu]
    rw [command_failing rfl]
    exact ⟨⟨_, rfl⟩, rfl⟩

end Faults

/-- With one failing Redis call a refresh of a live token is all or nothing exactly when
the call that fails is the first. -/
theorem refresh_atomic_iff {g : GlobalContainer} (hpos : 0 < g.accessTokenTtlSeconds)
    (hle : g.accessTokenTtlSeconds ≤ g.refreshTokenTtlSeconds) {v : StoreState}
    (h : Reachable (storeRuns g) v) (w : World) (command : RefreshTokenCommand) {d : RefreshDraws}
    (hj : d.jti.str ∉ v.drawn.jtis) (hlive : v.redis.refresh command.refreshToken ≠ none)
    (call : RotationCall) :
    AllOrNothing command.refreshToken d v.redis
        (refreshToken g (failing (withStore v.redis w) call) command d (withStore v.redis w)) ↔
      call = .getdel := by
  obtain ⟨l, hc⟩ := storeInvariant_reachable hpos hle h
  obtain ⟨raw, hraw⟩ := Option.ne_none_iff_exists'.1 (mt ExpiringMap.value_eq_none.1 hlive)
  obtain ⟨s, t, hl, htok, rfl⟩ := hc.coupled.refresh_value hraw
  obtain ⟨data, hdata, hu, -, -⟩ := hc.coupled.session s t hl
  obtain ⟨⟨e, he⟩, hredis⟩ := refresh_failing (g := g) (w := withStore v.redis w) (d := d) call hraw
    (ExpiringMap.value_of_entry hdata) hu
  generalize refreshToken g (failing (withStore v.redis w) call) command d (withStore v.redis w) = out
    at he hredis ⊢
  replace hredis : out.2.redis = if call = .getdel then v.redis
      else (getdel command.refreshToken v.redis).2 := hredis
  have hnew : v.redis.access d.jti.str = none := by
    cases ha : v.redis.access d.jti.str with
    | none => rfl
    | some x =>
      obtain ⟨s', t', hl', hj', -⟩ := (hc.coupled.access _ _).1 ha
      exact absurd (hj' ▸ hc.recorded.jti s' t' hl') hj
  constructor
  · rintro ⟨hsame, -⟩
    by_contra hcall
    rw [if_neg hcall] at hredis
    have hgone : command.refreshToken ∉ (liveTokens out.2.redis).2 := by
      simp [liveTokens, hredis, getdel, ExpiringMap.remove_apply]
    rw [hsame ⟨e, he⟩] at hgone
    exact hgone hlive
  · rintro rfl
    rw [if_pos rfl] at hredis
    rw [AllOrNothing, hredis]
    exact ⟨fun _ => rfl, ⟨fun hn => absurd hn hlive, fun hn => absurd hnew hn.1⟩⟩

section Sample
open SampleContainer

theorem refresh_atomic_login : AllOrNothing rawA.text renewDraws afterLogin.redis
    (refreshToken sample (failing (withStore afterLogin.redis initialWorld) .getdel)
      ⟨rawA.text, none⟩ renewDraws (withStore afterLogin.redis initialWorld)) :=
  (refresh_atomic_iff (g := sample) (by decide) (by decide) afterLogin_reachable initialWorld
    ⟨rawA.text, none⟩ renewDraws_fresh.1 afterLogin_live .getdel).2 rfl

/-- The read of the hash fails after the GETDEL: the refresh raises, the token is gone. -/
theorem interrupted_rotation_loses_token :
    Reachable (storeRuns sample) afterLogin ∧ afterLogin.redis.refresh rawA.text ≠ none ∧
      ¬ AllOrNothing rawA.text renewDraws afterLogin.redis
        (refreshToken sample (failing (withStore afterLogin.redis initialWorld) .hgetall)
          ⟨rawA.text, none⟩ renewDraws (withStore afterLogin.redis initialWorld)) := by
  refine ⟨afterLogin_reachable, afterLogin_live, ?_⟩
  rintro ⟨hsame, -⟩
  have hgone : rawA.text ∉ (liveTokens (refreshToken sample
      (failing (withStore afterLogin.redis initialWorld) .hgetall) ⟨rawA.text, none⟩ renewDraws
      (withStore afterLogin.redis initialWorld)).2.redis).2 := by
    refine not_not_intro ?_
    decide +kernel
  rw [hsame ⟨.portError, by rfl⟩] at hgone
  exact hgone afterLogin_live

end Sample

end AuthService.SessionFrames
