import AuthService.SampleContainer
import AuthService.SessionThreads

set_option autoImplicit false

/-! A session has one way to be renewed at a time: a live refresh key, or a run that has
taken it with GETDEL and not rotated yet. -/
namespace AuthService.RefreshLinearity
open Uuids ExpiringMaps RedisSessions RequestPorts CommandHandlers LabelledRuns ThreadPools
open SessionThreads

def AccessOf (r : Redis) (s : UUID) (j : String) : Prop :=
  ∃ u e, r.access j = some e ∧ e.value = payload u s

def RefreshOf (r : Redis) (s : UUID) (k : String) : Prop :=
  ∃ u e, r.refresh k = some e ∧ e.value = payload u s

structure Fewer (r' r : Redis) : Prop where
  access : ∀ j e, r'.access j = some e → r.access j = some e
  refresh : ∀ k e, r'.refresh k = some e → r.refresh k = some e
  session : ∀ s e, r'.session s = some e → r.session s = some e

section Fewer
variable {r r' : Redis}

theorem Fewer.refl (r : Redis) : Fewer r r := ⟨fun _ _ => id, fun _ _ => id, fun _ _ => id⟩

theorem fewer_getdel (token : String) (r : Redis) : Fewer (getdel token r).2 r := by
  refine ⟨fun _ _ => id, fun k e he => ?_, fun _ _ => id⟩
  simp only [getdel, ExpiringMap.remove_apply] at he
  split_ifs at he
  exact he

theorem fewer_revoke (s : UUID) (data : SessionHash) (r : Redis) :
    Fewer (revokePipeline s data r) r := by
  refine ⟨fun _ _ => removeUnlessEmpty_le, fun _ _ => removeUnlessEmpty_le, fun s' e he => ?_⟩
  rw [revoke_session] at he
  split_ifs at he
  exact he

theorem fewer_advance (d : ℕ) (r : Redis) : Fewer (r.advance d) r :=
  ⟨fun _ _ he => (advance_access.1 he).1, fun _ _ he => (advance_refresh.1 he).1,
    fun _ _ he => (advance_session.1 he).1⟩

theorem fewer_evict (k : Key) (r : Redis) : Fewer (r.evict k) r := by
  cases k with
  | access j =>
    refine ⟨fun j' e he => ?_, fun _ _ => id, fun _ _ => id⟩
    simp only [Redis.evict, ExpiringMap.remove_apply] at he
    split_ifs at he
    exact he
  | refresh k =>
    refine ⟨fun _ _ => id, fun k' e he => ?_, fun _ _ => id⟩
    simp only [Redis.evict, ExpiringMap.remove_apply] at he
    split_ifs at he
    exact he
  | session s =>
    refine ⟨fun _ _ => id, fun _ _ => id, fun s' e he => ?_⟩
    simp only [Redis.evict, ExpiringMap.remove_apply] at he
    split_ifs at he
    exact he
  | sessions u => exact ⟨fun _ _ => id, fun _ _ => id, fun _ _ => id⟩

theorem fewer_vanishing (h : vanishing r r') : Fewer r' r := by
  obtain ⟨d, rfl⟩ | ⟨k, rfl⟩ := h
  · exact fewer_advance d r
  · exact fewer_evict k r

theorem Fewer.accessOf (h : Fewer r' r) {s : UUID} {j : String} (hj : AccessOf r' s j) :
    AccessOf r s j := by
  obtain ⟨u, e, he, hv⟩ := hj
  exact ⟨u, e, h.access j e he, hv⟩

theorem Fewer.refreshOf (h : Fewer r' r) {s : UUID} {k : String} (hk : RefreshOf r' s k) :
    RefreshOf r s k := by
  obtain ⟨u, e, he, hv⟩ := hk
  exact ⟨u, e, h.refresh k e he, hv⟩

theorem Fewer.access_none (h : Fewer r' r) {j : String} (hj : r.access j = none) :
    r'.access j = none := by
  cases he : r'.access j with
  | none => rfl
  | some e => rw [h.access j e he] at hj; simp at hj

theorem Fewer.refresh_none (h : Fewer r' r) {k : String} (hk : r.refresh k = none) :
    r'.refresh k = none := by
  cases he : r'.refresh k with
  | none => rfl
  | some e => rw [h.refresh k e he] at hk; simp at hk

theorem Fewer.session_none (h : Fewer r' r) {s : UUID} (hs : r.session s = none) :
    r'.session s = none := by
  cases he : r'.session s with
  | none => rfl
  | some e => rw [h.session s e he] at hs; simp at hs

end Fewer

/-- A thread without draws, a session to open or a refresh token of its own. -/
structure Idle (t : SessionThread) : Prop where
  pending : t.pending = none
  opening : t.opening = none
  holds : t.holds = none
  claim : t.claim = none

def revokes : SessionThread → Option (UUID × SessionHash)
  | .revoking s data => some (s, data)
  | .revokingEach _ s data _ => some (s, data)
  | _ => none

inductive TokenStep (g : GlobalContainer) (r : Redis) :
    SessionThread → Redis → SessionThread → Prop where
  | login (u : UUID) (device : Option String) (d : LoginDraws) :
      TokenStep g r (.login u device d)
        (createPipeline (g.isoformat r.now) d.sessionId u d.jti.str d.refreshToken.text device
          g.accessTokenTtlSeconds g.refreshTokenTtlSeconds r) (.loggedIn d)
  | claim (token : String) (d : RefreshDraws) (s : UUID) (live : RefreshOf r s token) :
      TokenStep g r (.refresh token d) (getdel token r).2 (.claimed token d s)
  | read (token : String) (d : RefreshDraws) (s v : UUID) (data : SessionHash)
      (stored : r.session.value s = some data) :
      TokenStep g r (.claimed token d s) r (.rotating token d s v data)
  | rotate (token : String) (d : RefreshDraws) (s v : UUID) (data : SessionHash) :
      TokenStep g r (.rotating token d s v data)
        (rotatePipeline (g.isoformat r.now) s v (data.currentJti.getD "") token d.jti.str
          d.refreshToken.text g.accessTokenTtlSeconds g.refreshTokenTtlSeconds r)
        (.refreshed token d s)
  | found {t t' : SessionThread} (s : UUID) (data : SessionHash)
      (stored : r.session.value s = some data) (revokes : revokes t' = some (s, data)) (idle : Idle t')
      (unissued : t'.issued = none) (revoked : t'.revoked = t.revoked) : TokenStep g r t r t'
  | revoke {t t' : SessionThread} (s : UUID) (data : SessionHash) (revokes : revokes t = some (s, data))
      (idle : Idle t') (unissued : t'.issued = none) (revoked : t'.revoked = s :: t.revoked)
      (done : RefreshLinearity.revokes t' = none) : TokenStep g r t (revokePipeline s data r) t'
  | other {t t' : SessionThread} {r' : Redis} (fewer : Fewer r' r) (idle : Idle t')
      (unissued : t'.issued = none) (revoked : t'.revoked = t.revoked) (done : revokes t' = none) :
      TokenStep g r t r' t'

theorem idle_loop (gone ids : List UUID) : Idle (SessionThread.loop gone ids) := by
  cases ids <;> exact ⟨rfl, rfl, rfl, rfl⟩

@[simp] theorem issued_loop (gone ids : List UUID) : (SessionThread.loop gone ids).issued = none := by
  cases ids <;> rfl

@[simp] theorem revoked_loop (gone ids : List UUID) : (SessionThread.loop gone ids).revoked = gone := by
  cases ids <;> rfl

@[simp] theorem revokes_loop (gone ids : List UUID) : revokes (SessionThread.loop gone ids) = none := by
  cases ids <;> rfl

/-- Keys hold what the pipelines write, and no key of an empty `jti`. -/
structure Formed (r : Redis) : Prop where
  refresh : ∀ k e, r.refresh k = some e → ∃ u s, e.value = payload u s
  named : r.access "" = none

theorem tokenStep_of_step {g : GlobalContainer} {r r' : Redis} {t t' : SessionThread} (hf : Formed r)
    (h : t.step g r = some (r', t')) : TokenStep g r t r' t' := by
  cases t with
  | login u device d => cases h; exact .login u device d
  | refresh token d =>
    cases h
    cases hv : r.refresh token with
    | none =>
      rw [getdel, ExpiringMap.value_eq_none.2 hv]
      exact .other (fewer_getdel token r) ⟨rfl, rfl, rfl, rfl⟩ rfl rfl rfl
    | some e =>
      obtain ⟨u, s, hval⟩ := hf.refresh token e hv
      have hclaim : SessionThread.afterGetdel token d (getdel token r).1 = .claimed token d s := by
        simp only [getdel, ExpiringMap.value_of_entry hv, hval, SessionThread.afterGetdel,
          Option.bind_some, splitColon_payload, parse_str]
      rw [hclaim]
      exact .claim token d s ⟨u, e, hv, hval⟩
  | claimed token d s =>
    cases h
    cases hv : r.session.value s with
    | none => exact .other (.refl r) ⟨rfl, rfl, rfl, rfl⟩ rfl rfl rfl
    | some data =>
      cases hu : data.userId with
      | none =>
        simp only [SessionThread.afterHgetall, hu]
        exact .other (.refl r) ⟨rfl, rfl, rfl, rfl⟩ rfl rfl rfl
      | some v =>
        simp only [SessionThread.afterHgetall, hu]
        exact .read token d s v data hv
  | rotating token d s v data => cases h; exact .rotate token d s v data
  | bearer u jti s =>
    cases h
    unfold SessionThread.afterExists
    split_ifs <;> exact .other (.refl r) ⟨rfl, rfl, rfl, rfl⟩ rfl rfl rfl
  | ownership u s =>
    cases h
    cases r.session.value s with
    | none => exact .other (.refl r) ⟨rfl, rfl, rfl, rfl⟩ rfl rfl rfl
    | some data =>
      simp only [SessionThread.afterOwnership]
      split_ifs <;> exact .other (.refl r) ⟨rfl, rfl, rfl, rfl⟩ rfl rfl rfl
  | revokeHandler s => cases h; exact .other (.refl r) ⟨rfl, rfl, rfl, rfl⟩ rfl rfl rfl
  | revoke s =>
    cases h
    cases hv : r.session.value s with
    | none => exact .other (.refl r) ⟨rfl, rfl, rfl, rfl⟩ rfl rfl rfl
    | some data => exact .found s data hv rfl ⟨rfl, rfl, rfl, rfl⟩ rfl rfl
  | revoking s data => cases h; exact .revoke s data rfl ⟨rfl, rfl, rfl, rfl⟩ rfl rfl rfl
  | revokeAll u => cases h; exact .other (.refl r) ⟨rfl, rfl, rfl, rfl⟩ rfl rfl rfl
  | clearing u ids =>
    cases h
    exact .other ⟨fun _ _ => id, fun _ _ => id, fun _ _ => id⟩ (idle_loop _ _) (issued_loop _ _)
      (revoked_loop _ _)
      (revokes_loop _ _)
  | revokeEach gone ids =>
    cases ids with
    | nil => simp [SessionThread.step] at h
    | cons s rest =>
      cases h
      cases hv : r.session.value s with
      | none =>
        exact .other (.refl r) (idle_loop _ _) (issued_loop _ _) (revoked_loop _ _) (revokes_loop _ _)
      | some data => exact .found s data hv rfl ⟨rfl, rfl, rfl, rfl⟩ rfl rfl
  | revokingEach gone s data rest =>
    cases h
    exact .revoke s data rfl (idle_loop _ _) (issued_loop _ _) (revoked_loop _ _) (revokes_loop _ _)
  | _ => simp [SessionThread.step] at h

structure Adds (r r' : Redis) (s : UUID) (jti token : String) : Prop where
  access : ∀ j e, r'.access j = some e →
    (j = jti ∧ ∃ u, e.value = payload u s) ∨ (j ≠ jti ∧ r.access j = some e)
  refresh : ∀ k e, r'.refresh k = some e →
    (k = token ∧ ∃ u, e.value = payload u s) ∨ (k ≠ token ∧ r.refresh k = some e)
  session : ∀ s', s' ≠ s → r'.session s' = r.session s'

theorem adds_create (nowIso : String) (s u : UUID) (jti token : String) (device : Option String)
    (accessTtl refreshTtl : ℕ) (r : Redis) :
    Adds r (createPipeline nowIso s u jti token device accessTtl refreshTtl r) s jti token where
  access j e he := by
    rw [create_access] at he
    split_ifs at he with heq
    · obtain rfl := Option.some.inj he
      exact .inl ⟨heq, u, rfl⟩
    · exact .inr ⟨heq, he⟩
  refresh k e he := by
    rw [create_refresh] at he
    split_ifs at he with heq
    · obtain rfl := Option.some.inj he
      exact .inl ⟨heq, u, rfl⟩
    · exact .inr ⟨heq, he⟩
  session s' hne := by rw [create_session, if_neg hne]

theorem adds_rotate (nowIso : String) (s u : UUID) (oldJti oldToken jti token : String)
    (accessTtl refreshTtl : ℕ) (r : Redis) :
    Adds r (rotatePipeline nowIso s u oldJti oldToken jti token accessTtl refreshTtl r) s jti
      token where
  access j e he := by
    rw [rotate_access] at he
    split_ifs at he with heq
    · obtain rfl := Option.some.inj he
      exact .inl ⟨heq, u, rfl⟩
    · exact .inr ⟨heq, he⟩
  refresh k e he := by
    rw [rotate_refresh] at he
    split_ifs at he with heq
    · obtain rfl := Option.some.inj he
      exact .inl ⟨heq, u, rfl⟩
    · exact .inr ⟨heq, he⟩
  session s' hne := by rw [rotate_session, if_neg hne]

section Adds
variable {r r' : Redis} {s : UUID} {jti token : String}

theorem Adds.accessOf (h : Adds r r' s jti token) {s' : UUID} {j : String} (hj : AccessOf r' s' j) :
    (j = jti ∧ s' = s) ∨ (j ≠ jti ∧ AccessOf r s' j) := by
  obtain ⟨v, e, he, hv⟩ := hj
  obtain ⟨heq, u, hu⟩ | ⟨hne, hold⟩ := h.access j e he
  · exact .inl ⟨heq, (payload_inj.1 (hv.symm.trans hu)).2⟩
  · exact .inr ⟨hne, v, e, hold, hv⟩

theorem Adds.refreshOf (h : Adds r r' s jti token) {s' : UUID} {k : String} (hk : RefreshOf r' s' k) :
    (k = token ∧ s' = s) ∨ (k ≠ token ∧ RefreshOf r s' k) := by
  obtain ⟨v, e, he, hv⟩ := hk
  obtain ⟨heq, u, hu⟩ | ⟨hne, hold⟩ := h.refresh k e he
  · exact .inl ⟨heq, (payload_inj.1 (hv.symm.trans hu)).2⟩
  · exact .inr ⟨hne, v, e, hold, hv⟩

theorem Adds.access_none (h : Adds r r' s jti token) {j : String} (hne : j ≠ jti)
    (hj : r.access j = none) : r'.access j = none := by
  cases he : r'.access j with
  | none => rfl
  | some e =>
    obtain ⟨heq, -⟩ | ⟨-, hold⟩ := h.access j e he
    · exact absurd heq hne
    · rw [hj] at hold
      simp at hold

theorem Adds.refresh_none (h : Adds r r' s jti token) {k : String} (hne : k ≠ token)
    (hk : r.refresh k = none) : r'.refresh k = none := by
  cases he : r'.refresh k with
  | none => rfl
  | some e =>
    obtain ⟨heq, -⟩ | ⟨-, hold⟩ := h.refresh k e he
    · exact absurd heq hne
    · rw [hk] at hold
      simp at hold

end Adds

theorem rotate_drops {nowIso : String} {s u : UUID} {oldJti oldToken jti token : String}
    {accessTtl refreshTtl : ℕ} {r : Redis} (hold : oldJti ≠ "") (hne : oldJti ≠ jti) (s' : UUID) :
    ¬ AccessOf (rotatePipeline nowIso s u oldJti oldToken jti token accessTtl refreshTtl r) s'
      oldJti := by
  rintro ⟨v, e, he, -⟩
  rw [rotate_access, if_neg hne, if_pos ⟨hold, rfl⟩] at he
  simp at he

/-- One live key of either kind for each session, and the hash names the live `jti`. -/
structure Sole (r : Redis) : Prop where
  formed : Formed r
  access : ∀ s j j', AccessOf r s j → AccessOf r s j' → j = j'
  refresh : ∀ s k k', RefreshOf r s k → RefreshOf r s k' → k = k'
  current : ∀ s j data, AccessOf r s j → r.session.value s = some data → data.currentJti = some j

structure Owns (r : Redis) (t : SessionThread) : Prop where
  fresh : ∀ x, t.pending = some x → r.access x.1 = none ∧ r.refresh x.2 = none
  unopened : ∀ s, t.opening = some s →
    (∀ j, ¬ AccessOf r s j) ∧ (∀ k, ¬ RefreshOf r s k) ∧ r.session s = none
  sole : ∀ s, t.holds = some s → ∀ k, ¬ RefreshOf r s k
  last : ∀ token d s v data, t = .rotating token d s v data →
    ∀ j, AccessOf r s j → data.currentJti = some j
  taken : ∀ k, t.claim = some k → r.refresh k = none ∧ ∀ x, t.pending = some x → x.2 ≠ k

structure Disjoint (t t' : SessionThread) : Prop where
  pending : ∀ x y, t.pending = some x → t'.pending = some y → x.1 ≠ y.1 ∧ x.2 ≠ y.2
  opening : ∀ s, t.opening = some s → t'.opening ≠ some s ∧ t'.holds ≠ some s
  holds : ∀ s, t.holds = some s → t'.holds ≠ some s ∧ t'.opening ≠ some s
  claim : ∀ k, t.claim = some k → t'.claim ≠ some k ∧ ∀ y, t'.pending = some y → y.2 ≠ k
  claimed : ∀ k, t'.claim = some k → ∀ x, t.pending = some x → x.2 ≠ k

theorem Disjoint.symm {t t' : SessionThread} (h : Disjoint t t') : Disjoint t' t where
  pending x y hx hy := ⟨(h.pending y x hy hx).1.symm, (h.pending y x hy hx).2.symm⟩
  opening s hs := ⟨fun ht => (h.opening s ht).1 hs, fun ht => (h.holds s ht).2 hs⟩
  holds s hs := ⟨fun ht => (h.holds s ht).1 hs, fun ht => (h.opening s ht).2 hs⟩
  claim k hk := ⟨fun ht => (h.claim k ht).1 hk, h.claimed k hk⟩
  claimed k hk := (h.claim k hk).2

section Steps
variable {g : GlobalContainer} {r r' : Redis} {s : UUID} {jti token : String} {t t' : SessionThread}

theorem Formed.fewer (h : Formed r) (hr : Fewer r' r) : Formed r' :=
  ⟨fun k e he => h.refresh k e (hr.refresh k e he), hr.access_none h.named⟩

theorem Sole.fewer (h : Sole r) (hr : Fewer r' r) : Sole r' where
  formed := h.formed.fewer hr
  access s j j' hj hj' := h.access s j j' (hr.accessOf hj) (hr.accessOf hj')
  refresh s k k' hk hk' := h.refresh s k k' (hr.refreshOf hk) (hr.refreshOf hk')
  current s j data hj hdata := by
    obtain ⟨e, he, rfl⟩ := Option.map_eq_some_iff.1 hdata
    exact h.current s j e.value (hr.accessOf hj) (ExpiringMap.value_of_entry (hr.session s e he))

theorem Owns.fewer (h : Owns r t) (hr : Fewer r' r) : Owns r' t where
  fresh x hx := ⟨hr.access_none (h.fresh x hx).1, hr.refresh_none (h.fresh x hx).2⟩
  unopened s hs := by
    obtain ⟨ha, hrefresh, hsession⟩ := h.unopened s hs
    exact ⟨fun j hj => ha j (hr.accessOf hj), fun k hk => hrefresh k (hr.refreshOf hk),
      hr.session_none hsession⟩
  sole s hs k hk := h.sole s hs k (hr.refreshOf hk)
  last token d s v data ht j hj := h.last token d s v data ht j (hr.accessOf hj)
  taken k hk := ⟨hr.refresh_none (h.taken k hk).1, (h.taken k hk).2⟩

theorem Owns.adds (h : Owns r t) (hr : Adds r r' s jti token)
    (hpending : ∀ x, t.pending = some x → x.1 ≠ jti ∧ x.2 ≠ token) (hopening : t.opening ≠ some s)
    (hholds : t.holds ≠ some s) (hclaim : ∀ k, t.claim = some k → k ≠ token) : Owns r' t where
  fresh x hx := by
    obtain ⟨hj, hk⟩ := hpending x hx
    exact ⟨hr.access_none hj (h.fresh x hx).1, hr.refresh_none hk (h.fresh x hx).2⟩
  unopened s' hs' := by
    have hne : s' ≠ s := by
      rintro rfl
      exact hopening hs'
    obtain ⟨ha, hrefresh, hsession⟩ := h.unopened s' hs'
    refine ⟨fun j hj => ?_, fun k hk => ?_, by rw [hr.session s' hne, hsession]⟩
    · obtain ⟨-, heq⟩ | ⟨-, hold⟩ := hr.accessOf hj
      · exact hne heq
      · exact ha j hold
    · obtain ⟨-, heq⟩ | ⟨-, hold⟩ := hr.refreshOf hk
      · exact hne heq
      · exact hrefresh k hold
  sole s' hs' k hk := by
    obtain ⟨-, rfl⟩ | ⟨-, hold⟩ := hr.refreshOf hk
    · exact hholds hs'
    · exact h.sole s' hs' k hold
  last token' d s' v data ht j hj := by
    obtain ⟨-, rfl⟩ | ⟨-, hold⟩ := hr.accessOf hj
    · exact absurd (by rw [ht, SessionThread.holds]) hholds
    · exact h.last token' d s' v data ht j hold
  taken k hk := ⟨hr.refresh_none (hclaim k hk) (h.taken k hk).1, (h.taken k hk).2⟩

theorem Idle.owns (h : Idle t) : Owns r t where
  fresh x hx := by simp [h.pending] at hx
  unopened s hs := by simp [h.opening] at hs
  sole s hs := by simp [h.holds] at hs
  last token d s v data ht := by
    have hh := h.holds
    simp [ht, SessionThread.holds] at hh
  taken k hk := by simp [h.claim] at hk

theorem Idle.disjoint (h : Idle t) (t' : SessionThread) : Disjoint t t' where
  pending x y hx := by simp [h.pending] at hx
  opening s hs := by simp [h.opening] at hs
  holds s hs := by simp [h.holds] at hs
  claim k hk := by simp [h.claim] at hk
  claimed k hk x hx := by simp [h.pending] at hx

theorem Sole.adds (h : Sole r) (hr : Adds r r' s jti token) (hjti : jti ≠ "")
    (haccess : ∀ j, AccessOf r' s j → j = jti) (hrefresh : ∀ k, RefreshOf r' s k → k = token)
    (hcurrent : ∀ data, r'.session.value s = some data → data.currentJti = some jti) : Sole r' where
  formed := by
    refine ⟨fun k e he => ?_, hr.access_none hjti.symm h.formed.named⟩
    obtain ⟨-, u, hu⟩ | ⟨-, hold⟩ := hr.refresh k e he
    · exact ⟨u, s, hu⟩
    · exact h.formed.refresh k e hold
  access s' j j' hj hj' := by
    by_cases hs : s' = s
    · subst hs
      rw [haccess j hj, haccess j' hj']
    · obtain ⟨-, heq⟩ | ⟨-, hold⟩ := hr.accessOf hj
      · exact absurd heq hs
      obtain ⟨-, heq⟩ | ⟨-, hold'⟩ := hr.accessOf hj'
      · exact absurd heq hs
      exact h.access s' j j' hold hold'
  refresh s' k k' hk hk' := by
    by_cases hs : s' = s
    · subst hs
      rw [hrefresh k hk, hrefresh k' hk']
    · obtain ⟨-, heq⟩ | ⟨-, hold⟩ := hr.refreshOf hk
      · exact absurd heq hs
      obtain ⟨-, heq⟩ | ⟨-, hold'⟩ := hr.refreshOf hk'
      · exact absurd heq hs
      exact h.refresh s' k k' hold hold'
  current s' j data hj hdata := by
    by_cases hs : s' = s
    · subst hs
      rw [haccess j hj]
      exact hcurrent data hdata
    · obtain ⟨-, heq⟩ | ⟨-, hold⟩ := hr.accessOf hj
      · exact absurd heq hs
      refine h.current s' j data hold ?_
      rwa [ExpiringMap.value, hr.session s' hs] at hdata

theorem token_own (hr : Sole r) (ho : Owns r t) (h : TokenStep g r t r' t') :
    Sole r' ∧ Owns r' t' := by
  cases h with
  | login u device d =>
    obtain ⟨ha, hrefresh, -⟩ := ho.unopened d.sessionId rfl
    have hadds := adds_create (g.isoformat r.now) d.sessionId u d.jti.str d.refreshToken.text device
      g.accessTokenTtlSeconds g.refreshTokenTtlSeconds r
    refine ⟨hr.adds hadds (str_ne_empty _) (fun j hj => ?_) (fun k hk => ?_) (fun data hdata => ?_),
      Idle.owns ⟨rfl, rfl, rfl, rfl⟩⟩
    · obtain ⟨heq, -⟩ | ⟨-, hold⟩ := hadds.accessOf hj
      · exact heq
      · exact absurd hold (ha j)
    · obtain ⟨heq, -⟩ | ⟨-, hold⟩ := hadds.refreshOf hk
      · exact heq
      · exact absurd hold (hrefresh k)
    · rw [ExpiringMap.value, create_session, if_pos rfl] at hdata
      rw [← Option.some.inj hdata]
      rfl
  | claim token d s live =>
    obtain ⟨u, e, he, hv⟩ := live
    have hne : d.refreshToken.text ≠ token := by
      intro heq
      have hnone := (ho.fresh _ rfl).2
      simp only [heq, he] at hnone
      simp at hnone
    have hfewer := fewer_getdel token r
    have hgone : (getdel token r).2.refresh token = none := by
      simp [getdel, ExpiringMap.remove_apply]
    refine ⟨hr.fewer hfewer, ?_⟩
    have hold := ho.fewer hfewer
    refine ⟨hold.fresh, fun _ hs => ?_, ?_, fun _ _ _ _ _ ht => ?_, ?_⟩
    · simp [SessionThread.opening] at hs
    · intro s' hs' k hk
      obtain rfl : s = s' := by simpa [SessionThread.holds] using hs'
      have hkt := hr.refresh s k token (hfewer.refreshOf hk) ⟨u, e, he, hv⟩
      obtain ⟨_, e', he', -⟩ := hk
      rw [hkt, hgone] at he'
      simp at he'
    · simp at ht
    · intro k hk
      obtain rfl : token = k := by simpa [SessionThread.claim] using hk
      refine ⟨hgone, fun x hx => ?_⟩
      obtain rfl := Option.some.inj hx
      exact hne
  | read token d s v data stored =>
    refine ⟨hr, ho.fresh, fun _ hs => ?_, ho.sole, fun token' d' s' v' data' ht j hj => ?_, ho.taken⟩
    · simp [SessionThread.opening] at hs
    · simp only [SessionThread.rotating.injEq] at ht
      obtain ⟨-, -, rfl, -, rfl⟩ := ht
      exact hr.current s j data hj stored
  | rotate token d s v data =>
    have hadds := adds_rotate (g.isoformat r.now) s v (data.currentJti.getD "") token d.jti.str
      d.refreshToken.text g.accessTokenTtlSeconds g.refreshTokenTtlSeconds r
    obtain ⟨hfresh, -⟩ := ho.fresh _ rfl
    obtain ⟨htaken, hown⟩ := ho.taken token rfl
    refine ⟨hr.adds hadds (str_ne_empty _) (fun j hj => ?_) (fun k hk => ?_)
      (fun data' hdata => ?_), ?_⟩
    · obtain ⟨heq, -⟩ | ⟨hne, hold⟩ := hadds.accessOf hj
      · exact heq
      · have hlast := ho.last token d s v data rfl j hold
        have hj0 : j ≠ "" := by
          rintro rfl
          obtain ⟨_, e, he, -⟩ := hold
          rw [hr.formed.named] at he
          simp at he
        rw [hlast, Option.getD_some] at hj
        exact absurd hj (rotate_drops hj0 hne s)
    · obtain ⟨heq, -⟩ | ⟨-, hold⟩ := hadds.refreshOf hk
      · exact heq
      · exact absurd hold (ho.sole s rfl k)
    · rw [ExpiringMap.value, rotate_session, if_pos rfl] at hdata
      rw [← Option.some.inj hdata]
      rfl
    · refine ⟨fun _ hx => ?_, fun _ hs => ?_, fun _ hs => ?_, fun _ _ _ _ _ ht => ?_, fun k hk => ?_⟩
      · simp [SessionThread.pending] at hx
      · simp [SessionThread.opening] at hs
      · simp [SessionThread.holds] at hs
      · simp at ht
      · obtain rfl : token = k := by simpa [SessionThread.claim] using hk
        exact ⟨hadds.refresh_none (hown _ rfl).symm htaken,
          fun _ hx => by simp [SessionThread.pending] at hx⟩
  | found s data stored revokes idle => exact ⟨hr, idle.owns⟩
  | revoke s data revokes idle => exact ⟨hr.fewer (fewer_revoke s data r), idle.owns⟩
  | other fewer idle => exact ⟨hr.fewer fewer, idle.owns⟩

theorem token_others {t₂ : SessionThread} (ho : Owns r t₂) (hd : Disjoint t t₂)
    (h : TokenStep g r t r' t') : Owns r' t₂ ∧ Disjoint t' t₂ := by
  cases h with
  | login u device d =>
    have hadds := adds_create (g.isoformat r.now) d.sessionId u d.jti.str d.refreshToken.text device
      g.accessTokenTtlSeconds g.refreshTokenTtlSeconds r
    obtain ⟨hopening, hholds⟩ := hd.opening d.sessionId rfl
    refine ⟨ho.adds hadds (fun x hx => ?_) hopening hholds (fun k hk => ?_),
      Idle.disjoint ⟨rfl, rfl, rfl, rfl⟩ _⟩
    · exact ⟨(hd.pending _ x rfl hx).1.symm, (hd.pending _ x rfl hx).2.symm⟩
    · exact (hd.claimed k hk _ rfl).symm
  | claim token d s live =>
    obtain ⟨u, e, he, hv⟩ := live
    have habsent : r.refresh token ≠ none := by simp [he]
    refine ⟨ho.fewer (fewer_getdel token r), hd.pending, fun _ hs => ?_, fun s' hs => ?_,
      fun k hk => ?_,
      hd.claimed⟩
    · simp [SessionThread.opening] at hs
    · obtain rfl : s = s' := by simpa [SessionThread.holds] using hs
      exact ⟨fun ht => ho.sole s ht token ⟨u, e, he, hv⟩,
        fun ht => (ho.unopened s ht).2.1 token ⟨u, e, he, hv⟩⟩
    · obtain rfl : token = k := by simpa [SessionThread.claim] using hk
      refine ⟨fun ht => habsent (ho.taken token ht).1, fun y hy heq => ?_⟩
      subst heq
      exact habsent (ho.fresh y hy).2
  | read token d s v data stored =>
    exact ⟨ho, hd.pending, fun _ hs => by simp [SessionThread.opening] at hs, hd.holds, hd.claim,
      hd.claimed⟩
  | rotate token d s v data =>
    have hadds := adds_rotate (g.isoformat r.now) s v (data.currentJti.getD "") token d.jti.str
      d.refreshToken.text g.accessTokenTtlSeconds g.refreshTokenTtlSeconds r
    obtain ⟨hholds, hopening⟩ := hd.holds s rfl
    refine ⟨ho.adds hadds (fun x hx => ?_) hopening hholds (fun k hk => ?_), fun _ _ hx => ?_,
      fun _ hs => ?_, fun _ hs => ?_, hd.claim, fun _ _ _ hx => ?_⟩
    · exact ⟨(hd.pending _ x rfl hx).1.symm, (hd.pending _ x rfl hx).2.symm⟩
    · exact (hd.claimed k hk _ rfl).symm
    · simp [SessionThread.pending] at hx
    · simp [SessionThread.opening] at hs
    · simp [SessionThread.holds] at hs
    · simp [SessionThread.pending] at hx
  | found s data stored revokes idle => exact ⟨ho, idle.disjoint _⟩
  | revoke s data revokes idle => exact ⟨ho.fewer (fewer_revoke s data r), idle.disjoint _⟩
  | other fewer idle => exact ⟨ho.fewer fewer, idle.disjoint _⟩

end Steps

section Pool
variable {ι : Type} [DecidableEq ι] {g : GlobalContainer}

def linear : Assertion Redis SessionThread where
  shared := Sole
  thread := Owns
  pair := Disjoint

omit [DecidableEq ι] in
theorem linear_stable (C : Pool ι Redis SessionThread → Turn ι → Prop) :
    linear.Stable (sessionProgram g ι vanishing) C where
  own v i r t hv _ hstep := token_own hv.1 (hv.2.1 i) (tokenStep_of_step hv.1.formed hstep)
  others v i j r t hv _ hstep hij := by
    obtain ⟨ho, hd⟩ := token_others (hv.2.1 j) (hv.2.2 i j hij) (tokenStep_of_step hv.1.formed hstep)
    exact ⟨ho, hd, hd.symm⟩
  env v r hv henv :=
    ⟨hv.1.fewer (fewer_vanishing henv), fun i => (hv.2.1 i).fewer (fewer_vanishing henv)⟩

theorem sole_blank (now : ℕ) : Sole (Redis.blank now) where
  formed := ⟨fun k e he => by simp [Redis.blank, ExpiringMap.empty] at he, rfl⟩
  access s j j' hj := by
    obtain ⟨u, e, he, -⟩ := hj
    simp [Redis.blank, ExpiringMap.empty] at he
  refresh s k k' hk := by
    obtain ⟨u, e, he, -⟩ := hk
    simp [Redis.blank, ExpiringMap.empty] at he
  current s j data hj := by
    obtain ⟨u, e, he, -⟩ := hj
    simp [Redis.blank, ExpiringMap.empty] at he

theorem start_idle {t : SessionThread} (h : t.start = true) : t.holds = none ∧ t.claim = none := by
  cases t <;> first | exact ⟨rfl, rfl⟩ | simp [SessionThread.start] at h

omit [DecidableEq ι] in
theorem linear_launch {v : Pool ι Redis SessionThread} (hs : Launch v) : linear.Holds v := by
  obtain ⟨now, hb⟩ := hs.blank
  refine ⟨by rw [hb]; exact sole_blank now, fun i => ?_, fun i j hij => ?_⟩
  · obtain ⟨hholds, hclaim⟩ := start_idle (hs.start i)
    rw [hb]
    refine ⟨fun _ _ => ⟨rfl, rfl⟩, fun s _ => ⟨?_, ?_, rfl⟩, fun s hs' => ?_,
      fun token d s u data ht => ?_, fun k hk => ?_⟩
    · rintro j ⟨u, e, he, -⟩
      simp [Redis.blank, ExpiringMap.empty] at he
    · rintro k ⟨u, e, he, -⟩
      simp [Redis.blank, ExpiringMap.empty] at he
    · simp [hholds] at hs'
    · simp [ht, SessionThread.holds] at hholds
    · simp [hclaim] at hk
  · obtain ⟨hholds, hclaim⟩ := start_idle (hs.start i)
    obtain ⟨hholds', hclaim'⟩ := start_idle (hs.start j)
    refine ⟨fun x y hx hy => hs.draws i j hij x y ?_ ?_, fun s ht => ⟨hs.sessions i j hij s ht, ?_⟩,
      fun s ht => ?_, fun k hk => ?_, fun k hk => ?_⟩
    · simp [SessionThread.draws, hx]
    · simp [SessionThread.draws, hy]
    · simp [hholds']
    · simp [hholds] at ht
    · simp [hclaim] at hk
    · simp [hclaim'] at hk

/-- The ways a session has to be renewed: live refresh keys, and runs that have taken one. -/
def renewals (v : Pool ι Redis SessionThread) (s : UUID) : Set (String ⊕ ι) :=
  {x | x.elim (fun k => RefreshOf v.shared s k) (fun i => (v.thread i).holds = some s)}

/-- In every reachable state a session has at most one way to be renewed and at most one live
access key; no refresh token is exchanged twice. -/
theorem refresh_linear {v : Pool ι Redis SessionThread}
    (h : Reachable (sessionPool g ι vanishing) v) :
    (∀ s, (renewals v s).Subsingleton) ∧ (∀ s, {j | AccessOf v.shared s j}.Subsingleton) ∧
      ∀ token, {i | ∃ d s, v.thread i = .refreshed token d s}.Subsingleton := by
  obtain ⟨c, p, hc, hrun⟩ := h
  obtain ⟨hsole, howns, hdisjoint⟩ := (linear_stable _).runs hrun (linear_launch hc)
  refine ⟨fun s x hx y hy => ?_, fun s j hj j' hj' => hsole.access s j j' hj hj',
    fun token i hi j hj => ?_⟩
  · cases x with
    | inl k =>
      cases y with
      | inl k' => rw [hsole.refresh s k k' hx hy]
      | inr j => exact absurd hx ((howns j).sole s hy k)
    | inr i =>
      cases y with
      | inl k => exact absurd hy ((howns i).sole s hx k)
      | inr j =>
        by_contra hne
        have hij : i ≠ j := fun he => hne (by rw [he])
        exact ((hdisjoint i j hij).holds s hx).1 hy
  · obtain ⟨d, s, hi⟩ := hi
    obtain ⟨d', s', hj⟩ := hj
    by_contra hij
    exact ((hdisjoint i j hij).claim token (by rw [hi, SessionThread.claim])).1
      (by rw [hj, SessionThread.claim])

end Pool

section Sample
open SampleContainer

def rawC : UrlToken := ⟨"CCCCCCCCCCCCCCCCCCCCCCCCCCCCCCCCCCCCCCCCCCC", by decide⟩

def twoCallers : Pool (Fin 3) Redis SessionThread where
  shared := Redis.blank startTime
  thread := ![.login alice none loginDraws, .refresh rawA.text ⟨jtiTwo, rawB, eventOne⟩,
    .refresh rawA.text ⟨nextRow, rawC, eventOne⟩]

theorem twoCallers_launch : Launch twoCallers :=
  .of_checks rfl (by decide) (by decide +kernel) (by decide +kernel)

/-- The second caller comes between the GETDEL of the first and its rotation. -/
def overtaken : List (Move (Fin 3) Redis) := [.run 0, .run 1, .run 2, .run 1, .run 1]

def exchanged : SessionThread → Option (String × UUID)
  | .refreshed token _ s => some (token, s)
  | _ => none

theorem exchanged_some {t : SessionThread} {token : String} {s : UUID}
    (h : exchanged t = some (token, s)) : ∃ d, t = .refreshed token d s := by
  cases t <;> cases h
  exact ⟨_, rfl⟩

theorem refresh_linear_twoCallers : ∃ v, Reachable (sessionPool sample (Fin 3) vanishing) v ∧
    (∀ i, (v.thread i).finished = true) ∧
    ∀ i, (∃ d s, v.thread i = .refreshed rawA.text d s) ↔ i = 1 := by
  have hend : (play (fun _ r t => SessionThread.step sample r t) overtaken twoCallers).map
      (fun v => (exchanged (v.thread 1), decide (∀ i, (v.thread i).finished = true))) =
      some (some (rawA.text, sessionOne), true) := by
    decide +kernel
  obtain ⟨v, hv, hend⟩ := Option.map_eq_some_iff.1 hend
  rw [Prod.mk.injEq, decide_eq_true_iff] at hend
  obtain ⟨hexchanged, hfinished⟩ := hend
  have hrun : ∃ p, Runs (sessionPool sample (Fin 3) vanishing) twoCallers p v :=
    play_runs (P := sessionProgram sample (Fin 3) vanishing) (fun _ _ _ _ _ h => h)
      (by simp [overtaken]) hv
  obtain ⟨p, hp⟩ := hrun
  have hreach : Reachable (sessionPool sample (Fin 3) vanishing) v :=
    ⟨_, p, twoCallers_launch, hp⟩
  obtain ⟨-, -, honce⟩ := refresh_linear hreach
  have hone : ∃ d s, v.thread 1 = .refreshed rawA.text d s :=
    (exchanged_some hexchanged).imp fun _ h => ⟨_, h⟩
  refine ⟨v, hreach, hfinished, fun i => ⟨fun hi => honce _ hi hone, ?_⟩⟩
  rintro rfl
  exact hone

end Sample

end AuthService.RefreshLinearity
