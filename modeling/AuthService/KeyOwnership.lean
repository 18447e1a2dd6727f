import AuthService.SessionThreads

set_option autoImplicit false

/-! The store without the keys of one user, and which commands can tell: those of the
user change only what is hidden, those of others do not see what is hidden. -/
namespace AuthService.KeyOwnership
open Uuids ExpiringMaps RedisSessions RequestPorts CommandHandlers SessionThreads

noncomputable def hide (P : Key → Prop) (r : Redis) : Redis :=
  ⟨r.now, r.access.hide (fun j => P (.access j)), r.refresh.hide (fun k => P (.refresh k)),
    r.session.hide (fun s => P (.session s)), r.sessions.hide (fun u => P (.sessions u))⟩

section Hide
variable {P : Key → Prop} {r : Redis}

@[simp] theorem hide_now : (hide P r).now = r.now := rfl

theorem hide_blank (now : ℕ) : hide P (Redis.blank now) = Redis.blank now := by
  simp only [hide, Redis.blank, ExpiringMap.hide_empty]

theorem hide_advance (d : ℕ) : hide P (r.advance d) = (hide P r).advance d := by
  simp only [hide, Redis.advance, ExpiringMap.hide_purge]

theorem hide_session_value {s : UUID} (h : ¬ P (.session s)) :
    (hide P r).session.value s = r.session.value s :=
  ExpiringMap.hide_value (P := fun s => P (.session s)) h _

theorem hide_sessions_value {u : UUID} (h : ¬ P (.sessions u)) :
    (hide P r).sessions.value u = r.sessions.value u :=
  ExpiringMap.hide_value (P := fun u => P (.sessions u)) h _

theorem hide_access_eq_some {j : String} {e : Entry String} :
    (hide P r).access j = some e ↔ ¬ P (.access j) ∧ r.access j = some e :=
  ExpiringMap.hide_eq_some (P := fun j => P (.access j))

theorem hide_refresh_eq_some {k : String} {e : Entry String} :
    (hide P r).refresh k = some e ↔ ¬ P (.refresh k) ∧ r.refresh k = some e :=
  ExpiringMap.hide_eq_some (P := fun k => P (.refresh k))

theorem hide_removeUnlessEmpty {Q : String → Prop} (k : String) (m : ExpiringMap String String) :
    (removeUnlessEmpty k m).hide Q = removeUnlessEmpty k (m.hide Q) := by
  unfold removeUnlessEmpty
  split_ifs
  · rfl
  · exact ExpiringMap.hide_remove k m

theorem hide_removeUnlessEmpty_of {Q : String → Prop} {k : String} (h : k ≠ "" → Q k)
    (m : ExpiringMap String String) : (removeUnlessEmpty k m).hide Q = m.hide Q := by
  unfold removeUnlessEmpty
  split_ifs with hk
  · rfl
  · exact ExpiringMap.hide_update_of _ _ (h hk)

theorem hide_srem {Q : UUID → Prop} {u : UUID} (h : ¬ Q u) (s : UUID)
    (m : ExpiringMap UUID (List UUID)) : (srem u s m).hide Q = srem u s (m.hide Q) := by
  unfold srem
  rw [ExpiringMap.hide_of_not h]
  cases m u with
  | none => rfl
  | some e =>
    simp only
    split_ifs
    · exact ExpiringMap.hide_remove u m
    · exact ExpiringMap.hide_modify h

theorem hide_srem_of {Q : UUID → Prop} {u : UUID} (h : Q u) (s : UUID)
    (m : ExpiringMap UUID (List UUID)) : (srem u s m).hide Q = m.hide Q := by
  unfold srem
  cases m u with
  | none => rfl
  | some e =>
    simp only
    split_ifs
    · exact ExpiringMap.hide_update_of _ _ h
    · exact ExpiringMap.hide_update_of _ _ h

theorem hide_getdel (token : String) : hide P (getdel token r).2 = (getdel token (hide P r)).2 := by
  simp only [getdel, hide, ExpiringMap.hide_remove]

theorem hide_getdel_of {token : String} (h : r.refresh token ≠ none → P (.refresh token)) :
    hide P (getdel token r).2 = hide P r := by
  by_cases hr : r.refresh token = none
  · rw [getdel_absent (ExpiringMap.value_eq_none.2 hr)]
  · simp only [getdel, hide]
    rw [ExpiringMap.remove, ExpiringMap.hide_update_of (P := fun k => P (.refresh k)) _ _ (h hr)]

section Pipelines
variable {nowIso : String} {sid uid : UUID} {jti token oldJti oldToken : String}
  {device : Option String} {data : SessionHash} {accessTtl refreshTtl : ℕ}

theorem hide_create (hj : ¬ P (.access jti)) (ht : ¬ P (.refresh token)) (hs : ¬ P (.session sid))
    (hu : ¬ P (.sessions uid)) :
    hide P (createPipeline nowIso sid uid jti token device accessTtl refreshTtl r) =
      createPipeline nowIso sid uid jti token device accessTtl refreshTtl (hide P r) := by
  simp only [hide, createPipeline]
  rw [ExpiringMap.hide_put (P := fun j => P (.access j)) hj,
    ExpiringMap.hide_put (P := fun k => P (.refresh k)) ht,
    ExpiringMap.hide_expire (P := fun s => P (.session s)) hs,
    ExpiringMap.hide_modify (P := fun s => P (.session s)) hs,
    ExpiringMap.hide_expire (P := fun u => P (.sessions u)) hu,
    ExpiringMap.hide_modify (P := fun u => P (.sessions u)) hu]

theorem hide_create_of (hj : P (.access jti)) (ht : P (.refresh token)) (hs : P (.session sid))
    (hu : P (.sessions uid)) :
    hide P (createPipeline nowIso sid uid jti token device accessTtl refreshTtl r) = hide P r := by
  simp only [hide, createPipeline, ExpiringMap.put, ExpiringMap.expire, ExpiringMap.modify]
  rw [ExpiringMap.hide_update_of (P := fun j => P (.access j)) _ _ hj,
    ExpiringMap.hide_update_of (P := fun k => P (.refresh k)) _ _ ht,
    ExpiringMap.hide_update_of (P := fun s => P (.session s)) _ _ hs,
    ExpiringMap.hide_update_of (P := fun s => P (.session s)) _ _ hs,
    ExpiringMap.hide_update_of (P := fun u => P (.sessions u)) _ _ hu,
    ExpiringMap.hide_update_of (P := fun u => P (.sessions u)) _ _ hu]

theorem hide_rotate (hj : ¬ P (.access jti)) (ht : ¬ P (.refresh token)) (hs : ¬ P (.session sid))
    (hu : ¬ P (.sessions uid)) :
    hide P (rotatePipeline nowIso sid uid oldJti oldToken jti token accessTtl refreshTtl r) =
      rotatePipeline nowIso sid uid oldJti oldToken jti token accessTtl refreshTtl (hide P r) := by
  simp only [hide, rotatePipeline]
  rw [ExpiringMap.hide_put (P := fun j => P (.access j)) hj, hide_removeUnlessEmpty,
    ExpiringMap.hide_put (P := fun k => P (.refresh k)) ht, ExpiringMap.hide_remove,
    ExpiringMap.hide_expire (P := fun s => P (.session s)) hs,
    ExpiringMap.hide_modify (P := fun s => P (.session s)) hs,
    ExpiringMap.hide_expire (P := fun u => P (.sessions u)) hu]

theorem hide_rotate_of (hj : P (.access jti)) (ht : P (.refresh token)) (hs : P (.session sid))
    (hu : P (.sessions uid)) (hoj : oldJti ≠ "" → P (.access oldJti)) (hot : P (.refresh oldToken)) :
    hide P (rotatePipeline nowIso sid uid oldJti oldToken jti token accessTtl refreshTtl r) =
      hide P r := by
  simp only [hide, rotatePipeline, ExpiringMap.put, ExpiringMap.expire, ExpiringMap.modify,
    ExpiringMap.remove]
  rw [ExpiringMap.hide_update_of (P := fun j => P (.access j)) _ _ hj,
    hide_removeUnlessEmpty_of (Q := fun j => P (.access j)) hoj,
    ExpiringMap.hide_update_of (P := fun k => P (.refresh k)) _ _ ht,
    ExpiringMap.hide_update_of (P := fun k => P (.refresh k)) _ _ hot,
    ExpiringMap.hide_update_of (P := fun s => P (.session s)) _ _ hs,
    ExpiringMap.hide_update_of (P := fun s => P (.session s)) _ _ hs,
    ExpiringMap.hide_update_of (P := fun u => P (.sessions u)) _ _ hu]

theorem hide_revoke (hu : ∀ u, data.userId = some u → ¬ P (.sessions u)) :
    hide P (revokePipeline sid data r) = revokePipeline sid data (hide P r) := by
  simp only [hide, revokePipeline]
  rw [hide_removeUnlessEmpty, hide_removeUnlessEmpty, ExpiringMap.hide_remove]
  cases h : data.userId with
  | none => rfl
  | some u =>
    simp only
    rw [hide_srem (Q := fun u => P (.sessions u)) (hu u h)]

theorem hide_revoke_of (hj : data.currentJti.getD "" ≠ "" → P (.access (data.currentJti.getD "")))
    (ht : data.currentRefresh.getD "" ≠ "" → P (.refresh (data.currentRefresh.getD "")))
    (hs : P (.session sid)) (hu : ∀ u, data.userId = some u → P (.sessions u)) :
    hide P (revokePipeline sid data r) = hide P r := by
  simp only [hide, revokePipeline, ExpiringMap.remove]
  rw [hide_removeUnlessEmpty_of (Q := fun j => P (.access j)) hj,
    hide_removeUnlessEmpty_of (Q := fun k => P (.refresh k)) ht,
    ExpiringMap.hide_update_of (P := fun s => P (.session s)) _ _ hs]
  cases h : data.userId with
  | none => rfl
  | some u =>
    simp only
    rw [hide_srem_of (Q := fun u => P (.sessions u)) (hu u h)]

end Pipelines

end Hide

/-- Every key belongs to one user at most, and the index of a user to that user. -/
structure Ownership where
  owns : UUID → Key → Prop
  unique : ∀ {u v : UUID} {k : Key}, owns u k → owns v k → u = v
  index : ∀ {u v : UUID}, owns u (.sessions v) ↔ v = u

section Ownership
variable (O : Ownership) (u : UUID)

/-- What a session hash of the user may say. A half-written one has no user. -/
structure HashOf (data : SessionHash) : Prop where
  user : ∀ v, data.userId = some v → v = u
  jti : ∀ j, data.currentJti = some j → O.owns u (.access j)
  token : ∀ k, data.currentRefresh = some k → O.owns u (.refresh k)

/-- Every key of the store belongs to a user, and what it holds names that user's keys. -/
structure StoreOf (r : Redis) : Prop where
  access : ∀ j e, r.access j = some e → ∃ u s, O.owns u (.access j) ∧ O.owns u (.session s) ∧
    e.value = payload u s
  refresh : ∀ k e, r.refresh k = some e → ∃ u s, O.owns u (.refresh k) ∧ O.owns u (.session s) ∧
    e.value = payload u s
  session : ∀ s e, r.session s = some e → ∃ u, O.owns u (.session s) ∧ HashOf O u e.value
  sessions : ∀ u e, r.sessions u = some e → ∀ s ∈ e.value, O.owns u (.session s)

def DrawsOf (jti : UUID) (token : UrlToken) : Prop :=
  O.owns u (.access jti.str) ∧ O.owns u (.refresh token.text)

/-- What a thread of the user carries belongs to the user. -/
def ThreadOf : SessionThread → Prop
  | .login v _ d => v = u ∧ O.owns u (.session d.sessionId) ∧ DrawsOf O u d.jti d.refreshToken
  | .loggedIn d => O.owns u (.session d.sessionId) ∧ DrawsOf O u d.jti d.refreshToken
  | .refresh _ d => DrawsOf O u d.jti d.refreshToken
  | .claimed token d s => O.owns u (.refresh token) ∧ O.owns u (.session s) ∧
      DrawsOf O u d.jti d.refreshToken
  | .rotating token d s v data => O.owns u (.refresh token) ∧ O.owns u (.session s) ∧
      DrawsOf O u d.jti d.refreshToken ∧ v = u ∧ HashOf O u data
  | .refreshed _ d s => O.owns u (.session s) ∧ DrawsOf O u d.jti d.refreshToken
  | .bearer v _ _ => v = u
  | .ownership v _ => v = u
  | .revokeHandler s => O.owns u (.session s)
  | .revoke s => O.owns u (.session s)
  | .revoking s data => O.owns u (.session s) ∧ HashOf O u data
  | .revokeAll v => v = u
  | .clearing v ids => v = u ∧ ∀ s ∈ ids, O.owns u (.session s)
  | .revokeEach _ ids => ∀ s ∈ ids, O.owns u (.session s)
  | .revokingEach _ s data rest => O.owns u (.session s) ∧ HashOf O u data ∧
      ∀ s ∈ rest, O.owns u (.session s)
  | .refreshFailed => True
  | .declined => True
  | .returned _ => True

def Presents (r : Redis) : SessionThread → Prop
  | .refresh token _ => r.refresh token ≠ none → O.owns u (.refresh token)
  | .bearer _ jti _ => r.access jti ≠ none → O.owns u (.access jti)
  | _ => True

end Ownership

section Commands
variable {O : Ownership} {u : UUID} {r r' : Redis} {g : GlobalContainer} {t t' : SessionThread}

theorem StoreOf.hashOf (h : StoreOf O r) {s : UUID} (hs : O.owns u (.session s)) {data : SessionHash}
    (hv : r.session.value s = some data) : HashOf O u data := by
  obtain ⟨e, he, rfl⟩ := Option.map_eq_some_iff.1 hv
  obtain ⟨v, hv, hdata⟩ := h.session s e he
  exact O.unique hv hs ▸ hdata

theorem StoreOf.mono (h : StoreOf O r) (ha : ∀ j e, r'.access j = some e → r.access j = some e)
    (hr : ∀ k e, r'.refresh k = some e → r.refresh k = some e)
    (hs : ∀ s e, r'.session s = some e → r.session s = some e)
    (hi : ∀ u e, r'.sessions u = some e → ∃ e', r.sessions u = some e' ∧ e.value ⊆ e'.value) :
    StoreOf O r' := by
  refine ⟨fun j e he => h.access j e (ha j e he), fun k e he => h.refresh k e (hr k e he),
    fun s e he => h.session s e (hs s e he), fun u e he s hs => ?_⟩
  obtain ⟨e', he', hsub⟩ := hi u e he
  exact h.sessions u e' he' s (hsub hs)

theorem StoreOf.create (h : StoreOf O r) {nowIso : String} {sid : UUID} {jti token : String}
    {device : Option String} {accessTtl refreshTtl : ℕ} (hs : O.owns u (.session sid))
    (hj : O.owns u (.access jti)) (ht : O.owns u (.refresh token)) :
    StoreOf O (createPipeline nowIso sid u jti token device accessTtl refreshTtl r) := by
  constructor
  · intro j e he
    rw [create_access] at he
    split_ifs at he with hj'
    · obtain rfl := Option.some.inj he
      exact ⟨u, sid, hj' ▸ hj, hs, rfl⟩
    · exact h.access j e he
  · intro k e he
    rw [create_refresh] at he
    split_ifs at he with hk
    · obtain rfl := Option.some.inj he
      exact ⟨u, sid, hk ▸ ht, hs, rfl⟩
    · exact h.refresh k e he
  · intro s e he
    rw [create_session] at he
    split_ifs at he with hs'
    · obtain rfl := Option.some.inj he
      refine ⟨u, hs' ▸ hs, ⟨?_, ?_, ?_⟩⟩
      · exact fun v hv => (Option.some.inj hv).symm
      · exact fun j hv => Option.some.inj hv ▸ hj
      · exact fun k hv => Option.some.inj hv ▸ ht
    · exact h.session s e he
  · intro v e he s hmem
    obtain ⟨rfl, rfl⟩ | ⟨old, hold, hmem⟩ := create_member (ExpiringMap.value_of_entry he) hmem
    · exact hs
    · obtain ⟨e', he', rfl⟩ := Option.map_eq_some_iff.1 hold
      exact h.sessions v e' he' s hmem

theorem StoreOf.rotate (h : StoreOf O r) {nowIso : String} {sid : UUID}
    {jti token oldJti oldToken : String} {accessTtl refreshTtl : ℕ} (hs : O.owns u (.session sid))
    (hj : O.owns u (.access jti)) (ht : O.owns u (.refresh token)) :
    StoreOf O (rotatePipeline nowIso sid u oldJti oldToken jti token accessTtl refreshTtl r) := by
  constructor
  · intro j e he
    rw [rotate_access] at he
    split_ifs at he with hj'
    · obtain rfl := Option.some.inj he
      exact ⟨u, sid, hj' ▸ hj, hs, rfl⟩
    · exact h.access j e he
  · intro k e he
    rw [rotate_refresh] at he
    split_ifs at he with hk
    · obtain rfl := Option.some.inj he
      exact ⟨u, sid, hk ▸ ht, hs, rfl⟩
    · exact h.refresh k e he
  · intro s e he
    rw [rotate_session] at he
    split_ifs at he with hs'
    · obtain rfl := Option.some.inj he
      refine ⟨u, hs' ▸ hs, ⟨?_, ?_, ?_⟩⟩
      · intro v hv
        cases hd : r.session.value sid with
        | none => simp [hd, SessionHash.rotated, SessionHash.blank] at hv
        | some data => exact (h.hashOf hs hd).user v (by simpa [hd, SessionHash.rotated] using hv)
      · exact fun j hv => Option.some.inj hv ▸ hj
      · exact fun k hv => Option.some.inj hv ▸ ht
    · exact h.session s e he
  · intro v e he s hmem
    rw [rotate_sessions] at he
    split_ifs at he with hv
    · obtain ⟨old, hold, rfl⟩ := Option.map_eq_some_iff.1 he
      exact h.sessions v old hold s hmem
    · exact h.sessions v e he s hmem

theorem StoreOf.revoke (h : StoreOf O r) (sid : UUID) (data : SessionHash) :
    StoreOf O (revokePipeline sid data r) := by
  refine h.mono (fun j e => removeUnlessEmpty_le) (fun k e => removeUnlessEmpty_le) ?_ ?_
  · intro s e he
    rw [revoke_session] at he
    split_ifs at he
    exact he
  · intro v e he
    cases hu : data.userId with
    | none =>
      simp only [revokePipeline, hu] at he
      exact ⟨e, he, List.Subset.refl _⟩
    | some w =>
      simp only [revokePipeline, hu] at he
      obtain ⟨ids, hids, hsub⟩ := srem_subset (ExpiringMap.value_of_entry he)
      obtain ⟨e', he', rfl⟩ := Option.map_eq_some_iff.1 hids
      exact ⟨e', he', hsub⟩

theorem StoreOf.getdel (h : StoreOf O r) (token : String) : StoreOf O (getdel token r).2 := by
  refine h.mono (fun j e he => he) ?_ (fun s e he => he) (fun v e he => ⟨e, he, List.Subset.refl _⟩)
  intro k e he
  simp only [RedisSessions.getdel, ExpiringMap.remove_apply] at he
  split_ifs at he
  exact he

theorem StoreOf.clear (h : StoreOf O r) (v : UUID) :
    StoreOf O { r with sessions := r.sessions.remove v } := by
  refine h.mono (fun j e he => he) (fun k e he => he) (fun s e he => he) ?_
  intro w e he
  simp only [ExpiringMap.remove_apply] at he
  split_ifs at he
  exact ⟨e, he, List.Subset.refl _⟩

theorem StoreOf.advance (h : StoreOf O r) (d : ℕ) : StoreOf O (r.advance d) :=
  h.mono (fun _ _ he => (advance_access.1 he).1) (fun _ _ he => (advance_refresh.1 he).1)
    (fun _ _ he => (advance_session.1 he).1)
    (fun _ e he => ⟨e, (advance_sessions.1 he).1, List.Subset.refl _⟩)

theorem threadOf_loop {gone ids : List UUID} (h : ∀ s ∈ ids, O.owns u (.session s)) :
    ThreadOf O u (SessionThread.loop gone ids) := by
  cases ids with
  | nil => trivial
  | cons sid rest => exact h

theorem threadOf_getdel (h : StoreOf O r) {token : String} {d : RefreshDraws}
    (hd : DrawsOf O u d.jti d.refreshToken) (hp : Presents O u r (.refresh token d)) :
    ThreadOf O u (SessionThread.afterGetdel token d (r.refresh.value token)) := by
  cases hv : r.refresh token with
  | none =>
    rw [ExpiringMap.value_eq_none.2 hv]
    trivial
  | some e =>
    have hown : O.owns u (.refresh token) := hp (by simp [hv])
    obtain ⟨v, s, hk, hs, hval⟩ := h.refresh token e hv
    obtain rfl := O.unique hown hk
    rw [ExpiringMap.value_of_entry hv, hval]
    simp only [SessionThread.afterGetdel, Option.bind_some, splitColon_payload, parse_str]
    exact ⟨hown, hs, hd⟩

/-- A command of a user's thread reads what is the user's and writes what is the user's. -/
theorem owned_step (h : StoreOf O r) (ht : ThreadOf O u t) (hp : Presents O u r t)
    (hstep : t.step g r = some (r', t')) : StoreOf O r' ∧ ThreadOf O u t' := by
  cases t with
  | login v device d =>
    cases hstep
    obtain ⟨rfl, hs, hj, hk⟩ := ht
    exact ⟨h.create hs hj hk, hs, hj, hk⟩
  | refresh token d =>
    cases hstep
    exact ⟨h.getdel token, threadOf_getdel h ht hp⟩
  | claimed token d s =>
    cases hstep
    obtain ⟨hk, hs, hd⟩ := ht
    refine ⟨h, ?_⟩
    cases hv : r.session.value s with
    | none => trivial
    | some data =>
      have hdata := h.hashOf hs hv
      cases hu : data.userId with
      | none =>
        simp only [SessionThread.afterHgetall, hu]
        trivial
      | some v =>
        simp only [SessionThread.afterHgetall, hu]
        exact ⟨hk, hs, hd, hdata.user v hu, hdata⟩
  | rotating token d s v data =>
    cases hstep
    obtain ⟨-, hs, ⟨hj, hk⟩, rfl, -⟩ := ht
    exact ⟨h.rotate hs hj hk, hs, hj, hk⟩
  | bearer v jti s =>
    cases hstep
    refine ⟨h, ?_⟩
    unfold SessionThread.afterExists
    split_ifs
    · exact ht
    · trivial
  | ownership v s =>
    cases hstep
    refine ⟨h, ?_⟩
    cases hv : r.session.value s with
    | none => trivial
    | some data =>
      obtain ⟨e, he, rfl⟩ := Option.map_eq_some_iff.1 hv
      obtain ⟨w, hs, hdata⟩ := h.session s e he
      simp only [SessionThread.afterOwnership]
      split_ifs with hu
      · obtain rfl : v = w := hdata.user v hu
        exact ht ▸ hs
      · trivial
  | revokeHandler s =>
    cases hstep
    exact ⟨h, ht⟩
  | revoke s =>
    cases hstep
    refine ⟨h, ?_⟩
    cases hv : r.session.value s with
    | none => trivial
    | some data => exact ⟨ht, h.hashOf ht hv⟩
  | revoking s data =>
    cases hstep
    exact ⟨h.revoke s data, trivial⟩
  | revokeAll v =>
    cases hstep
    obtain rfl : v = u := ht
    refine ⟨h, rfl, fun s hs => ?_⟩
    cases hv : r.sessions v with
    | none => simp [ExpiringMap.value, hv] at hs
    | some e =>
      rw [ExpiringMap.value_of_entry hv] at hs
      exact h.sessions v e hv s hs
  | clearing v ids =>
    cases hstep
    exact ⟨h.clear v, threadOf_loop ht.2⟩
  | revokeEach gone ids =>
    cases ids with
    | nil => simp [SessionThread.step] at hstep
    | cons s rest =>
      cases hstep
      refine ⟨h, ?_⟩
      have hrest : ∀ x ∈ rest, O.owns u (.session x) := fun x hx => ht x (by simp [hx])
      cases hv : r.session.value s with
      | none => exact threadOf_loop hrest
      | some data => exact ⟨ht s (by simp), h.hashOf (ht s (by simp)) hv, hrest⟩
  | revokingEach gone s data rest =>
    cases hstep
    exact ⟨h.revoke s data, threadOf_loop ht.2.2⟩
  | _ => simp [SessionThread.step] at hstep

theorem HashOf.jti_owned {data : SessionHash} (h : HashOf O u data)
    (hne : data.currentJti.getD "" ≠ "") : O.owns u (.access (data.currentJti.getD "")) := by
  cases hj : data.currentJti with
  | none => simp [hj] at hne
  | some j => exact h.jti j hj

theorem HashOf.token_owned {data : SessionHash} (h : HashOf O u data)
    (hne : data.currentRefresh.getD "" ≠ "") :
    O.owns u (.refresh (data.currentRefresh.getD "")) := by
  cases hk : data.currentRefresh with
  | none => simp [hk] at hne
  | some k => exact h.token k hk

theorem hide_revoke_owned {data : SessionHash} {s : UUID} (hs : O.owns u (.session s))
    (hdata : HashOf O u data) : hide (O.owns u) (revokePipeline s data r) = hide (O.owns u) r :=
  hide_revoke_of hdata.jti_owned hdata.token_owned hs
    (fun v hv => O.index.2 (hdata.user v hv))

theorem silent_step (ht : ThreadOf O u t) (hp : Presents O u r t)
    (hstep : t.step g r = some (r', t')) : hide (O.owns u) r' = hide (O.owns u) r := by
  cases t with
  | login v device d =>
    cases hstep
    obtain ⟨rfl, hs, hj, hk⟩ := ht
    exact hide_create_of hj hk hs (O.index.2 rfl)
  | refresh token d =>
    cases hstep
    exact hide_getdel_of hp
  | rotating token d s v data =>
    cases hstep
    obtain ⟨hold, hs, ⟨hj, hk⟩, rfl, hdata⟩ := ht
    exact hide_rotate_of hj hk hs (O.index.2 rfl) hdata.jti_owned hold
  | revoking s data =>
    cases hstep
    exact hide_revoke_owned ht.1 ht.2
  | clearing v ids =>
    cases hstep
    simp only [hide, ExpiringMap.remove]
    rw [ExpiringMap.hide_update_of (P := fun v => O.owns u (.sessions v)) _ _ (O.index.2 ht.1)]
  | revokingEach gone s data rest =>
    cases hstep
    exact hide_revoke_owned ht.1 ht.2.1
  | revokeEach gone ids =>
    cases ids with
    | nil => simp [SessionThread.step] at hstep
    | cons s rest =>
      cases hstep
      rfl
  | claimed token d s => cases hstep; rfl
  | bearer v jti s => cases hstep; rfl
  | ownership v s => cases hstep; rfl
  | revokeHandler s => cases hstep; rfl
  | revoke s => cases hstep; rfl
  | revokeAll v => cases hstep; rfl
  | _ => simp [SessionThread.step] at hstep

theorem added_keys (hstep : t.step g r = some (r', t')) :
    (∀ j e, r'.access j = some e → r.access j = some e ∨ ∃ s k, t'.issued = some (s, j, k)) ∧
    ∀ k e, r'.refresh k = some e → r.refresh k = some e ∨ ∃ s j, t'.issued = some (s, j, k) := by
  cases t with
  | login v device d =>
    cases hstep
    refine ⟨fun j e he => ?_, fun k e he => ?_⟩
    · rw [create_access] at he
      split_ifs at he with hj
      · exact .inr ⟨_, _, by rw [hj]; rfl⟩
      · exact .inl he
    · rw [create_refresh] at he
      split_ifs at he with hk
      · exact .inr ⟨_, _, by rw [hk]; rfl⟩
      · exact .inl he
  | refresh token d =>
    cases hstep
    refine ⟨fun j e he => .inl he, fun k e he => .inl ?_⟩
    simp only [getdel, ExpiringMap.remove_apply] at he
    split_ifs at he
    exact he
  | rotating token d s v data =>
    cases hstep
    refine ⟨fun j e he => ?_, fun k e he => ?_⟩
    · rw [rotate_access] at he
      split_ifs at he with hj
      · exact .inr ⟨_, _, by rw [hj]; rfl⟩
      · exact .inl he
    · rw [rotate_refresh] at he
      split_ifs at he with hk
      · exact .inr ⟨_, _, by rw [hk]; rfl⟩
      · exact .inl he
  | revoking s data =>
    cases hstep
    exact ⟨fun _ _ he => .inl (removeUnlessEmpty_le he), fun _ _ he => .inl (removeUnlessEmpty_le he)⟩
  | revokingEach gone s data rest =>
    cases hstep
    exact ⟨fun _ _ he => .inl (removeUnlessEmpty_le he), fun _ _ he => .inl (removeUnlessEmpty_le he)⟩
  | revokeEach gone ids =>
    cases ids with
    | nil => simp [SessionThread.step] at hstep
    | cons s rest =>
      cases hstep
      exact ⟨fun _ _ => .inl, fun _ _ => .inl⟩
  | claimed token d s => cases hstep; exact ⟨fun _ _ => .inl, fun _ _ => .inl⟩
  | bearer v jti s => cases hstep; exact ⟨fun _ _ => .inl, fun _ _ => .inl⟩
  | ownership v s => cases hstep; exact ⟨fun _ _ => .inl, fun _ _ => .inl⟩
  | revokeHandler s => cases hstep; exact ⟨fun _ _ => .inl, fun _ _ => .inl⟩
  | revoke s => cases hstep; exact ⟨fun _ _ => .inl, fun _ _ => .inl⟩
  | revokeAll v => cases hstep; exact ⟨fun _ _ => .inl, fun _ _ => .inl⟩
  | clearing v ids => cases hstep; exact ⟨fun _ _ => .inl, fun _ _ => .inl⟩
  | _ => simp [SessionThread.step] at hstep

theorem issued_none_of_step (hstep : t.step g r = some (r', t')) : t.issued = none := by
  cases t with
  | loggedIn d => simp [SessionThread.step] at hstep
  | refreshed token d s => simp [SessionThread.step] at hstep
  | _ => rfl

section Visible
variable {A : UUID} (hu : u ≠ A)
include hu

theorem not_owned {k : Key} (h : O.owns u k) : ¬ O.owns A k := fun hA => hu (O.unique h hA)

theorem hide_revoke_visible {data : SessionHash} {s : UUID} (hdata : HashOf O u data) :
    hide (O.owns A) (revokePipeline s data r) = revokePipeline s data (hide (O.owns A) r) :=
  hide_revoke fun v hv hA => hu ((hdata.user v hv).symm.trans (O.index.1 hA))

theorem refresh_visible {token : String} {d : RefreshDraws} (hp : Presents O u r (.refresh token d)) :
    (hide (O.owns A) r).refresh.value token = r.refresh.value token := by
  by_cases hA : O.owns A (.refresh token)
  · have hnone : r.refresh token = none := by
      by_contra hne
      exact not_owned hu (hp hne) hA
    rw [ExpiringMap.value_eq_none.2 hnone]
    exact ExpiringMap.value_eq_none.2 (ExpiringMap.hide_of (P := fun k => O.owns A (.refresh k)) hA _)
  · exact ExpiringMap.hide_value (P := fun k => O.owns A (.refresh k)) hA _

theorem access_visible {v s : UUID} {jti : String} (hp : Presents O u r (.bearer v jti s)) :
    (hide (O.owns A) r).access jti = r.access jti := by
  by_cases hA : O.owns A (.access jti)
  · have hnone : r.access jti = none := by
      by_contra hne
      exact not_owned hu (hp hne) hA
    rw [hnone]
    exact ExpiringMap.hide_of (P := fun j => O.owns A (.access j)) hA _
  · exact ExpiringMap.hide_of_not (P := fun j => O.owns A (.access j)) hA _

theorem ownership_visible (h : StoreOf O r) (s : UUID) :
    SessionThread.afterOwnership u s ((hide (O.owns A) r).session.value s) =
      SessionThread.afterOwnership u s (r.session.value s) := by
  by_cases hA : O.owns A (.session s)
  · have hhidden : (hide (O.owns A) r).session.value s = none :=
      ExpiringMap.value_eq_none.2 (ExpiringMap.hide_of (P := fun s => O.owns A (.session s)) hA _)
    rw [hhidden]
    cases hv : r.session.value s with
    | none => rfl
    | some data =>
      have hdata := h.hashOf hA hv
      have hne : data.userId ≠ some u := fun he => hu (hdata.user u he)
      simp only [SessionThread.afterOwnership, if_neg hne]
  · rw [hide_session_value hA]

/-- A command of another user's thread does the same next to the hidden keys and without them. -/
theorem visible_step (h : StoreOf O r) (ht : ThreadOf O u t) (hp : Presents O u r t)
    (hstep : t.step g r = some (r', t')) :
    t.step g (hide (O.owns A) r) = some (hide (O.owns A) r', t') := by
  cases t with
  | login v device d =>
    cases hstep
    obtain ⟨rfl, hs, hj, hk⟩ := ht
    rw [hide_create (not_owned hu hj) (not_owned hu hk) (not_owned hu hs)
      (not_owned hu (O.index.2 rfl))]
    rfl
  | refresh token d =>
    cases hstep
    rw [hide_getdel, SessionThread.step]
    simp only [getdel, refresh_visible hu hp]
  | claimed token d s =>
    cases hstep
    rw [SessionThread.step, hide_session_value (not_owned hu ht.2.1)]
  | rotating token d s v data =>
    cases hstep
    obtain ⟨-, hs, ⟨hj, hk⟩, rfl, -⟩ := ht
    rw [hide_rotate (not_owned hu hj) (not_owned hu hk) (not_owned hu hs)
      (not_owned hu (O.index.2 rfl))]
    rfl
  | bearer v jti s =>
    cases hstep
    rw [SessionThread.step, access_visible hu hp]
  | ownership v s =>
    cases hstep
    obtain rfl : v = u := ht
    rw [SessionThread.step, ownership_visible hu h]
  | revokeHandler s => cases hstep; rfl
  | revoke s =>
    cases hstep
    rw [SessionThread.step, hide_session_value (not_owned hu ht)]
  | revoking s data =>
    cases hstep
    rw [hide_revoke_visible hu ht.2]
    rfl
  | revokeAll v =>
    cases hstep
    rw [SessionThread.step, hide_sessions_value (not_owned hu (O.index.2 ht))]
  | clearing v ids =>
    cases hstep
    simp only [SessionThread.step, hide, ExpiringMap.hide_remove]
  | revokeEach gone ids =>
    cases ids with
    | nil => simp [SessionThread.step] at hstep
    | cons s rest =>
      cases hstep
      rw [SessionThread.step, hide_session_value (not_owned hu (ht s (by simp)))]
  | revokingEach gone s data rest =>
    cases hstep
    rw [hide_revoke_visible hu ht.2.1]
    rfl
  | _ => simp [SessionThread.step] at hstep

end Visible

end Commands

end AuthService.KeyOwnership
