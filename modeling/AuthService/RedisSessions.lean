import AuthService.PythonText
import AuthService.ExpiringMaps

set_option autoImplicit false

/-! The four key families of the token store in Redis, and the pipelines that
`RedisTokenStore` runs on them, each one MULTI/EXEC step. -/
namespace AuthService.RedisSessions
open Uuids PythonText ExpiringMaps

inductive Key where
  | access (jti : String)
  | refresh (token : String)
  | session (sessionId : UUID)
  | sessions (userId : UUID)
  deriving DecidableEq

/-- The key helpers `_access_key`, `_refresh_key`, `_session_key` and `_user_sessions_key`. -/
def Key.text : Key → String
  | .access jti => "access:" ++ jti
  | .refresh token => "refresh:" ++ token
  | .session sessionId => "session:" ++ sessionId.str
  | .sessions userId => "sessions:" ++ userId.str

/-- Different logical keys never share a Redis key, so each family can be a map of its own. -/
theorem Key.text_injective : Function.Injective Key.text := by
  intro k l h
  have ht := congrArg String.toList h
  cases k <;> cases l <;> simp [Key.text, String.toList_append] at ht ⊢
  · exact String.toList_inj.1 ht
  · exact String.toList_inj.1 ht
  · exact str_injective (String.toList_inj.1 ht)
  · exact str_injective (String.toList_inj.1 ht)

/-- `f"{user_id}:{session_id}"`. -/
def payload (userId sessionId : UUID) : String := userId.str ++ ":" ++ sessionId.str

theorem splitColon_payload (u s : UUID) : splitColon (payload u s) = some (u.str, s.str) :=
  splitColon_append _ _ (str_colon u)

theorem payload_inj {u v s t : UUID} : payload u s = payload v t ↔ u = v ∧ s = t := by
  constructor
  · intro h
    have hs := congrArg splitColon h
    rw [splitColon_payload, splitColon_payload] at hs
    simpa using hs
  · rintro ⟨rfl, rfl⟩
    rfl

/-- The session hash; a field that was never written is absent. `user_id` is only
ever written as the text of a UUID and read back as one. -/
structure SessionHash where
  userId : Option UUID
  deviceInfo : Option String
  createdAt : Option String
  lastUsed : Option String
  currentJti : Option String
  currentRefresh : Option String
  deriving DecidableEq

def SessionHash.blank : SessionHash := ⟨none, none, none, none, none, none⟩

/-- The clock counts milliseconds; time-to-live arguments are seconds. -/
structure Redis where
  now : ℕ
  access : ExpiringMap String String
  refresh : ExpiringMap String String
  session : ExpiringMap UUID SessionHash
  sessions : ExpiringMap UUID (List UUID)

def seconds (n : ℕ) : ℕ := 1000 * n

theorem seconds_pos {n : ℕ} (h : 0 < n) : 0 < seconds n := by
  unfold seconds
  omega

theorem seconds_le {m n : ℕ} (h : m ≤ n) : seconds m ≤ seconds n := by
  unfold seconds
  omega

def Redis.blank (now : ℕ) : Redis :=
  ⟨now, ExpiringMap.empty, ExpiringMap.empty, ExpiringMap.empty, ExpiringMap.empty⟩

/-- Time passes, and every key whose deadline has come is gone. -/
def Redis.advance (d : ℕ) (r : Redis) : Redis :=
  let now := r.now + d
  ⟨now, r.access.purge now, r.refresh.purge now, r.session.purge now, r.sessions.purge now⟩

def Redis.evict (k : Key) (r : Redis) : Redis :=
  match k with
  | .access jti => { r with access := r.access.remove jti }
  | .refresh token => { r with refresh := r.refresh.remove token }
  | .session sid => { r with session := r.session.remove sid }
  | .sessions uid => { r with sessions := r.sessions.remove uid }

def sadd (sid : UUID) (members : List UUID) : List UUID :=
  if sid ∈ members then members else members ++ [sid]

/-- SREM; a set that loses its last member is gone. -/
def srem (uid sid : UUID) (m : ExpiringMap UUID (List UUID)) : ExpiringMap UUID (List UUID) :=
  match m uid with
  | none => m
  | some e =>
    if e.value.filter (fun x => x ≠ sid) = [] then m.remove uid
    else m.modify uid (fun _ => e.value.filter (fun x => x ≠ sid))

/-- The HSET mapping of `create_session`. -/
def SessionHash.opened (uid : UUID) (nowIso jti token : String) (device : Option String)
    (_ : SessionHash) : SessionHash :=
  ⟨some uid, some (device.getD ""), some nowIso, some nowIso, some jti, some token⟩

/-- The HSET mapping of `rotate_session`; the other fields stay as they are. -/
def SessionHash.rotated (nowIso jti token : String) (h : SessionHash) : SessionHash :=
  { h with lastUsed := some nowIso, currentJti := some jti, currentRefresh := some token }

/-- `if jti: pipe.delete(...)`. -/
def removeUnlessEmpty (k : String) (m : ExpiringMap String String) : ExpiringMap String String :=
  if k = "" then m else m.remove k

def createPipeline (nowIso : String) (sid uid : UUID) (jti token : String) (device : Option String)
    (accessTtl refreshTtl : ℕ) (r : Redis) : Redis :=
  { r with
    access := r.access.put jti (payload uid sid) (r.now + seconds accessTtl)
    refresh := r.refresh.put token (payload uid sid) (r.now + seconds refreshTtl)
    session := (r.session.modify sid (fun h => (h.getD .blank).opened uid nowIso jti token
      device)).expire
      sid (r.now + seconds refreshTtl)
    sessions := (r.sessions.modify uid (fun s => sadd sid (s.getD []))).expire
      uid (r.now + seconds refreshTtl) }

def rotatePipeline (nowIso : String) (sid uid : UUID) (oldJti oldToken jti token : String)
    (accessTtl refreshTtl : ℕ) (r : Redis) : Redis :=
  { r with
    refresh := (r.refresh.remove oldToken).put token (payload uid sid) (r.now + seconds refreshTtl)
    access := (removeUnlessEmpty oldJti r.access).put jti (payload uid sid) (r.now + seconds accessTtl)
    session := (r.session.modify sid (fun h => (h.getD .blank).rotated nowIso jti token)).expire
      sid (r.now + seconds refreshTtl)
    sessions := r.sessions.expire uid (r.now + seconds refreshTtl) }

def revokePipeline (sid : UUID) (data : SessionHash) (r : Redis) : Redis :=
  { r with
    access := removeUnlessEmpty (data.currentJti.getD "") r.access
    refresh := removeUnlessEmpty (data.currentRefresh.getD "") r.refresh
    session := r.session.remove sid
    sessions := match data.userId with
      | none => r.sessions
      | some uid => srem uid sid r.sessions }

/-- All of `revoke_session` on a quiet store. -/
def revokeOne (sid : UUID) (r : Redis) : Redis :=
  match r.session.value sid with
  | none => r
  | some data => revokePipeline sid data r

/-- The commands `revoke_session` sends. -/
def revokeOneCost (sid : UUID) (r : Redis) : ℕ :=
  match r.session.value sid with
  | none => 1
  | some _ => 2

def revokeList : List UUID → Redis → Redis
  | [], r => r
  | sid :: rest, r => revokeList rest (revokeOne sid r)

def revokeListCost : List UUID → Redis → ℕ
  | [], _ => 0
  | sid :: rest, r => revokeOneCost sid r + revokeListCost rest (revokeOne sid r)

/-- All of `revoke_all_user_sessions` on a quiet store. -/
def revokeAll (uid : UUID) (r : Redis) : Redis :=
  revokeList ((r.sessions.value uid).getD []) { r with sessions := r.sessions.remove uid }

def revokeAllCost (uid : UUID) (r : Redis) : ℕ :=
  2 + revokeListCost ((r.sessions.value uid).getD []) { r with sessions := r.sessions.remove uid }

def getdel (token : String) (r : Redis) : Option String × Redis :=
  (r.refresh.value token, { r with refresh := r.refresh.remove token })

theorem removeUnlessEmpty_apply (k j : String) (m : ExpiringMap String String) :
    removeUnlessEmpty k m j = if k ≠ "" ∧ j = k then none else m j := by
  unfold removeUnlessEmpty
  split_ifs with h1 h2 h2
  · exact absurd h1 h2.1
  · rfl
  · simp [ExpiringMap.remove_apply, h2.2]
  · have hj : j ≠ k := fun hj => h2 ⟨h1, hj⟩
    simp [ExpiringMap.remove_apply, hj]

theorem removeUnlessEmpty_le {k j : String} {m : ExpiringMap String String} {e : Entry String}
    (h : removeUnlessEmpty k m j = some e) : m j = some e := by
  rw [removeUnlessEmpty_apply] at h
  split_ifs at h
  exact h

section Pipelines
variable (nowIso : String) (sid uid : UUID) (jti token oldJti oldToken : String)
  (device : Option String) (data : SessionHash) (accessTtl refreshTtl : ℕ) (r : Redis)

@[simp] theorem create_now :
    (createPipeline nowIso sid uid jti token device accessTtl refreshTtl r).now = r.now := rfl

@[simp] theorem rotate_now :
    (rotatePipeline nowIso sid uid oldJti oldToken jti token accessTtl refreshTtl r).now = r.now := rfl

@[simp] theorem revoke_now : (revokePipeline sid data r).now = r.now := rfl

@[simp] theorem advance_now (d : ℕ) : (r.advance d).now = r.now + d := rfl

theorem create_access (j : String) :
    (createPipeline nowIso sid uid jti token device accessTtl refreshTtl r).access j =
      if j = jti then some ⟨payload uid sid, some (r.now + seconds accessTtl)⟩ else r.access j :=
  ExpiringMap.put_apply _ _ _ _ _

theorem create_refresh (t : String) :
    (createPipeline nowIso sid uid jti token device accessTtl refreshTtl r).refresh t =
      if t = token then some ⟨payload uid sid, some (r.now + seconds refreshTtl)⟩ else r.refresh t :=
  ExpiringMap.put_apply _ _ _ _ _

theorem create_session (s : UUID) :
    (createPipeline nowIso sid uid jti token device accessTtl refreshTtl r).session s =
      if s = sid then some ⟨SessionHash.opened uid nowIso jti token device .blank,
        some (r.now + seconds refreshTtl)⟩ else r.session s :=
  ExpiringMap.modify_expire_apply _ _ _ _ _

theorem create_sessions (u : UUID) :
    (createPipeline nowIso sid uid jti token device accessTtl refreshTtl r).sessions u =
      if u = uid then some ⟨sadd sid ((r.sessions.value uid).getD []),
        some (r.now + seconds refreshTtl)⟩ else r.sessions u :=
  ExpiringMap.modify_expire_apply _ _ _ _ _

theorem rotate_access (j : String) :
    (rotatePipeline nowIso sid uid oldJti oldToken jti token accessTtl refreshTtl r).access j =
      if j = jti then some ⟨payload uid sid, some (r.now + seconds accessTtl)⟩
      else if oldJti ≠ "" ∧ j = oldJti then none else r.access j := by
  refine (ExpiringMap.put_apply _ _ _ _ _).trans ?_
  rw [removeUnlessEmpty_apply]

theorem rotate_refresh (t : String) :
    (rotatePipeline nowIso sid uid oldJti oldToken jti token accessTtl refreshTtl r).refresh t =
      if t = token then some ⟨payload uid sid, some (r.now + seconds refreshTtl)⟩
      else if t = oldToken then none else r.refresh t := by
  refine (ExpiringMap.put_apply _ _ _ _ _).trans ?_
  rw [ExpiringMap.remove_apply]

theorem rotate_session (s : UUID) :
    (rotatePipeline nowIso sid uid oldJti oldToken jti token accessTtl refreshTtl r).session s =
      if s = sid then some ⟨((r.session.value sid).getD .blank).rotated nowIso jti token,
        some (r.now + seconds refreshTtl)⟩ else r.session s :=
  ExpiringMap.modify_expire_apply _ _ _ _ _

theorem rotate_sessions (u : UUID) :
    (rotatePipeline nowIso sid uid oldJti oldToken jti token accessTtl refreshTtl r).sessions u =
      if u = uid then (r.sessions u).map (fun e => ⟨e.value, some (r.now + seconds refreshTtl)⟩)
      else r.sessions u := by
  refine (ExpiringMap.expire_apply _ _ _ _).trans ?_
  split_ifs with h
  · rw [h]
  · rfl

theorem revoke_access (j : String) :
    (revokePipeline sid data r).access j =
      if data.currentJti.getD "" ≠ "" ∧ j = data.currentJti.getD "" then none else r.access j :=
  removeUnlessEmpty_apply _ _ _

theorem revoke_refresh (t : String) :
    (revokePipeline sid data r).refresh t =
      if data.currentRefresh.getD "" ≠ "" ∧ t = data.currentRefresh.getD "" then none
      else r.refresh t :=
  removeUnlessEmpty_apply _ _ _

theorem revoke_session (s : UUID) :
    (revokePipeline sid data r).session s = if s = sid then none else r.session s :=
  ExpiringMap.remove_apply _ _ _

end Pipelines

theorem srem_other {uid sid u : UUID} (m : ExpiringMap UUID (List UUID)) (h : u ≠ uid) :
    srem uid sid m u = m u := by
  unfold srem
  cases m uid with
  | none => rfl
  | some e =>
    simp only
    split_ifs
    · simp [ExpiringMap.remove_apply, h]
    · simp [ExpiringMap.modify_apply, h]

theorem srem_keeps {uid sid u s : UUID} {m : ExpiringMap UUID (List UUID)} {e : Entry (List UUID)}
    (h : m u = some e) (hs : s ∈ e.value) (hne : s ≠ sid) :
    ∃ e', srem uid sid m u = some e' ∧ e'.deadline = e.deadline ∧ s ∈ e'.value := by
  by_cases hu : u = uid
  · subst hu
    have hm : s ∈ e.value.filter (fun x => x ≠ sid) := by simp [hs, hne]
    have hnil : e.value.filter (fun x => x ≠ sid) ≠ [] := List.ne_nil_of_mem hm
    unfold srem
    simp only [h, hnil, ↓reduceIte]
    exact ⟨_, by rw [ExpiringMap.modify_apply, if_pos rfl], by simp [h], hm⟩
  · exact ⟨e, by rw [srem_other m hu, h], rfl, hs⟩

theorem srem_none {uid sid u : UUID} {m : ExpiringMap UUID (List UUID)} (h : m u = none) :
    srem uid sid m u = none := by
  by_cases hu : u = uid
  · subst hu
    unfold srem
    simp only [h]
  · rw [srem_other m hu, h]

theorem srem_subset {uid sid u : UUID} {m : ExpiringMap UUID (List UUID)} {ids : List UUID}
    (h : (srem uid sid m).value u = some ids) : ∃ ids', m.value u = some ids' ∧ ids ⊆ ids' := by
  by_cases hu : u = uid
  · subst hu
    cases hm : m u with
    | none =>
      rw [ExpiringMap.value, srem_none hm] at h
      simp at h
    | some e =>
      refine ⟨e.value, ExpiringMap.value_of_entry hm, ?_⟩
      unfold srem at h
      simp only [hm] at h
      split_ifs at h with hnil
      · simp [ExpiringMap.value, ExpiringMap.remove_apply] at h
      · simp only [ExpiringMap.value, ExpiringMap.modify_apply, ↓reduceIte, Option.map_some,
          Option.some.injEq] at h
        rw [← h]
        exact List.filter_sublist.subset
  · rw [ExpiringMap.value, srem_other m hu] at h
    exact ⟨ids, h, fun _ => id⟩

theorem mem_sadd {sid s : UUID} {l : List UUID} : s ∈ sadd sid l ↔ s = sid ∨ s ∈ l := by
  unfold sadd
  split_ifs with h
  · constructor
    · exact .inr
    · rintro (rfl | hs)
      · exact h
      · exact hs
  · simp [or_comm]

theorem create_member {nowIso jti token : String} {sid uid u s : UUID} {device : Option String}
    {accessTtl refreshTtl : ℕ} {r : Redis} {ids : List UUID}
    (h : (createPipeline nowIso sid uid jti token device accessTtl refreshTtl r).sessions.value u =
      some ids) (hs : s ∈ ids) :
    (u = uid ∧ s = sid) ∨ ∃ old, r.sessions.value u = some old ∧ s ∈ old := by
  rw [ExpiringMap.value, create_sessions] at h
  by_cases hu : u = uid
  · rw [if_pos hu, Option.map_some, Option.some.injEq] at h
    subst h
    rcases mem_sadd.1 hs with rfl | hold
    · exact .inl ⟨hu, rfl⟩
    · cases hv : r.sessions.value uid with
      | none => simp [hv] at hold
      | some old =>
        rw [hv] at hold
        exact .inr ⟨old, hu ▸ hv, hold⟩
  · rw [if_neg hu] at h
    exact .inr ⟨ids, h, hs⟩

theorem revokeOne_now (sid : UUID) (r : Redis) : (revokeOne sid r).now = r.now := by
  unfold revokeOne
  cases r.session.value sid <;> rfl

theorem revokeList_now (ids : List UUID) (r : Redis) : (revokeList ids r).now = r.now := by
  induction ids generalizing r with
  | nil => rfl
  | cons sid rest ih => rw [revokeList, ih, revokeOne_now]

theorem revokeAll_now (uid : UUID) (r : Redis) : (revokeAll uid r).now = r.now :=
  revokeList_now _ _

theorem revokeOne_session (sid s : UUID) (r : Redis) :
    (revokeOne sid r).session s = if s = sid then none else r.session s := by
  unfold revokeOne
  cases hv : r.session.value sid with
  | none =>
    split_ifs with hs
    · rw [hs]
      exact ExpiringMap.value_eq_none.1 hv
    · rfl
  | some data => exact revoke_session _ _ _ _

theorem revokeList_session (ids : List UUID) (s : UUID) (r : Redis) :
    (revokeList ids r).session s = if s ∈ ids then none else r.session s := by
  induction ids generalizing r with
  | nil => rfl
  | cons sid rest ih =>
    rw [revokeList, ih, revokeOne_session]
    by_cases hs : s = sid <;> by_cases hr : s ∈ rest <;> simp [hs, hr]

theorem getdel_absent {r : Redis} {token : String} (h : r.refresh.value token = none) :
    (getdel token r).2 = r := by
  have hn : r.refresh.remove token = r.refresh := by
    funext k
    rw [ExpiringMap.remove_apply]
    split_ifs with hk
    · rw [hk, ExpiringMap.value_eq_none.1 h]
    · rfl
  simp only [getdel, hn]

/-! Passing time and vanishing keys only take entries away. -/

theorem advance_access {d : ℕ} {r : Redis} {j : String} {e : Entry String} :
    (r.advance d).access j = some e ↔ r.access j = some e ∧ e.aliveAt (r.now + d) = true :=
  ExpiringMap.purge_eq_some

theorem advance_refresh {d : ℕ} {r : Redis} {t : String} {e : Entry String} :
    (r.advance d).refresh t = some e ↔ r.refresh t = some e ∧ e.aliveAt (r.now + d) = true :=
  ExpiringMap.purge_eq_some

theorem advance_session {d : ℕ} {r : Redis} {s : UUID} {e : Entry SessionHash} :
    (r.advance d).session s = some e ↔ r.session s = some e ∧ e.aliveAt (r.now + d) = true :=
  ExpiringMap.purge_eq_some

theorem advance_sessions {d : ℕ} {r : Redis} {u : UUID} {e : Entry (List UUID)} :
    (r.advance d).sessions u = some e ↔ r.sessions u = some e ∧ e.aliveAt (r.now + d) = true :=
  ExpiringMap.purge_eq_some

end AuthService.RedisSessions
