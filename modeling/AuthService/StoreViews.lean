import AuthService.StoreClients

set_option autoImplicit false

/-! What the keys of the token store, the rate limiter and the idempotency store stand for on a
Redis server, and what their commands do to it. -/
namespace AuthService.StoreViews
open Uuids PythonText JsonText ExpiringMaps RedisSessions RateLimiter RequestPorts
open LabelledRuns ThreadPools CommandHandlers SessionThreads IdempotencyExtension IdempotencyRecords
open RecordThreads RedisCommands RedisClients StoreClients

def IsText (v : Value) (text : String) : Prop := v = .string text

structure Lists (fields : List (String × String)) (h : SessionHash) : Prop where
  userId : field "user_id" fields = h.userId.map UUID.str
  deviceInfo : field "device_info" fields = h.deviceInfo
  createdAt : field "created_at" fields = h.createdAt
  lastUsed : field "last_used" fields = h.lastUsed
  currentJti : field "current_jti" fields = h.currentJti
  currentRefresh : field "current_refresh" fields = h.currentRefresh

def IsSession (v : Value) (h : SessionHash) : Prop :=
  ∃ fields, v = .hash fields ∧ fields ≠ [] ∧ Lists fields h

def IsMembers (v : Value) (ids : List UUID) : Prop := v = .set (ids.map UUID.str)

/-- The entry under a key stands for the one in the state of the token store. -/
def Fits (r : Redis) (x : Option (Entry Value)) : Key → Prop
  | .access jti => EntryFor IsText x (r.access jti)
  | .refresh token => EntryFor IsText x (r.refresh token)
  | .session sid => EntryFor IsSession x (r.session sid)
  | .sessions uid => EntryFor IsMembers x (r.sessions uid)

structure Holds (s : Server) (r : Redis) : Prop where
  now : s.now = r.now
  fits : ∀ k, Fits r (s.keys k.text) k

section Holds
variable {s : Server} {r : Redis}

theorem Holds.deadline (h : Holds s r) (n : ℕ) : s.deadline n = r.now + seconds n := by
  rw [Server.deadline, h.now, seconds]

theorem Holds.access_entry (h : Holds s r) (j : String) :
    EntryFor IsText (s.keys (Key.access j).text) (r.access j) := h.fits (.access j)

theorem Holds.refresh_entry (h : Holds s r) (t : String) :
    EntryFor IsText (s.keys (Key.refresh t).text) (r.refresh t) := h.fits (.refresh t)

theorem Holds.session_entry (h : Holds s r) (sid : UUID) :
    EntryFor IsSession (s.keys (Key.session sid).text) (r.session sid) := h.fits (.session sid)

theorem Holds.sessions_entry (h : Holds s r) (uid : UUID) :
    EntryFor IsMembers (s.keys (Key.sessions uid).text) (r.sessions uid) := h.fits (.sessions uid)

theorem Holds.write (h : Holds s r) {r' : Redis} {k : Key} {x : Option (Entry Value)}
    (hnow : r'.now = r.now) (hown : Fits r' x k) (hothers : ∀ l y, l ≠ k → Fits r y l → Fits r' y l) :
    Holds { s with keys := Function.update s.keys k.text x } r' := by
  refine ⟨h.now.trans hnow.symm, fun l => ?_⟩
  by_cases hl : l = k
  · subst hl
    simpa only [Function.update_self] using hown
  · have hne : l.text ≠ k.text := fun he => hl (Key.text_injective he)
    simpa only [Function.update_of_ne hne] using hothers l _ hl (h.fits l)

theorem Holds.access (h : Holds s r) {j : String} {x : Option (Entry Value)} {y : Option (Entry String)}
    (hxy : EntryFor IsText x y) : Holds { s with keys := Function.update s.keys (Key.access j).text x }
      { r with access := Function.update r.access j y } := by
  refine h.write rfl (by simpa only [Fits, Function.update_self] using hxy) fun l z hl hz => ?_
  cases l with
  | access j' =>
    have hne : j' ≠ j := fun he => hl (by rw [he])
    simpa only [Fits, Function.update_of_ne hne] using hz
  | _ => exact hz

theorem Holds.refresh (h : Holds s r) {t : String} {x : Option (Entry Value)}
    {y : Option (Entry String)}
    (hxy : EntryFor IsText x y) : Holds { s with keys := Function.update s.keys (Key.refresh t).text x }
      { r with refresh := Function.update r.refresh t y } := by
  refine h.write rfl (by simpa only [Fits, Function.update_self] using hxy) fun l z hl hz => ?_
  cases l with
  | refresh t' =>
    have hne : t' ≠ t := fun he => hl (by rw [he])
    simpa only [Fits, Function.update_of_ne hne] using hz
  | _ => exact hz

theorem Holds.session (h : Holds s r) {sid : UUID} {x : Option (Entry Value)}
    {y : Option (Entry SessionHash)} (hxy : EntryFor IsSession x y) :
    Holds { s with keys := Function.update s.keys (Key.session sid).text x }
      { r with session := Function.update r.session sid y } := by
  refine h.write rfl (by simpa only [Fits, Function.update_self] using hxy) fun l z hl hz => ?_
  cases l with
  | session sid' =>
    have hne : sid' ≠ sid := fun he => hl (by rw [he])
    simpa only [Fits, Function.update_of_ne hne] using hz
  | _ => exact hz

theorem Holds.sessions (h : Holds s r) {uid : UUID} {x : Option (Entry Value)}
    {y : Option (Entry (List UUID))} (hxy : EntryFor IsMembers x y) :
    Holds { s with keys := Function.update s.keys (Key.sessions uid).text x }
      { r with sessions := Function.update r.sessions uid y } := by
  refine h.write rfl (by simpa only [Fits, Function.update_self] using hxy) fun l z hl hz => ?_
  cases l with
  | sessions uid' =>
    have hne : uid' ≠ uid := fun he => hl (by rw [he])
    simpa only [Fits, Function.update_of_ne hne] using hz
  | _ => exact hz

theorem Holds.advance (h : Holds s r) (d : ℕ) : Holds (s.advance d) (r.advance d) := by
  have hnow : s.now + d = r.now + d := by rw [h.now]
  refine ⟨hnow, fun k => ?_⟩
  have hk := h.fits k
  cases k <;> simp only [Fits, Server.advance, Redis.advance, ExpiringMap.purge, hnow] at hk ⊢ <;>
    exact hk.purge _

end Holds

section Commands
variable {r : Redis} {n : ℕ}

theorem setex_access (hn : 0 < n) (j text : String) :
    Achieves Holds [.setex (Key.access j).text n text] r
      { r with access := r.access.put j text (r.now + seconds n) } := by
  intro s h
  refine Achieves.single (exec_setex hn) rfl ?_
  rw [h.deadline]
  exact h.access (.present rfl)

theorem setex_refresh (hn : 0 < n) (t text : String) :
    Achieves Holds [.setex (Key.refresh t).text n text] r
      { r with refresh := r.refresh.put t text (r.now + seconds n) } := by
  intro s h
  refine Achieves.single (exec_setex hn) rfl ?_
  rw [h.deadline]
  exact h.refresh (.present rfl)

theorem del_access (j : String) :
    Achieves Holds [.del (Key.access j).text] r { r with access := r.access.remove j } :=
  fun _ h => Achieves.single rfl rfl (h.access .absent)

theorem del_refresh (t : String) :
    Achieves Holds [.del (Key.refresh t).text] r { r with refresh := r.refresh.remove t } :=
  fun _ h => Achieves.single rfl rfl (h.refresh .absent)

theorem del_session (sid : UUID) :
    Achieves Holds [.del (Key.session sid).text] r { r with session := r.session.remove sid } :=
  fun _ h => Achieves.single rfl rfl (h.session .absent)

theorem del_sessions (uid : UUID) :
    Achieves Holds [.del (Key.sessions uid).text] r { r with sessions := r.sessions.remove uid } :=
  fun _ h => Achieves.single rfl rfl (h.sessions .absent)

theorem expire_session (hn : 0 < n) (sid : UUID) :
    Achieves Holds [.expire (Key.session sid).text n] r
      { r with session := r.session.expire sid (r.now + seconds n) } := by
  intro s h
  obtain ⟨m, hm⟩ := exec_expire (Key.session sid).text s hn
  refine Achieves.single hm rfl ?_
  rw [h.deadline]
  exact h.session ((h.session_entry sid).expire _)

theorem expire_sessions (hn : 0 < n) (uid : UUID) :
    Achieves Holds [.expire (Key.sessions uid).text n] r
      { r with sessions := r.sessions.expire uid (r.now + seconds n) } := by
  intro s h
  obtain ⟨m, hm⟩ := exec_expire (Key.sessions uid).text s hn
  refine Achieves.single hm rfl ?_
  rw [h.deadline]
  exact h.sessions ((h.sessions_entry uid).expire _)

theorem hset_session {mapping : List (String × String)} {f : SessionHash → SessionHash}
    (hm : mapping ≠ [])
    (hf : ∀ fields data, Lists fields data → Lists (setFields mapping fields) (f data)) (sid : UUID) :
    Achieves Holds [.hset (Key.session sid).text mapping] r
      { r with session := r.session.modify sid (fun data => f (data.getD .blank)) } := by
  intro s h
  have hblank : Lists [] SessionHash.blank := ⟨rfl, rfl, rfl, rfl, rfl, rfl⟩
  have hentry := h.session_entry sid
  generalize hx : s.keys (Key.session sid).text = x at hentry
  generalize hy : r.session sid = y at hentry
  cases hentry with
  | absent =>
    obtain ⟨m, hm'⟩ := exec_hset_absent hm hx
    refine Achieves.single hm' rfl ?_
    refine h.session ?_
    simp only [ExpiringMap.value, hy, Option.map_none, Option.getD_none, Option.bind_none]
    exact .present ⟨_, rfl, setFields_ne_nil hm _, hf _ _ hblank⟩
  | @present v data d hR =>
    obtain ⟨fields, rfl, -, hlists⟩ := hR
    obtain ⟨m, hm'⟩ := exec_hset_hash hm hx
    refine Achieves.single hm' rfl ?_
    refine h.session ?_
    simp only [ExpiringMap.value, hy, Option.map_some, Option.getD_some, Option.bind_some]
    exact .present ⟨_, rfl, setFields_ne_nil hm _, hf _ _ hlists⟩

theorem sadd_text (sid : UUID) (ids : List UUID) :
    insertMember sid.str (ids.map UUID.str) = (sadd sid ids).map UUID.str := by
  have hmem : sid.str ∈ ids.map UUID.str ↔ sid ∈ ids :=
    List.mem_map_of_injective str_injective
  unfold insertMember sadd
  by_cases h : sid ∈ ids
  · rw [if_pos (hmem.2 h), if_pos h]
  · rw [if_neg (fun he => h (hmem.1 he)), if_neg h, List.map_append]
    rfl

theorem sadd_sessions (sid uid : UUID) :
    Achieves Holds [.sadd (Key.sessions uid).text sid.str] r
      { r with sessions := r.sessions.modify uid (fun ids => sadd sid (ids.getD [])) } := by
  intro s h
  have hentry := h.sessions_entry uid
  generalize hx : s.keys (Key.sessions uid).text = x at hentry
  generalize hy : r.sessions uid = y at hentry
  cases hentry with
  | absent =>
    obtain ⟨m, hm⟩ := exec_sadd_absent sid.str hx
    refine Achieves.single hm rfl ?_
    refine h.sessions ?_
    simp only [ExpiringMap.value, hy, Option.map_none, Option.getD_none, Option.bind_none]
    exact .present rfl
  | @present v ids d hR =>
    subst hR
    obtain ⟨m, hm⟩ := exec_sadd_set sid.str hx
    refine Achieves.single hm rfl ?_
    refine h.sessions ?_
    simp only [ExpiringMap.value, hy, Option.map_some, Option.getD_some, Option.bind_some]
    exact .present (by rw [IsMembers, sadd_text])

theorem srem_text (sid : UUID) (ids : List UUID) :
    (ids.map UUID.str).filter (fun m => m ≠ sid.str) =
      (ids.filter (fun x => x ≠ sid)).map UUID.str := by
  rw [List.filter_map]
  refine congrArg (List.map UUID.str) (List.filter_congr fun x _ => ?_)
  have hiff : x.str = sid.str ↔ x = sid := str_injective.eq_iff
  simp only [Function.comp_apply, ne_eq, hiff]

theorem srem_sessions (sid uid : UUID) :
    Achieves Holds [.srem (Key.sessions uid).text sid.str] r
      { r with sessions := srem uid sid r.sessions } := by
  intro s h
  have hentry := h.sessions_entry uid
  generalize hx : s.keys (Key.sessions uid).text = x at hentry
  generalize hy : r.sessions uid = y at hentry
  cases hentry with
  | absent =>
    refine Achieves.single (exec_srem_absent hx) rfl ?_
    have hsame : srem uid sid r.sessions = r.sessions := by simp only [srem, hy]
    rw [hsame]
    exact h
  | @present v ids d hR =>
    subst hR
    obtain ⟨m, hm⟩ := exec_srem_set sid.str hx
    refine Achieves.single hm rfl ?_
    have hsrem : srem uid sid r.sessions = Function.update r.sessions uid
        (if ids.filter (fun x => x ≠ sid) = [] then none
          else some ⟨ids.filter (fun x => x ≠ sid), d⟩) := by
      simp only [srem, hy, ExpiringMap.remove, ExpiringMap.modify, Option.bind_some]
      split_ifs <;> rfl
    rw [hsrem]
    refine h.sessions ?_
    rw [srem_text]
    by_cases hnil : ids.filter (fun x => x ≠ sid) = []
    · rw [if_pos (by rw [hnil, List.map_nil]), if_pos hnil]
      exact .absent
    · rw [if_neg (fun he => hnil (List.map_eq_nil_iff.1 he)), if_neg hnil]
      exact .present rfl

end Commands

section Answers
variable {s : Server} {r : Redis}

theorem sessionData_lists {fields : List (String × String)} {data : SessionHash} (hne : fields ≠ [])
    (h : Lists fields data) : sessionData fields = some data := by
  have hid : (field "user_id" fields).bind UUID.parse = data.userId := by
    rw [h.userId]
    cases data.userId with
    | none => rfl
    | some uid => rw [Option.map_some, Option.bind_some, parse_str]
  rw [sessionData, if_neg hne, hid, h.deviceInfo, h.createdAt, h.lastUsed, h.currentJti,
    h.currentRefresh]

theorem hgetall_answer (h : Holds s r) (sid : UUID) :
    ∃ fields, execAll [.hgetall (Key.session sid).text] s = ([.fields fields], s) ∧
      sessionData fields = r.session.value sid := by
  have hentry := h.session_entry sid
  generalize hx : s.keys (Key.session sid).text = x at hentry
  generalize hy : r.session sid = y at hentry
  cases hentry with
  | absent =>
    refine ⟨[], by simp only [execAll, exec_hgetall_absent hx], ?_⟩
    simp only [sessionData, if_true, ExpiringMap.value, hy, Option.map_none]
  | @present v data d hR =>
    obtain ⟨fields, rfl, hne, hlists⟩ := hR
    refine ⟨fields, by simp only [execAll, exec_hgetall_hash hx], ?_⟩
    rw [sessionData_lists hne hlists, ExpiringMap.value_of_entry hy]

theorem getdel_answer (h : Holds s r) (token : String) :
    ∃ reply s', execAll [.getdel (Key.refresh token).text] s = ([reply], s') ∧ failed reply = false ∧
      readText [reply] = some (getdel token r).1 ∧ Holds s' (getdel token r).2 := by
  have hentry := h.refresh_entry token
  generalize hx : s.keys (Key.refresh token).text = x at hentry
  generalize hy : r.refresh token = y at hentry
  cases hentry with
  | absent =>
    refine ⟨.nil, s, by simp only [execAll, exec_getdel_absent hx], rfl, ?_, ?_⟩
    · simp only [readText, getdel, ExpiringMap.value, hy, Option.map_none]
    · rw [getdel_absent (ExpiringMap.value_eq_none.2 hy)]
      exact h
  | @present v text d hR =>
    subst hR
    refine ⟨.bulk text, _, by simp only [execAll, exec_getdel_string hx]; rfl, rfl, ?_,
      h.refresh .absent⟩
    simp only [readText, getdel, ExpiringMap.value, hy, Option.map_some]

theorem exists_answer (h : Holds s r) (jti : String) :
    ∃ n, execAll [.exists (Key.access jti).text] s = ([.integer n], s) ∧
      readExists [.integer n] = some (r.access jti).isSome := by
  refine ⟨_, rfl, ?_⟩
  rw [(h.access_entry jti).isSome]
  cases (r.access jti).isSome <;> rfl

theorem parse_texts (ids : List UUID) : (ids.map UUID.str).mapM UUID.parse = some ids := by
  induction ids with
  | nil => rfl
  | cons sid rest ih =>
    rw [List.map_cons, List.mapM_cons, parse_str, ih]
    rfl

theorem smembers_answer (h : Holds s r) (uid : UUID) :
    ∃ members, execAll [.smembers (Key.sessions uid).text] s = ([.members members], s) ∧
      readMembers [.members members] = some ((r.sessions.value uid).getD []) := by
  have hentry := h.sessions_entry uid
  generalize hx : s.keys (Key.sessions uid).text = x at hentry
  generalize hy : r.sessions uid = y at hentry
  cases hentry with
  | absent =>
    refine ⟨[], by simp only [execAll, exec_smembers_absent hx], ?_⟩
    simp only [readMembers, List.mapM_nil, ExpiringMap.value, hy, Option.map_none, Option.getD_none]
    rfl
  | @present v ids d hR =>
    subst hR
    refine ⟨_, by simp only [execAll, exec_smembers_set hx]; rfl, ?_⟩
    rw [ExpiringMap.value_of_entry hy, Option.getD_some, readMembers, parse_texts]

end Answers

section Pipelines
variable {r : Redis} {sid uid : UUID} {jti token oldJti oldToken nowIso : String}
  {accessTtl refreshTtl : ℕ}

theorem lists_opened (device : Option String) (fields : List (String × String)) (data : SessionHash) :
    Lists (setFields [("user_id", uid.str), ("device_info", device.getD ""), ("created_at", nowIso),
      ("last_used", nowIso), ("current_jti", jti), ("current_refresh", token)] fields)
      (data.opened uid nowIso jti token device) := by
  constructor <;> simp [setFields, field_setField, SessionHash.opened]

theorem lists_rotated {fields : List (String × String)} {data : SessionHash} (h : Lists fields data) :
    Lists (setFields [("last_used", nowIso), ("current_jti", jti), ("current_refresh", token)] fields)
      (data.rotated nowIso jti token) := by
  constructor <;>
    simp [setFields, field_setField, SessionHash.rotated, h.userId, h.deviceInfo, h.createdAt]

theorem create_achieves (ha : 0 < accessTtl) (hr : 0 < refreshTtl) (device : Option String) :
    Achieves Holds (createCommands nowIso sid uid jti token device accessTtl refreshTtl) r
      (createPipeline nowIso sid uid jti token device accessTtl refreshTtl r) :=
  (setex_access ha _ _).append ((setex_refresh hr _ _).append
    ((hset_session (by simp) (fun fields data _ => lists_opened device fields data) sid).append
      ((expire_session hr sid).append ((sadd_sessions sid uid).append (expire_sessions hr uid)))))

theorem delUnlessEmpty_access (j : String) : Achieves Holds (delUnlessEmpty j (.access j)) r
    { r with access := removeUnlessEmpty j r.access } := by
  unfold delUnlessEmpty removeUnlessEmpty
  split_ifs
  · exact achieves_nil _ _
  · exact del_access j

theorem delUnlessEmpty_refresh (t : String) : Achieves Holds (delUnlessEmpty t (.refresh t)) r
    { r with refresh := removeUnlessEmpty t r.refresh } := by
  unfold delUnlessEmpty removeUnlessEmpty
  split_ifs
  · exact achieves_nil _ _
  · exact del_refresh t

theorem rotate_achieves (ha : 0 < accessTtl) (hr : 0 < refreshTtl) :
    Achieves Holds (rotateCommands nowIso sid uid oldJti oldToken jti token accessTtl refreshTtl) r
      (rotatePipeline nowIso sid uid oldJti oldToken jti token accessTtl refreshTtl r) :=
  (del_refresh oldToken).append ((delUnlessEmpty_access oldJti).append ((setex_access ha _ _).append
    ((setex_refresh hr _ _).append ((hset_session (by simp) (fun _ _ h => lists_rotated h) sid).append
      ((expire_session hr sid).append (expire_sessions hr uid))))))

theorem revoke_achieves (data : SessionHash) :
    Achieves Holds (revokeCommands sid data) r (revokePipeline sid data r) := by
  refine (delUnlessEmpty_access _).append ((delUnlessEmpty_refresh _).append
    ((del_session sid).append ?_))
  unfold revokePipeline
  cases data.userId with
  | none => exact achieves_nil _ _
  | some uid => exact srem_sessions sid uid

end Pipelines

/-! ## The token store as a component -/

section SessionComponent
variable {g : GlobalContainer} {s : Server} {r : Redis} {t : SessionThread} {cs : List Command}

def sessionKey (k : String) : Prop := ∃ key : Key, k = key.text

theorem sessionKey_text (key : Key) : sessionKey key.text := ⟨key, rfl⟩

theorem mem_delUnlessEmpty {k : String} {key : Key} {c : Command} (h : c ∈ delUnlessEmpty k key) :
    sessionKey c.key := by
  unfold delUnlessEmpty at h
  split_ifs at h
  · cases h
  · rw [List.mem_singleton.1 h]
    exact sessionKey_text key

theorem create_keys {nowIso jti token : String} {sid uid : UUID} {device : Option String} {a b : ℕ}
    {c : Command} (h : c ∈ createCommands nowIso sid uid jti token device a b) : sessionKey c.key := by
  simp only [createCommands, List.mem_cons, List.not_mem_nil, or_false] at h
  rcases h with rfl | rfl | rfl | rfl | rfl | rfl <;> simp only [Command.key, sessionKey_text]

theorem rotate_keys {nowIso oldJti oldToken jti token : String} {sid uid : UUID} {a b : ℕ} {c : Command}
    (h : c ∈ rotateCommands nowIso sid uid oldJti oldToken jti token a b) : sessionKey c.key := by
  simp only [rotateCommands, List.mem_cons, List.mem_append, List.not_mem_nil, or_false] at h
  rcases h with rfl | h | rfl | rfl | rfl | rfl | rfl
  · exact sessionKey_text (.refresh oldToken)
  · exact mem_delUnlessEmpty h
  all_goals simp only [Command.key, sessionKey_text]

theorem revoke_keys {sid : UUID} {data : SessionHash} {c : Command} (h : c ∈ revokeCommands sid data) :
    sessionKey c.key := by
  simp only [revokeCommands, List.mem_append, List.mem_cons] at h
  rcases h with h | h | rfl | h
  · exact mem_delUnlessEmpty h
  · exact mem_delUnlessEmpty h
  · exact sessionKey_text (.session sid)
  · split at h
    · cases h
    · rename_i uid _
      rw [List.mem_singleton.1 h]
      exact sessionKey_text (.sessions uid)

theorem session_sends {now : ℕ} (h : (sessionClient g).send now t = some cs) :
    ∀ c ∈ cs, sessionKey c.key := by
  intro c hc
  change sessionSend g now t = some cs at h
  have hone : ∀ (key : Key) (c' : Command), some [c'] = some cs → c'.key = key.text →
      sessionKey c.key := by
    intro key c' he hk
    cases he
    rw [List.mem_singleton.1 hc, hk]
    exact sessionKey_text key
  cases t with
  | login _ _ _ =>
    cases h
    exact create_keys hc
  | rotating _ _ _ _ _ =>
    cases h
    exact rotate_keys hc
  | revoking _ _ =>
    cases h
    exact revoke_keys hc
  | revokingEach _ _ _ _ =>
    cases h
    exact revoke_keys hc
  | revokeEach gone ids =>
    cases ids with
    | nil => cases h
    | cons sid rest => exact hone (.session sid) _ h rfl
  | refresh token _ => exact hone (.refresh token) _ h rfl
  | claimed _ _ sid => exact hone (.session sid) _ h rfl
  | bearer _ jti _ => exact hone (.access jti) _ h rfl
  | ownership _ sid => exact hone (.session sid) _ h rfl
  | revokeHandler sid => exact hone (.session sid) _ h rfl
  | revoke sid => exact hone (.session sid) _ h rfl
  | revokeAll userId => exact hone (.sessions userId) _ h rfl
  | clearing userId _ => exact hone (.sessions userId) _ h rfl
  | loggedIn _ => cases h
  | refreshed _ _ _ => cases h
  | refreshFailed => cases h
  | declined => cases h
  | returned _ => cases h

/-- What the step of the model does, the commands of the thread do on the server. -/
def Answers (g : GlobalContainer) (s : Server) (r : Redis) (t : SessionThread)
    (cs : List Command) : Prop :=
  ∃ r' t', t.step g r = some (r', t') ∧ (sessionClient g).deliver t (execAll cs s).1 = .live t' ∧
    Holds (execAll cs s).2 r'

theorem answers_pipeline (h : Holds s r) {r' : Redis} {t' : SessionThread}
    (hstep : t.step g r = some (r', t')) (hreceive : ∀ replies, sessionReceive replies t = some t')
    (hcs : Achieves Holds cs r r') : Answers g s r t cs := by
  obtain ⟨hreplies, hholds⟩ := hcs s h
  exact ⟨r', t', hstep, deliver_live hreplies (hreceive _), hholds⟩

theorem answers_read (h : Holds s r) (t' : SessionThread) {reply : Reply}
    (hstep : t.step g r = some (r, t')) (hcs : execAll cs s = ([reply], s)) (hok : failed reply = false)
    (hreceive : sessionReceive [reply] t = some t') : Answers g s r t cs := by
  refine ⟨r, t', hstep, ?_, by rw [hcs]; exact h⟩
  rw [hcs]
  refine deliver_live ?_ hreceive
  simp only [List.any_cons, hok, List.any_nil, Bool.or_false]

theorem answers_hgetall (h : Holds s r) {sid : UUID} (next : Option SessionHash → SessionThread)
    (hstep : t.step g r = some (r, next (r.session.value sid)))
    (hreceive : ∀ replies, sessionReceive replies t = (readHash replies).map next) :
    Answers g s r t [.hgetall (Key.session sid).text] := by
  obtain ⟨fields, hexec, hdata⟩ := hgetall_answer h sid
  refine answers_read h _ hstep hexec rfl ?_
  rw [hreceive, readHash, hdata, Option.map_some]

theorem session_answers (ha : 0 < g.accessTokenTtlSeconds) (hr : 0 < g.refreshTokenTtlSeconds)
    (h : Holds s r) (hsend : (sessionClient g).send s.now t = some cs) : Answers g s r t cs := by
  change sessionSend g s.now t = some cs at hsend
  rw [h.now] at hsend
  cases t with
  | login userId deviceInfo d =>
    cases hsend
    exact answers_pipeline h rfl (fun _ => rfl) (create_achieves ha hr deviceInfo)
  | refresh token d =>
    cases hsend
    obtain ⟨reply, s', hexec, hok, hread, hholds⟩ := getdel_answer h token
    refine ⟨_, _, rfl, ?_, by rw [hexec]; exact hholds⟩
    rw [hexec]
    refine deliver_live ?_ ?_
    · simp only [List.any_cons, hok, List.any_nil, Bool.or_false]
    · change (readText [reply]).map _ = _
      rw [hread, Option.map_some]
  | claimed token d sid =>
    cases hsend
    exact answers_hgetall h (SessionThread.afterHgetall token d sid) rfl (fun _ => rfl)
  | rotating token d sid userId data =>
    cases hsend
    exact answers_pipeline h rfl (fun _ => rfl) (rotate_achieves ha hr)
  | bearer userId jti sid =>
    cases hsend
    obtain ⟨n, hexec, hread⟩ := exists_answer h jti
    refine answers_read h (SessionThread.afterExists userId sid (r.access jti).isSome) rfl hexec rfl ?_
    change (readExists [.integer n]).map _ = _
    rw [hread, Option.map_some]
  | ownership userId sid =>
    cases hsend
    exact answers_hgetall h (SessionThread.afterOwnership userId sid) rfl (fun _ => rfl)
  | revokeHandler sid =>
    cases hsend
    exact answers_hgetall h (fun _ => .revoke sid) rfl (fun _ => rfl)
  | revoke sid =>
    cases hsend
    exact answers_hgetall h (SessionThread.afterRevokeRead sid) rfl (fun _ => rfl)
  | revoking sid data =>
    cases hsend
    exact answers_pipeline h rfl (fun _ => rfl) (revoke_achieves data)
  | revokeAll userId =>
    cases hsend
    obtain ⟨members, hexec, hread⟩ := smembers_answer h userId
    refine answers_read h (.clearing userId ((r.sessions.value userId).getD [])) rfl hexec rfl ?_
    change (readMembers [.members members]).map _ = _
    rw [hread, Option.map_some]
  | clearing userId ids =>
    cases hsend
    exact answers_pipeline h rfl (fun _ => rfl) (del_sessions userId)
  | revokeEach gone ids =>
    cases ids with
    | nil => cases hsend
    | cons sid rest =>
      cases hsend
      exact answers_hgetall h (SessionThread.afterEachRead gone sid rest) rfl (fun _ => rfl)
  | revokingEach gone sid data rest =>
    cases hsend
    exact answers_pipeline h rfl (fun _ => rfl) (revoke_achieves data)
  | loggedIn _ => cases hsend
  | refreshed _ _ _ => cases hsend
  | refreshFailed => cases hsend
  | declined => cases hsend
  | returned _ => cases hsend

theorem Holds.frame (h : Holds s r) {s' : Server} (hnow : s'.now = s.now)
    (hkeys : ∀ k, sessionKey k → s'.keys k = s.keys k) : Holds s' r :=
  ⟨hnow.trans h.now, fun k => hkeys k.text ⟨k, rfl⟩ ▸ h.fits k⟩

end SessionComponent

def sessionComponent (g : GlobalContainer) (ha : 0 < g.accessTokenTtlSeconds)
    (hr : 0 < g.refreshTokenTtlSeconds) : Component Redis SessionThread where
  client := sessionClient g
  keys := sessionKey
  step r t := t.step g r
  elapse := Redis.advance
  Represents _ := Holds
  Ready _ := True
  frame h hnow hkeys := h.frame hnow hkeys
  answers _ _ h hsend := by
    obtain ⟨r', t', hstep, hdeliver, hholds⟩ := session_answers ha hr h hsend
    exact ⟨r', t', hstep, hdeliver, trivial, hholds⟩
  elapses d h := h.advance d

/-! ## The rate limiter as a component -/

def checkKey (k : String) : Prop := ∃ rest, k = "rl:" ++ rest

def IsCount (bound : ℕ) (v : Value) (m : ℕ) : Prop := v = .string (decimal m) ∧ m ≤ bound

structure Counts (n : ℕ) (s : Server) (c : Counters) : Prop where
  now : s.now = c.now
  fits : ∀ k, checkKey k → EntryFor (IsCount n) (s.keys k) (c.count k)

section CheckComponent
variable {n : ℕ} {s s' : Server} {c : Counters}

theorem checkKey_redisKey (call : Call) : checkKey call.redisKey := ⟨call.key, rfl⟩

theorem isCount_mono {m k : ℕ} {x : Option (Entry Value)} {y : Option (Entry ℕ)} (h : m ≤ k)
    (hxy : EntryFor (IsCount m) x y) : EntryFor (IsCount k) x y := by
  cases hxy with
  | absent => exact .absent
  | present hR => exact .present ⟨hR.1, hR.2.trans h⟩

theorem Counts.frame (h : Counts n s c) (hnow : s'.now = s.now)
    (hkeys : ∀ k, checkKey k → s'.keys k = s.keys k) : Counts (n + 1) s' c :=
  ⟨hnow.trans h.now, fun k hk => hkeys k hk ▸ isCount_mono (Nat.le_succ n) (h.fits k hk)⟩

theorem Counts.write (h : Counts n s c) {k : String} {x : Option (Entry Value)} {y : Option (Entry ℕ)}
    (hxy : EntryFor (IsCount (n + 1)) x y) : Counts (n + 1)
    { s with keys := Function.update s.keys k x }
      { c with count := Function.update c.count k y } := by
  refine ⟨h.now, fun j hj => ?_⟩
  by_cases hjk : j = k
  · subst hjk
    simpa only [Function.update_self] using hxy
  · simpa only [Function.update_of_ne hjk] using isCount_mono (Nat.le_succ n) (h.fits j hj)

theorem Counts.advance (h : Counts n s c) (d : ℕ) : Counts (n + 1) (s.advance d) (c.advance d) := by
  have hnow : s.now + d = c.now + d := by rw [h.now]
  refine ⟨hnow, fun k hk => ?_⟩
  have hentry := (isCount_mono (Nat.le_succ n) (h.fits k hk)).purge (c.now + d)
  simpa only [Server.advance, Counters.advance, ExpiringMap.purge, hnow] using hentry

theorem check_sends {t : Check} {cs : List Command} (h : checkSend t = some cs) :
    ∀ c ∈ cs, checkKey c.key := by
  intro c hc
  cases t <;> cases h <;> rw [List.mem_singleton.1 hc] <;> exact checkKey_redisKey _

theorem check_answers {t : Check} {cs : List Command} (hn : n < maxInteger)
    (hready : 0 < t.call.windowSeconds) (h : Counts n s c) (hsend : checkSend t = some cs) :
    ∃ c' t', t.step c = some (c', t') ∧ checkClient.deliver t (execAll cs s).1 = .live t' ∧
      0 < t'.call.windowSeconds ∧ Counts (n + 1) (execAll cs s).2 c' := by
  cases t with
  | start call =>
    cases hsend
    have hpos : 0 < call.windowSeconds := hready
    have hentry := h.fits call.redisKey (checkKey_redisKey call)
    generalize hx : s.keys call.redisKey = x at hentry
    generalize hy : c.count call.redisKey = y at hentry
    refine ⟨_, _, rfl, ?_, hready, ?_⟩
    · cases hentry with
      | absent =>
        simp only [execAll, exec_set_absent hpos hx]
        exact deliver_live rfl rfl
      | present _ =>
        simp only [execAll, exec_set_present hpos hx]
        exact deliver_live rfl rfl
    · cases hentry with
      | absent =>
        simp only [execAll, exec_set_absent hpos hx, setNx, hy]
        refine h.write ?_
        rw [Server.deadline, h.now]
        exact .present ⟨rfl, Nat.zero_le _⟩
      | present _ =>
        simp only [execAll, exec_set_present hpos hx, setNx, hy]
        exact h.frame rfl fun _ _ => rfl
  | counting call =>
    cases hsend
    have hentry := h.fits call.redisKey (checkKey_redisKey call)
    generalize hx : s.keys call.redisKey = x at hentry
    generalize hy : c.count call.redisKey = y at hentry
    refine ⟨_, _, rfl, ?_, by rw [Check.afterIncr_call]; exact hready, ?_⟩
    · cases hentry with
      | absent =>
        simp only [execAll, exec_incr_absent hx, incr_fst, ExpiringMap.value, hy, Option.map_none,
          Option.getD_none]
        exact deliver_live rfl rfl
      | @present v m d hR =>
        obtain ⟨rfl, hm⟩ := hR
        simp only [execAll, exec_incr_decimal (show m < maxInteger by omega) hx, incr_fst,
          ExpiringMap.value, hy, Option.map_some, Option.getD_some]
        exact deliver_live rfl rfl
    · cases hentry with
      | absent =>
        simp only [execAll, exec_incr_absent hx, incr, ExpiringMap.modify, ExpiringMap.value, hy,
          Option.map_none, Option.getD_none, Option.bind_none]
        exact h.write (.present ⟨rfl, by omega⟩)
      | @present v m d hR =>
        obtain ⟨rfl, hm⟩ := hR
        simp only [execAll, exec_incr_decimal
          (show m < maxInteger by omega) hx, incr, ExpiringMap.modify,
          ExpiringMap.value, hy, Option.map_some, Option.getD_some, Option.bind_some]
        exact h.write (.present ⟨rfl, by omega⟩)
  | exceeded call m =>
    cases hsend
    have hentry := h.fits call.redisKey (checkKey_redisKey call)
    have hexec : exec (.ttl call.redisKey) s = (.integer (ttl call.redisKey c), s) := by
      generalize hx : s.keys call.redisKey = x at hentry
      generalize hy : c.count call.redisKey = y at hentry
      cases hentry with
      | absent => simp only [exec, hx, ttl, hy]
      | @present v b d hR =>
        cases d with
        | none => simp only [exec, hx, ttl, hy]
        | some d => simp only [exec, hx, ttl, hy, h.now]
    refine ⟨_, _, rfl, ?_, hready, ?_⟩
    · simp only [execAll, hexec]
      exact deliver_live rfl rfl
    · simp only [execAll, hexec]
      exact h.frame rfl fun _ _ => rfl
  | returned _ _ => cases hsend
  | raised _ _ => cases hsend

end CheckComponent

def checkComponent : Component Counters Check where
  client := checkClient
  keys := checkKey
  step c t := t.step c
  elapse := Counters.advance
  Represents := Counts
  Ready t := 0 < t.call.windowSeconds
  frame h hnow hkeys := h.frame hnow hkeys
  answers hn hready h hsend := check_answers hn hready h hsend
  elapses d h := h.advance d

/-! ## The idempotency store as a component -/

def recordKey (k : String) : Prop := ∃ rest, k = "idempotency:" ++ rest

structure Records (s : Server) (t : RecordStore) : Prop where
  now : s.now = t.now
  fits : ∀ k, recordKey k → EntryFor IsText (s.keys k) (t.texts k)

section RecordComponent
variable {sha256 : String → String} {s s' : Server} {store : RecordStore}

theorem recordKey_makeKey (operation key : String) : recordKey (makeKey operation key) :=
  ⟨operation ++ ":" ++ key, by simp only [makeKey, String.append_assoc]⟩

theorem Records.frame (h : Records s store) (hnow : s'.now = s.now)
    (hkeys : ∀ k, recordKey k → s'.keys k = s.keys k) : Records s' store :=
  ⟨hnow.trans h.now, fun k hk => hkeys k hk ▸ h.fits k hk⟩

theorem Records.advance (h : Records s store) (d : ℕ) : Records (s.advance d) (store.advance d) := by
  have hnow : s.now + d = store.now + d := by rw [h.now]
  refine ⟨hnow, fun k hk => ?_⟩
  have hentry := (h.fits k hk).purge (store.now + d)
  simpa only [Server.advance, RecordStore.advance, ExpiringMap.purge, hnow] using hentry

theorem Records.set (h : Records s store) (k : String) (value : Json) :
    Records { s with keys := s.keys.put k (.string value.dumps) (s.deadline recordTtl) }
      (store.set k value) := by
  refine ⟨h.now, fun j hj => ?_⟩
  have hd : s.deadline recordTtl = store.now + seconds recordTtl := by
    rw [Server.deadline, h.now, seconds]
  simp only [RecordStore.set, ExpiringMap.put_apply, hd]
  split_ifs
  · exact .present rfl
  · exact h.fits j hj

theorem record_sends {t : RecordThread} {cs : List Command} (h : recordSend sha256 t = some cs) :
    ∀ c ∈ cs, recordKey c.key := by
  intro c hc
  cases t with
  | done _ _ _ => cases h
  | arriving ctx e =>
    simp only [recordSend] at h
    split at h
    · cases h
      cases hc
    · cases h
      rw [List.mem_singleton.1 hc]
      exact recordKey_makeKey _ _
  | missed ctx e =>
    simp only [recordSend] at h
    split at h
    · split_ifs at h
      · cases h
        rw [List.mem_singleton.1 hc]
        exact recordKey_makeKey _ _
      · cases h
        cases hc
    · cases h
      cases hc

theorem get_answer (h : Records s store) {k : String} (hk : recordKey k) :
    ∃ reply, execAll [.get k] s = ([reply], s) ∧ failed reply = false ∧
      readText [reply] = some (store.texts.value k) := by
  have hentry := h.fits k hk
  generalize hx : s.keys k = x at hentry
  generalize hy : store.texts k = y at hentry
  cases hentry with
  | absent =>
    refine ⟨.nil, by simp only [execAll, exec_get_absent hx], rfl, ?_⟩
    simp only [readText, ExpiringMap.value, hy, Option.map_none]
  | @present v text d hR =>
    subst hR
    refine ⟨.bulk text, by simp only [execAll, exec_get_string hx], rfl, ?_⟩
    simp only [readText, ExpiringMap.value, hy, Option.map_some]

theorem record_answers {t : RecordThread} {cs : List Command} (h : Records s store)
    (hsend : recordSend sha256 t = some cs) :
    ∃ store' t', t.step sha256 store = some (store', t') ∧
      (recordClient sha256).deliver t (execAll cs s).1 = .live t' ∧
        Records (execAll cs s).2 store' := by
  cases t with
  | done _ _ _ => cases hsend
  | arriving c e =>
    cases hen : c.enrolled with
    | none =>
      simp only [recordSend, hen] at hsend
      cases hsend
      refine ⟨_, _, rfl, deliver_live rfl ?_, h⟩
      simp only [recordClient, recordReceive, hen, beforeYield]
    | some x =>
      obtain ⟨operation, key⟩ := x
      simp only [recordSend, hen] at hsend
      cases hsend
      obtain ⟨reply, hexec, hok, hread⟩ := get_answer h (recordKey_makeKey operation key)
      refine ⟨_, _, rfl, ?_, by rw [hexec]; exact h⟩
      rw [hexec]
      refine deliver_live ?_ ?_
      · simp only [List.any_cons, hok, List.any_nil, Bool.or_false]
      · simp only [recordClient, recordReceive, hen, hread, Option.map_some, beforeYield_lookedUp hen]
  | missed c e =>
    have hsilent : cs = [] → afterYield sha256 c e.result store = store →
        ∃ store' t', (RecordThread.missed c e).step sha256 store = some (store', t') ∧
          (recordClient sha256).deliver (.missed c e) (execAll cs s).1 = .live t' ∧
          Records (execAll cs s).2 store' := by
      rintro rfl hsame
      exact ⟨_, _, rfl, deliver_live rfl rfl, by rw [hsame]; exact h⟩
    cases hen : c.enrolled with
    | none =>
      simp only [recordSend, hen, Option.some.injEq] at hsend
      exact hsilent hsend.symm (by simp only [afterYield, hen])
    | some x =>
      obtain ⟨operation, key⟩ := x
      by_cases herrors : e.errors = []
      · obtain ⟨data, hdata⟩ := Option.ne_none_iff_exists'.1 fun hnone => e.complete hnone herrors
        simp only [recordSend, hen, Execution.result, hdata, Option.map_some, if_pos herrors] at hsend
        cases hsend
        refine ⟨_, _, rfl, ?_, ?_⟩
        · simp only [execAll, exec_setex (show 0 < recordTtl by decide)]
          exact deliver_live rfl rfl
        · rw [afterYield_success hen hdata herrors]
          simp only [execAll, exec_setex (show 0 < recordTtl by decide)]
          exact h.set _ _
      · refine hsilent ?_ (afterYield_errors (show e.result.errors ≠ [] from herrors) store)
        simp only [recordSend, hen, if_neg herrors] at hsend
        split at hsend <;> exact (Option.some.inj hsend).symm

end RecordComponent

def recordComponent (sha256 : String → String) : Component RecordStore RecordThread where
  client := recordClient sha256
  keys := recordKey
  step s t := t.step sha256 s
  elapse := RecordStore.advance
  Represents _ := Records
  Ready _ := True
  frame h hnow hkeys := h.frame hnow hkeys
  answers _ _ h hsend := by
    obtain ⟨s', t', hstep, hdeliver, hrecords⟩ := record_answers h hsend
    exact ⟨s', t', hstep, hdeliver, trivial, hrecords⟩
  elapses d h := h.advance d

end AuthService.StoreViews
