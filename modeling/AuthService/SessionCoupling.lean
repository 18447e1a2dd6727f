import AuthService.CredentialLedgers
import AuthService.RedisSessions

set_option autoImplicit false

/-! The four key families of Redis hold exactly what a ledger of live sessions says,
and every operation of the token store is an operation on that ledger. -/
namespace AuthService.SessionCoupling
open Uuids PythonText ExpiringMaps RedisSessions CredentialLedgers

abbrev SessionLedger := Ledger UUID UUID String

def accessEntry (s : UUID) (t : Ticket UUID String) : Entry String :=
  ⟨payload t.owner s, some t.accessUntil⟩

def refreshEntry (s : UUID) (t : Ticket UUID String) : Entry String :=
  ⟨payload t.owner s, some t.validUntil⟩

/-- The hash fields that the ledger determines. -/
def Describes (data : SessionHash) (t : Ticket UUID String) : Prop :=
  data.userId = some t.owner ∧ data.currentJti = some t.access ∧ data.currentRefresh = some t.renewal

/-- Access keys, refresh keys and session hashes are those of the ledger. -/
structure Coupled (ttl : ℕ) (r : Redis) (l : SessionLedger) : Prop where
  access : Ledger.Mirrors Ticket.access (fun t => r.now < t.accessUntil) accessEntry r.access l
  refresh : Ledger.Mirrors Ticket.renewal (fun _ => True) refreshEntry r.refresh l
  session : ∀ s t, l s = some t → ∃ data, r.session s = some ⟨data, some t.validUntil⟩ ∧
    Describes data t
  dead : ∀ s, l s = none → r.session s = none
  accessSeparates : Ledger.Separates Ticket.access l
  renewalSeparates : Ledger.Separates Ticket.renewal l
  timely : ∀ s t, l s = some t → r.now < t.validUntil ∧ t.accessUntil ≤ t.validUntil ∧
    t.validUntil ≤ r.now + ttl
  written : ∀ s t, l s = some t → t.access ≠ "" ∧ t.renewal ≠ ""

/-- The index of a user lists the live sessions of the user and outlives them. -/
structure Indexed (r : Redis) (l : SessionLedger) : Prop where
  listed : ∀ s t, l s = some t → ∃ ids d, r.sessions t.owner = some ⟨ids, some d⟩ ∧ s ∈ ids ∧
    t.validUntil ≤ d
  own : ∀ u ids, r.sessions.value u = some ids → ∀ s ∈ ids, ∀ t, l s = some t → t.owner = u

section Steps
variable {ttl : ℕ} {r r' : Redis} {l : SessionLedger}

theorem coupled_blank (now : ℕ) : Coupled ttl (Redis.blank now) Ledger.empty where
  access := Ledger.mirrors_empty
  refresh := Ledger.mirrors_empty
  session s t h := by simp [Ledger.empty] at h
  dead s _ := rfl
  accessSeparates := Ledger.separates_empty _
  renewalSeparates := Ledger.separates_empty _
  timely s t h := by simp [Ledger.empty] at h
  written s t h := by simp [Ledger.empty] at h

theorem indexed_blank (now : ℕ) : Indexed (Redis.blank now) Ledger.empty where
  listed s t h := by simp [Ledger.empty] at h
  own u ids h := by simp [Redis.blank, ExpiringMap.empty, ExpiringMap.value] at h

theorem Coupled.session_value (h : Coupled ttl r l) {s : UUID} {data : SessionHash}
    (hs : r.session.value s = some data) : ∃ t, l s = some t ∧ Describes data t := by
  cases hl : l s with
  | none => simp [ExpiringMap.value, h.dead s hl] at hs
  | some t =>
    obtain ⟨data', hd, hdata⟩ := h.session s t hl
    rw [ExpiringMap.value_of_entry hd, Option.some.injEq] at hs
    subst hs
    exact ⟨t, rfl, hdata⟩

theorem Coupled.issue (h : Coupled ttl r l) {sid : UUID} {t : Ticket UUID String}
    (data : SessionHash) (hnow : r'.now = r.now)
    (haccess : ∀ j, r'.access j = if j = t.access then some (accessEntry sid t)
      else if (l sid).map Ticket.access = some j then none else r.access j)
    (hrefresh : ∀ k, r'.refresh k = if k = t.renewal then some (refreshEntry sid t)
      else if (l sid).map Ticket.renewal = some k then none else r.refresh k)
    (hsession : ∀ s, r'.session s = if s = sid then some ⟨data, some t.validUntil⟩ else r.session s)
    (hdata : Describes data t)
    (hfresh : ∀ s old, l s = some old → old.access ≠ t.access ∧ old.renewal ≠ t.renewal)
    (htime : r.now < t.accessUntil ∧ t.accessUntil ≤ t.validUntil ∧ t.validUntil ≤ r.now + ttl)
    (hwritten : t.access ≠ "" ∧ t.renewal ≠ "") : Coupled ttl r' (l.issue sid t) where
  access := by
    rw [hnow]
    exact h.access.issue h.accessSeparates haccess htime.1 (fun s old hl => (hfresh s old hl).1)
  refresh := h.refresh.issue h.renewalSeparates hrefresh trivial (fun s old hl => (hfresh s old hl).2)
  session s t' hl := by
    rw [Ledger.issue_apply] at hl
    rw [hsession]
    split_ifs at hl ⊢ with hs
    · rw [← Option.some.inj hl]
      exact ⟨data, rfl, hdata⟩
    · exact h.session s t' hl
  dead s hl := by
    rw [Ledger.issue_apply] at hl
    rw [hsession]
    split_ifs at hl ⊢ with hs
    exact h.dead s hl
  accessSeparates := h.accessSeparates.issue (fun s old hl => (hfresh s old hl).1)
  renewalSeparates := h.renewalSeparates.issue (fun s old hl => (hfresh s old hl).2)
  timely s t' hl := by
    rw [Ledger.issue_apply] at hl
    rw [hnow]
    split_ifs at hl with hs
    · rw [← Option.some.inj hl]
      exact ⟨lt_of_lt_of_le htime.1 htime.2.1, htime.2⟩
    · exact h.timely s t' hl
  written s t' hl := by
    rw [Ledger.issue_apply] at hl
    split_ifs at hl with hs
    · rw [← Option.some.inj hl]
      exact hwritten
    · exact h.written s t' hl

theorem Coupled.close (h : Coupled ttl r l) {sid : UUID} (hnow : r'.now = r.now)
    (haccess : ∀ j, r'.access j = if (l sid).map Ticket.access = some j then none else r.access j)
    (hrefresh : ∀ k, r'.refresh k = if (l sid).map Ticket.renewal = some k then none else r.refresh k)
    (hsession : ∀ s, r'.session s = if s = sid then none else r.session s) :
    Coupled ttl r' (l.close sid) where
  access := by
    rw [hnow]
    exact h.access.close h.accessSeparates haccess
  refresh := h.refresh.close h.renewalSeparates hrefresh
  session s t hl := by
    obtain ⟨hs, hl⟩ := Ledger.close_eq_some.1 hl
    rw [hsession, if_neg hs]
    exact h.session s t hl
  dead s hl := by
    rw [Ledger.close_apply] at hl
    rw [hsession]
    split_ifs at hl ⊢ with hs
    · rfl
    · exact h.dead s hl
  accessSeparates := h.accessSeparates.mono (fun s t hl => (Ledger.close_eq_some.1 hl).2)
  renewalSeparates := h.renewalSeparates.mono (fun s t hl => (Ledger.close_eq_some.1 hl).2)
  timely s t hl := by
    rw [hnow]
    exact h.timely s t (Ledger.close_eq_some.1 hl).2
  written s t hl := h.written s t (Ledger.close_eq_some.1 hl).2

theorem Coupled.elapse (h : Coupled ttl r l) (d : ℕ) :
    Coupled ttl (r.advance d) (l.elapse (r.now + d)) where
  access := by
    refine h.access.elapse (fun e => e.aliveAt (r.now + d) = true)
      (fun k e => advance_access) ?_ ?_
    · intro s t hl _
      rw [accessEntry, Entry.aliveAt_some, advance_now]
      have ht := (h.timely s t hl).2.1
      omega
    · intro t ht
      rw [advance_now] at ht
      omega
  refresh := by
    refine h.refresh.elapse (fun e => e.aliveAt (r.now + d) = true)
      (fun k e => advance_refresh) ?_ (fun _ _ => trivial)
    intro s t hl _
    rw [refreshEntry, Entry.aliveAt_some]
    simp
  session s t hl := by
    obtain ⟨hl, hnow⟩ := Ledger.elapse_eq_some.1 hl
    obtain ⟨data, hs, hdata⟩ := h.session s t hl
    exact ⟨data, advance_session.2 ⟨hs, Entry.aliveAt_some.2 hnow⟩, hdata⟩
  dead s hl := by
    cases hs : (r.advance d).session s with
    | none => rfl
    | some e =>
      obtain ⟨he, halive⟩ := advance_session.1 hs
      cases hls : l s with
      | none => simp [h.dead s hls] at he
      | some t =>
        obtain ⟨data, hdata, -⟩ := h.session s t hls
        rw [hdata, Option.some.injEq] at he
        subst he
        have hnow := Entry.aliveAt_some.1 halive
        simp [Ledger.elapse_eq_some.2 ⟨hls, hnow⟩] at hl
  accessSeparates := h.accessSeparates.mono (fun s t hl => (Ledger.elapse_eq_some.1 hl).1)
  renewalSeparates := h.renewalSeparates.mono (fun s t hl => (Ledger.elapse_eq_some.1 hl).1)
  timely s t hl := by
    obtain ⟨hl, hnow⟩ := Ledger.elapse_eq_some.1 hl
    obtain ⟨-, h1, h2⟩ := h.timely s t hl
    rw [advance_now]
    exact ⟨hnow, h1, by omega⟩
  written s t hl := h.written s t (Ledger.elapse_eq_some.1 hl).1

end Steps

/-- What has been drawn at random so far; sessions with the user they were opened for. -/
structure Drawn where
  sessions : List (UUID × UUID)
  jtis : List String
  refreshTokens : List String

def Drawn.none : Drawn := ⟨[], [], []⟩

/-- After a login: if a session hash is there, its user is the one the session was created for. -/
def Drawn.opened (sid : UUID) (jti token : String) (r' : Redis) (drawn : Drawn) : Drawn :=
  { sessions :=
      match (r'.session.value sid).bind SessionHash.userId with
      | some uid => (sid, uid) :: drawn.sessions
      | Option.none => drawn.sessions
    jtis := jti :: drawn.jtis
    refreshTokens := token :: drawn.refreshTokens }

def Drawn.renewed (jti token : String) (drawn : Drawn) : Drawn :=
  ⟨drawn.sessions, jti :: drawn.jtis, token :: drawn.refreshTokens⟩

/-- The store and the ledger only know what was drawn, and no session was opened twice. -/
structure Recorded (drawn : Drawn) (r : Redis) (l : SessionLedger) : Prop where
  owner : ∀ s t, l s = some t → (s, t.owner) ∈ drawn.sessions
  jti : ∀ s t, l s = some t → t.access ∈ drawn.jtis
  token : ∀ s t, l s = some t → t.renewal ∈ drawn.refreshTokens
  member : ∀ u ids, r.sessions.value u = some ids → ∀ s ∈ ids, s ∈ drawn.sessions.map Prod.fst
  once : (drawn.sessions.map Prod.fst).Nodup

structure Consistent (ttl : ℕ) (drawn : Drawn) (r : Redis) (l : SessionLedger) : Prop where
  coupled : Coupled ttl r l
  indexed : Indexed r l
  recorded : Recorded drawn r l

theorem consistent_blank (ttl now : ℕ) :
    Consistent ttl Drawn.none (Redis.blank now) Ledger.empty where
  coupled := coupled_blank now
  indexed := indexed_blank now
  recorded := by
    constructor
    · intro s t h; simp [Ledger.empty] at h
    · intro s t h; simp [Ledger.empty] at h
    · intro s t h; simp [Ledger.empty] at h
    · intro u ids h; simp [Redis.blank, ExpiringMap.empty, ExpiringMap.value] at h
    · exact List.nodup_nil

theorem Recorded.mono {drawn drawn' : Drawn} {r : Redis} {l : SessionLedger} (h : Recorded drawn r l)
    (hs : drawn'.sessions = drawn.sessions) (hj : drawn.jtis ⊆ drawn'.jtis)
    (ht : drawn.refreshTokens ⊆ drawn'.refreshTokens) : Recorded drawn' r l :=
  ⟨fun s t hl => hs ▸ h.owner s t hl, fun s t hl => hj (h.jti s t hl),
    fun s t hl => ht (h.token s t hl), fun u ids hi s hm => hs ▸ h.member u ids hi s hm, hs ▸ h.once⟩

theorem Consistent.mono {ttl : ℕ} {drawn drawn' : Drawn} {r : Redis} {l : SessionLedger}
    (h : Consistent ttl drawn r l) (hs : drawn'.sessions = drawn.sessions)
    (hj : drawn.jtis ⊆ drawn'.jtis) (ht : drawn.refreshTokens ⊆ drawn'.refreshTokens) :
    Consistent ttl drawn' r l :=
  ⟨h.coupled, h.indexed, h.recorded.mono hs hj ht⟩

section Operations
variable {drawn : Drawn} {r : Redis} {l : SessionLedger} {accessTtl refreshTtl : ℕ}

def freshTicket (uid : UUID) (jti token : String) (accessTtl refreshTtl now : ℕ) :
    Ticket UUID String :=
  ⟨uid, jti, token, now + seconds accessTtl, now + seconds refreshTtl⟩

theorem Recorded.issue (h : Recorded drawn r l) {drawn' : Drawn} {r' : Redis} {sid : UUID}
    {t : Ticket UUID String} (hs : ∀ x, x ∈ drawn.sessions → x ∈ drawn'.sessions)
    (hj : ∀ x, x ∈ drawn.jtis → x ∈ drawn'.jtis)
    (ht : ∀ x, x ∈ drawn.refreshTokens → x ∈ drawn'.refreshTokens)
    (hsid : (sid, t.owner) ∈ drawn'.sessions) (hjti : t.access ∈ drawn'.jtis)
    (htoken : t.renewal ∈ drawn'.refreshTokens)
    (hmem : ∀ u ids, r'.sessions.value u = some ids → ∀ s ∈ ids, s ∈ drawn'.sessions.map Prod.fst)
    (honce : (drawn'.sessions.map Prod.fst).Nodup) : Recorded drawn' r' (l.issue sid t) := by
  refine ⟨?_, ?_, ?_, hmem, honce⟩
  all_goals
    intro s t' hl
    rw [Ledger.issue_apply] at hl
    split_ifs at hl with heq
  · rw [Option.some.injEq] at hl
    subst hl heq
    exact hsid
  · exact hs _ (h.owner s t' hl)
  · exact Option.some.inj hl ▸ hjti
  · exact hj _ (h.jti s t' hl)
  · exact Option.some.inj hl ▸ htoken
  · exact ht _ (h.token s t' hl)

theorem consistent_create (h : Consistent (seconds refreshTtl) drawn r l) (hpos : 0 < accessTtl)
    (hle : accessTtl ≤ refreshTtl) {nowIso : String} {sid uid : UUID} {jti token : String}
    {device : Option String} (hsid : sid ∉ drawn.sessions.map Prod.fst) (hjti : jti ∉ drawn.jtis)
    (htoken : token ∉ drawn.refreshTokens) (hj : jti ≠ "") (ht : token ≠ "") :
    Consistent (seconds refreshTtl)
      (drawn.opened sid jti token
        (createPipeline nowIso sid uid jti token device accessTtl refreshTtl r))
      (createPipeline nowIso sid uid jti token device accessTtl refreshTtl r)
      (l.issue sid (freshTicket uid jti token accessTtl refreshTtl r.now)) := by
  have hdrawn : drawn.opened sid jti token
      (createPipeline nowIso sid uid jti token device accessTtl refreshTtl r) =
        ⟨(sid, uid) :: drawn.sessions, jti :: drawn.jtis, token :: drawn.refreshTokens⟩ := by
    simp [Drawn.opened, ExpiringMap.value, create_session, SessionHash.opened]
  rw [hdrawn]
  have hdead : l sid = none := by
    cases hl : l sid with
    | none => rfl
    | some t => exact absurd (List.mem_map_of_mem (h.recorded.owner sid t hl)) hsid
  have hA := seconds_pos hpos
  have hAR := seconds_le hle
  refine ⟨?_, ?_, ?_⟩
  · refine h.coupled.issue _ rfl ?_ ?_ (create_session _ _ _ _ _ _ _ _ _) ⟨rfl, rfl, rfl⟩ ?_ ?_ ⟨hj, ht⟩
    · intro j
      rw [create_access, hdead]
      simp [accessEntry, freshTicket]
    · intro k
      rw [create_refresh, hdead]
      simp [refreshEntry, freshTicket]
    · intro s old hl
      refine ⟨fun he => hjti ?_, fun he => htoken ?_⟩
      · exact (show old.access = jti from he) ▸ h.recorded.jti s old hl
      · exact (show old.renewal = token from he) ▸ h.recorded.token s old hl
    · simp only [freshTicket]
      omega
  · constructor
    · intro s t hl
      rw [Ledger.issue_apply] at hl
      rw [create_sessions]
      split_ifs at hl with hs
      · rw [Option.some.injEq] at hl
        subst hl hs
        exact ⟨_, _, if_pos rfl, mem_sadd.2 (.inl rfl), le_rfl⟩
      · obtain ⟨ids, d, hids, hmem, hd⟩ := h.indexed.listed s t hl
        by_cases hu : t.owner = uid
        · refine ⟨_, _, if_pos hu, ?_, (h.coupled.timely s t hl).2.2⟩
          rw [mem_sadd, ← hu, ExpiringMap.value_of_entry hids]
          exact .inr hmem
        · exact ⟨ids, d, by rw [if_neg hu, hids], hmem, hd⟩
    · intro u ids hids s hs t hl
      rw [Ledger.issue_apply] at hl
      obtain ⟨rfl, rfl⟩ | ⟨old, hold, hs⟩ := create_member hids hs
      · rw [if_pos rfl, Option.some.injEq] at hl
        rw [← hl, freshTicket]
      · split_ifs at hl with hsid'
        · subst hsid'
          exact absurd (h.recorded.member u old hold s hs) hsid
        · exact h.indexed.own u old hold s hs t hl
  · refine h.recorded.issue (fun _ => List.mem_cons_of_mem _) (fun _ => List.mem_cons_of_mem _)
      (fun _ => List.mem_cons_of_mem _) List.mem_cons_self List.mem_cons_self List.mem_cons_self ?_
      (List.nodup_cons.2 ⟨hsid, h.recorded.once⟩)
    intro u ids hids s hs
    rw [List.map_cons]
    obtain ⟨-, rfl⟩ | ⟨old, hold, hs⟩ := create_member hids hs
    · exact List.mem_cons_self
    · exact List.mem_cons_of_mem _ (h.recorded.member u old hold s hs)

theorem Consistent.opened_sessions {ttl : ℕ} (h : Consistent ttl drawn r l) {sid : UUID}
    (jti token : String) (hsid : sid ∉ drawn.sessions.map Prod.fst) :
    (drawn.opened sid jti token r).sessions = drawn.sessions := by
  have hnone : r.session.value sid = none := by
    cases hv : r.session.value sid with
    | none => rfl
    | some data =>
      obtain ⟨t, hl, -⟩ := h.coupled.session_value hv
      exact absurd (List.mem_map_of_mem (h.recorded.owner _ t hl)) hsid
  simp only [Drawn.opened, hnone, Option.bind_none]

theorem Consistent.opened_of_untouched {ttl : ℕ} (h : Consistent ttl drawn r l) {sid : UUID}
    {jti token : String} (hsid : sid ∉ drawn.sessions.map Prod.fst) :
    Consistent ttl (drawn.opened sid jti token r) r l :=
  h.mono (h.opened_sessions jti token hsid) (List.subset_cons_self _ _) (List.subset_cons_self _ _)

theorem consistent_rotate (h : Consistent (seconds refreshTtl) drawn r l) (hpos : 0 < accessTtl)
    (hle : accessTtl ≤ refreshTtl) {nowIso : String} {sid : UUID} {old : Ticket UUID String}
    {jti token : String} (hl : l sid = some old) (hjti : jti ∉ drawn.jtis)
    (htoken : token ∉ drawn.refreshTokens) (hj : jti ≠ "") (ht : token ≠ "") :
    Consistent (seconds refreshTtl) (drawn.renewed jti token)
      (rotatePipeline nowIso sid old.owner old.access old.renewal jti token accessTtl refreshTtl
        (getdel old.renewal r).2)
      (l.issue sid (freshTicket old.owner jti token accessTtl refreshTtl r.now)) := by
  have hA := seconds_pos hpos
  have hAR := seconds_le hle
  obtain ⟨hwa, hwr⟩ := h.coupled.written sid old hl
  obtain ⟨data, hdata, hu, -, -⟩ := h.coupled.session sid old hl
  have hsess : ∀ u, (rotatePipeline nowIso sid old.owner old.access old.renewal jti token accessTtl
      refreshTtl (getdel old.renewal r).2).sessions u = if u = old.owner then
        (r.sessions u).map (fun e => ⟨e.value, some (r.now + seconds refreshTtl)⟩)
      else r.sessions u := fun u => rotate_sessions _ _ _ _ _ _ _ _ _ _ u
  -- The rotation gives an index a new lifetime, and no index new members.
  have hmembers : ∀ {u : UUID} {ids : List UUID}, (rotatePipeline nowIso sid old.owner old.access
      old.renewal jti token accessTtl refreshTtl (getdel old.renewal r).2).sessions.value u = some ids →
        r.sessions.value u = some ids := by
    intro u ids hids
    rw [ExpiringMap.value, hsess] at hids
    split_ifs at hids with hu'
    · rw [Option.map_map] at hids
      exact hids
    · exact hids
  refine ⟨?_, ?_, ?_⟩
  · refine h.coupled.issue (data.rotated nowIso jti token) rfl ?_ ?_ ?_ ⟨hu, rfl, rfl⟩ ?_ ?_
      ⟨hj, ht⟩
    · intro j
      rw [rotate_access, hl]
      simp only [Option.map_some, Option.some.injEq, ne_eq, hwa, not_false_eq_true, true_and,
        eq_comm (a := old.access)]
      rfl
    · intro k
      rw [rotate_refresh, hl]
      simp only [getdel, ExpiringMap.remove_apply, Option.map_some, Option.some.injEq,
        eq_comm (a := old.renewal)]
      by_cases hk : k = old.renewal <;> simp [hk, refreshEntry, freshTicket]
    · intro s
      rw [rotate_session]
      have hv : (getdel old.renewal r).2.session.value sid = some data :=
        ExpiringMap.value_of_entry hdata
      rw [hv]
      rfl
    · intro s t hs
      refine ⟨fun he => hjti ?_, fun he => htoken ?_⟩
      · exact (show t.access = jti from he) ▸ h.recorded.jti s t hs
      · exact (show t.renewal = token from he) ▸ h.recorded.token s t hs
    · simp only [freshTicket]
      omega
  · constructor
    · intro s t hs
      rw [hsess]
      have hold : ∃ t', l s = some t' ∧ t'.owner = t.owner ∧ t.validUntil ≤ r.now + seconds refreshTtl ∧
          (t.owner = old.owner ∨ t.validUntil = t'.validUntil) := by
        rw [Ledger.issue_apply] at hs
        split_ifs at hs with heq
        · rw [Option.some.injEq] at hs
          subst hs heq
          exact ⟨old, hl, rfl, le_rfl, .inl rfl⟩
        · exact ⟨t, hs, rfl, (h.coupled.timely s t hs).2.2, .inr rfl⟩
      obtain ⟨t', ht', howner, hle', hor⟩ := hold
      obtain ⟨ids, d, hids, hmem, hd⟩ := h.indexed.listed s t' ht'
      rw [howner] at hids
      by_cases hu' : t.owner = old.owner
      · exact ⟨ids, _, by rw [if_pos hu', hids, Option.map_some], hmem, hle'⟩
      · exact ⟨ids, d, by rw [if_neg hu', hids], hmem, (hor.resolve_left hu') ▸ hd⟩
    · intro u ids hids s hs t hst
      rw [Ledger.issue_apply] at hst
      split_ifs at hst with heq
      · rw [Option.some.injEq] at hst
        subst hst heq
        exact h.indexed.own u ids (hmembers hids) s hs old hl
      · exact h.indexed.own u ids (hmembers hids) s hs t hst
  · refine h.recorded.issue (fun _ => id) (fun _ => List.mem_cons_of_mem _)
      (fun _ => List.mem_cons_of_mem _) (h.recorded.owner sid old hl) List.mem_cons_self
      List.mem_cons_self ?_ h.recorded.once
    intro u ids hids
    exact h.recorded.member u ids (hmembers hids)

theorem Coupled.after_revokeOne (h : Coupled (seconds refreshTtl) r l) (sid : UUID) :
    Coupled (seconds refreshTtl) (revokeOne sid r) (l.close sid) := by
  cases hl : l sid with
  | none =>
    have hsame : l.close sid = l := by
      funext s
      rw [Ledger.close_apply]
      split_ifs with hs
      · rw [hs, hl]
      · rfl
    have hv : r.session.value sid = none := ExpiringMap.value_eq_none.2 (h.dead sid hl)
    simp only [RedisSessions.revokeOne, hv, hsame]
    exact h
  | some t =>
    obtain ⟨data, hdata, -, hj, hk⟩ := h.session sid t hl
    obtain ⟨hwa, hwr⟩ := h.written sid t hl
    simp only [RedisSessions.revokeOne, ExpiringMap.value_of_entry hdata]
    refine h.close rfl ?_ ?_ (revoke_session _ _ _)
    · intro j
      simp only [revoke_access, hj, hl, Option.getD_some, ne_eq, hwa, not_false_eq_true, true_and,
        Option.map_some, Option.some.injEq, eq_comm (a := t.access)]
    · intro k
      simp only [revoke_refresh, hk, hl, Option.getD_some, ne_eq, hwr, not_false_eq_true, true_and,
        Option.map_some, Option.some.injEq, eq_comm (a := t.renewal)]

theorem Coupled.sessions_revokeOne (h : Coupled (seconds refreshTtl) r l) (sid : UUID) :
    (revokeOne sid r).sessions = r.sessions ∨
      ∃ t, l sid = some t ∧ (revokeOne sid r).sessions = srem t.owner sid r.sessions := by
  cases hl : l sid with
  | none =>
    have hv : r.session.value sid = none := ExpiringMap.value_eq_none.2 (h.dead sid hl)
    exact .inl (by simp only [revokeOne, hv])
  | some t =>
    obtain ⟨data, hdata, hu, -, -⟩ := h.session sid t hl
    refine .inr ⟨t, rfl, ?_⟩
    simp only [revokeOne, ExpiringMap.value_of_entry hdata, revokePipeline, hu]

theorem consistent_revokeOne (h : Consistent (seconds refreshTtl) drawn r l) (sid : UUID) :
    Consistent (seconds refreshTtl) drawn (revokeOne sid r) (l.close sid) := by
  have hsub : ∀ u ids, (revokeOne sid r).sessions.value u = some ids →
      ∃ ids', r.sessions.value u = some ids' ∧ ids ⊆ ids' := by
    intro u ids hids
    rcases h.coupled.sessions_revokeOne sid with heq | ⟨t, -, heq⟩
    · exact ⟨ids, heq ▸ hids, fun _ => id⟩
    · rw [heq] at hids
      exact srem_subset hids
  refine ⟨h.coupled.after_revokeOne sid, ⟨?_, ?_⟩, ⟨?_, ?_, ?_, ?_, h.recorded.once⟩⟩
  · intro s t hs
    obtain ⟨hne, hs⟩ := Ledger.close_eq_some.1 hs
    obtain ⟨ids, d, hids, hmem, hd⟩ := h.indexed.listed s t hs
    rcases h.coupled.sessions_revokeOne sid with heq | ⟨t', -, heq⟩
    · exact ⟨ids, d, heq ▸ hids, hmem, hd⟩
    · obtain ⟨e', he', hdl, hmem'⟩ := @srem_keeps t'.owner sid t.owner s _ _ hids hmem hne
      obtain ⟨ids', d'⟩ := e'
      simp only at hdl hmem'
      subst hdl
      exact ⟨ids', d, by rw [heq, he'], hmem', hd⟩
  · intro u ids hids s hs t hst
    obtain ⟨ids', hids', hle⟩ := hsub u ids hids
    exact h.indexed.own u ids' hids' s (hle hs) t (Ledger.close_eq_some.1 hst).2
  · exact fun s t hs => h.recorded.owner s t (Ledger.close_eq_some.1 hs).2
  · exact fun s t hs => h.recorded.jti s t (Ledger.close_eq_some.1 hs).2
  · exact fun s t hs => h.recorded.token s t (Ledger.close_eq_some.1 hs).2
  · intro u ids hids s hs
    obtain ⟨ids', hids', hle⟩ := hsub u ids hids
    exact h.recorded.member u ids' hids' s (hle hs)

theorem Coupled.after_revokeList (uid : UUID) (ids : List UUID) {r : Redis} {l : SessionLedger}
    (h : Coupled (seconds refreshTtl) r l) (hown : ∀ s ∈ ids, ∀ t, l s = some t → t.owner = uid)
    (hnone : r.sessions uid = none) :
    Coupled (seconds refreshTtl) (revokeList ids r) (l.closeList ids) ∧
      (revokeList ids r).sessions = r.sessions := by
  induction ids generalizing r l with
  | nil =>
    rw [Ledger.closeList_nil]
    exact ⟨h, rfl⟩
  | cons sid rest ih =>
    have hsess : (revokeOne sid r).sessions = r.sessions := by
      rcases h.sessions_revokeOne sid with heq | ⟨t, hl, heq⟩
      · exact heq
      · rw [heq, hown sid (by simp) t hl]
        funext u
        by_cases hu : u = uid
        · rw [hu, hnone, srem_none hnone]
        · exact srem_other _ hu
    have hstep := ih (h.after_revokeOne sid) (fun s hs t hst =>
      hown s (by simp [hs]) t (Ledger.close_eq_some.1 hst).2) (by rw [hsess, hnone])
    rw [Ledger.closeList_cons, RedisSessions.revokeList]
    exact ⟨hstep.1, hstep.2.trans hsess⟩

theorem Consistent.after_revokeAll (h : Consistent (seconds refreshTtl) drawn r l) (uid : UUID) :
    Coupled (seconds refreshTtl) (revokeAll uid r) (l.closeOwned uid) ∧
      (revokeAll uid r).sessions = r.sessions.remove uid := by
  have hown : ∀ s ∈ (r.sessions.value uid).getD [], ∀ t, l s = some t → t.owner = uid := by
    intro s hs t hst
    cases hv : r.sessions.value uid with
    | none => simp [hv] at hs
    | some ids =>
      rw [hv] at hs
      exact h.indexed.own uid ids hv s hs t hst
  have hclosed : l.closeList ((r.sessions.value uid).getD []) = l.closeOwned uid := by
    funext s
    cases hs : l s with
    | none => simp [Ledger.closeList, Ledger.closeOwned, hs]
    | some t =>
      by_cases hu : t.owner = uid
      · obtain ⟨ids, d, hids, hmem, -⟩ := h.indexed.listed s t hs
        rw [hu] at hids
        simp [Ledger.closeList, Ledger.closeOwned, Option.filter, hs, hu,
          ExpiringMap.value_of_entry hids,
          hmem]
      · have hmem : s ∉ (r.sessions.value uid).getD [] := fun hm => hu (hown s hm t hs)
        simp [Ledger.closeList, Ledger.closeOwned, Option.filter, hs, hu, hmem]
  have hr : Coupled (seconds refreshTtl) { r with sessions := r.sessions.remove uid } l :=
    ⟨h.coupled.access, h.coupled.refresh, h.coupled.session, h.coupled.dead,
      h.coupled.accessSeparates, h.coupled.renewalSeparates, h.coupled.timely, h.coupled.written⟩
  obtain ⟨hc, hsess⟩ := hr.after_revokeList uid _ hown (by simp [ExpiringMap.remove_apply])
  rw [hclosed] at hc
  exact ⟨hc, hsess⟩

theorem consistent_revokeAll (h : Consistent (seconds refreshTtl) drawn r l) (uid : UUID) :
    Consistent (seconds refreshTtl) drawn (revokeAll uid r) (l.closeOwned uid) := by
  obtain ⟨hc, hsess⟩ := h.after_revokeAll uid
  have hsub : ∀ u ids, (revokeAll uid r).sessions.value u = some ids →
      u ≠ uid ∧ r.sessions.value u = some ids := by
    intro u ids hids
    rw [ExpiringMap.value, hsess, ExpiringMap.remove_apply] at hids
    split_ifs at hids with hu
    · simp at hids
    · exact ⟨hu, hids⟩
  refine ⟨hc, ⟨?_, ?_⟩, ⟨?_, ?_, ?_, ?_, h.recorded.once⟩⟩
  · intro s t hs
    obtain ⟨hs, hu⟩ := Ledger.closeOwned_eq_some.1 hs
    obtain ⟨ids, d, hids, hmem, hd⟩ := h.indexed.listed s t hs
    refine ⟨ids, d, ?_, hmem, hd⟩
    rw [hsess, ExpiringMap.remove_apply, if_neg hu, hids]
  · intro u ids hids s hs t hst
    exact h.indexed.own u ids (hsub u ids hids).2 s hs t (Ledger.closeOwned_eq_some.1 hst).1
  · exact fun s t hs => h.recorded.owner s t (Ledger.closeOwned_eq_some.1 hs).1
  · exact fun s t hs => h.recorded.jti s t (Ledger.closeOwned_eq_some.1 hs).1
  · exact fun s t hs => h.recorded.token s t (Ledger.closeOwned_eq_some.1 hs).1
  · exact fun u ids hids => h.recorded.member u ids (hsub u ids hids).2

theorem consistent_advance (h : Consistent (seconds refreshTtl) drawn r l) (d : ℕ) :
    Consistent (seconds refreshTtl) drawn (r.advance d) (l.elapse (r.now + d)) := by
  have hsub : ∀ u ids, (r.advance d).sessions.value u = some ids →
      r.sessions.value u = some ids := by
    intro u ids hids
    obtain ⟨e, he, rfl⟩ := Option.map_eq_some_iff.1 hids
    exact ExpiringMap.value_of_entry (advance_sessions.1 he).1
  refine ⟨h.coupled.elapse d, ⟨?_, ?_⟩, ⟨?_, ?_, ?_, ?_, h.recorded.once⟩⟩
  · intro s t hs
    obtain ⟨hs, hnow⟩ := Ledger.elapse_eq_some.1 hs
    obtain ⟨ids, dl, hids, hmem, hd⟩ := h.indexed.listed s t hs
    exact ⟨ids, dl, advance_sessions.2 ⟨hids, Entry.aliveAt_some.2 (lt_of_lt_of_le hnow hd)⟩, hmem, hd⟩
  · exact fun u ids hids s hs t hst =>
      h.indexed.own u ids (hsub u ids hids) s hs t (Ledger.elapse_eq_some.1 hst).1
  · exact fun s t hs => h.recorded.owner s t (Ledger.elapse_eq_some.1 hs).1
  · exact fun s t hs => h.recorded.jti s t (Ledger.elapse_eq_some.1 hs).1
  · exact fun s t hs => h.recorded.token s t (Ledger.elapse_eq_some.1 hs).1
  · exact fun u ids hids => h.recorded.member u ids (hsub u ids hids)

theorem Coupled.refresh_value (h : Coupled (seconds refreshTtl) r l) {token raw : String}
    (hv : r.refresh.value token = some raw) :
    ∃ s t, l s = some t ∧ t.renewal = token ∧ raw = payload t.owner s := by
  obtain ⟨e, he, rfl⟩ := Option.map_eq_some_iff.1 hv
  obtain ⟨s, t, hs, ht, -, rfl⟩ := (h.refresh token e).1 he
  exact ⟨s, t, hs, ht, rfl⟩

end Operations

end AuthService.SessionCoupling
