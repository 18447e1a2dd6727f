import AuthService.SampleContainer
import AuthService.SessionThreads

set_option autoImplicit false

/-! Bulk revocations next to logins: which live sessions the set of their user lists. -/
namespace AuthService.BulkRevocation
open Uuids ExpiringMaps RedisSessions RequestPorts CommandHandlers LabelledRuns ThreadPools
open SessionThreads

def bulk : SessionThread → Bool
  | .login _ _ _ => true
  | .loggedIn _ => true
  | .revokeAll _ => true
  | .clearing _ _ => true
  | .revokeEach _ _ => true
  | .revokingEach _ _ _ _ => true
  | .returned _ => true
  | _ => false

def todo : SessionThread → List UUID
  | .revokeEach _ ids => ids
  | .revokingEach _ sid _ rest => sid :: rest
  | _ => []

@[simp] theorem todo_loop (gone ids : List UUID) : todo (SessionThread.loop gone ids) = ids := by
  cases ids <;> rfl

@[simp] theorem bulk_loop (gone ids : List UUID) : bulk (SessionThread.loop gone ids) = true := by
  cases ids <;> rfl

theorem loop_ne_clearing (gone ids : List UUID) (u : UUID) (ids' : List UUID) :
    SessionThread.loop gone ids ≠ .clearing u ids' := by
  cases ids <;> simp [SessionThread.loop]

inductive BulkStep (g : GlobalContainer) (r : Redis) :
    SessionThread → Redis → SessionThread → Prop where
  | login (u : UUID) (device : Option String) (d : LoginDraws) :
      BulkStep g r (.login u device d)
        (createPipeline (g.isoformat r.now) d.sessionId u d.jti.str d.refreshToken.text device
          g.accessTokenTtlSeconds g.refreshTokenTtlSeconds r) (.loggedIn d)
  | members (u : UUID) :
      BulkStep g r (.revokeAll u) r (.clearing u ((r.sessions.value u).getD []))
  | clear (u : UUID) (ids : List UUID) :
      BulkStep g r (.clearing u ids) { r with sessions := r.sessions.remove u }
        (SessionThread.loop [] ids)
  | gone (gone : List UUID) (sid : UUID) (rest : List UUID) (absent : r.session sid = none) :
      BulkStep g r (.revokeEach gone (sid :: rest)) r (SessionThread.loop gone rest)
  | found (gone : List UUID) (sid : UUID) (rest : List UUID) (data : SessionHash) :
      BulkStep g r (.revokeEach gone (sid :: rest)) r (.revokingEach gone sid data rest)
  | revoke (gone : List UUID) (sid : UUID) (data : SessionHash) (rest : List UUID) :
      BulkStep g r (.revokingEach gone sid data rest) (revokePipeline sid data r)
        (SessionThread.loop (sid :: gone) rest)

theorem bulkStep_of_step {g : GlobalContainer} {r r' : Redis} {t t' : SessionThread}
    (hb : bulk t = true) (h : t.step g r = some (r', t')) : BulkStep g r t r' t' := by
  cases t with
  | login u device d => cases h; exact .login u device d
  | revokeAll u => cases h; exact .members u
  | clearing u ids => cases h; exact .clear u ids
  | revokeEach gone ids =>
    cases ids with
    | nil => simp [SessionThread.step] at h
    | cons sid rest =>
      cases h
      cases hv : r.session.value sid with
      | none => exact .gone gone sid rest (ExpiringMap.value_eq_none.1 hv)
      | some data => exact .found gone sid rest data
  | revokingEach gone sid data rest => cases h; exact .revoke gone sid data rest
  | loggedIn d => simp [SessionThread.step] at h
  | returned gone => simp [SessionThread.step] at h
  | _ => simp [bulk] at hb

section Pool
variable {ι : Type} [DecidableEq ι] {g : GlobalContainer}

/-- No login of a user between the SMEMBERS and the DEL of a bulk revocation for them. -/
def Apart (v : Pool ι Redis SessionThread) (l : Turn ι) : Prop :=
  ∀ i, l = .run i → ∀ u device d, v.thread i = .login u device d →
    ∀ j ids, v.thread j ≠ .clearing u ids

/-- The set of the user lists the session for as long as the session may live. -/
def Member (r : Redis) (u s : UUID) (d : ℕ) : Prop :=
  ∃ ids d', r.sessions u = some ⟨ids, some d'⟩ ∧ s ∈ ids ∧ d ≤ d'

section Member
variable {r : Redis} {nowIso jti token : String} {u v s sid : UUID} {device : Option String}
variable {accessTtl refreshTtl d : ℕ}

theorem member_create :
    Member (createPipeline nowIso sid u jti token device accessTtl refreshTtl r) u sid
      (r.now + seconds refreshTtl) := by
  refine ⟨sadd sid ((r.sessions.value u).getD []), r.now + seconds refreshTtl, ?_,
    mem_sadd.2 (.inl rfl), le_refl _⟩
  rw [create_sessions, if_pos rfl]

theorem Member.create (h : Member r v s d) (hd : d ≤ r.now + seconds refreshTtl) :
    Member (createPipeline nowIso sid u jti token device accessTtl refreshTtl r) v s d := by
  obtain ⟨ids, d', hids, hmem, hle⟩ := h
  by_cases hv : v = u
  · subst hv
    refine ⟨sadd sid ids, r.now + seconds refreshTtl, ?_, mem_sadd.2 (.inr hmem), hd⟩
    rw [create_sessions, if_pos rfl, ExpiringMap.value_of_entry hids, Option.getD_some]
  · exact ⟨ids, d', by rw [create_sessions, if_neg hv, hids], hmem, hle⟩

theorem Member.advance {δ : ℕ} (h : Member r v s d) (hd : r.now + δ < d) :
    Member (r.advance δ) v s d := by
  obtain ⟨ids, d', hids, hmem, hle⟩ := h
  exact ⟨ids, d', advance_sessions.2 ⟨hids, Entry.aliveAt_some.2 (by omega)⟩, hmem, hle⟩

theorem Member.revoke {data : SessionHash} (h : Member r v s d) (hs : s ≠ sid) :
    Member (revokePipeline sid data r) v s d := by
  obtain ⟨ids, d', hids, hmem, hle⟩ := h
  cases hdata : data.userId with
  | none => exact ⟨ids, d', by simpa only [revokePipeline, hdata] using hids, hmem, hle⟩
  | some u =>
    obtain ⟨⟨ids', dead⟩, he', hdead, hmem'⟩ := srem_keeps (m := r.sessions) hids hmem hs
    simp only at hdead hmem'
    subst hdead
    exact ⟨ids', d', by simpa only [revokePipeline, hdata] using he', hmem', hle⟩

theorem revoke_subset {data : SessionHash} {members : List UUID}
    (hm : (revokePipeline sid data r).sessions.value v = some members) :
    ∃ old, r.sessions.value v = some old ∧ members ⊆ old := by
  cases hdata : data.userId with
  | none =>
    simp only [revokePipeline, hdata] at hm
    exact ⟨members, hm, List.Subset.refl _⟩
  | some u =>
    simp only [revokePipeline, hdata] at hm
    exact srem_subset hm

end Member

def Due (v : Pool ι Redis SessionThread) (s : UUID) : Prop := ∃ j, s ∈ todo (v.thread j)

structure Listed (g : GlobalContainer) (v : Pool ι Redis SessionThread) : Prop where
  kinds : ∀ i, bulk (v.thread i) = true
  sessions : ∀ s e, v.shared.session s = some e → ∃ u d, e.value.userId = some u ∧
    e.deadline = some d ∧ d ≤ v.shared.now + seconds g.refreshTokenTtlSeconds ∧
    (Member v.shared u s d ∨ Due v s)
  cleared : ∀ i u ids, v.thread i = .clearing u ids →
    ∀ members, v.shared.sessions.value u = some members → members ⊆ ids

theorem Due.update {v : Pool ι Redis SessionThread} {i : ι} {r : Redis} {t : SessionThread} {s : UUID}
    (h : Due v s) (ht : s ∈ todo (v.thread i) → s ∈ todo t) :
    Due ⟨r, Function.update v.thread i t⟩ s := by
  obtain ⟨j, hj⟩ := h
  by_cases hji : j = i
  · subst hji
    exact ⟨j, by simpa using ht hj⟩
  · exact ⟨j, by simpa [Function.update_of_ne hji] using hj⟩

theorem kinds_update {v : Pool ι Redis SessionThread} (h : ∀ i, bulk (v.thread i) = true) {i : ι}
    {t : SessionThread} (ht : bulk t = true) (j : ι) :
    bulk (Function.update v.thread i t j) = true := by
  by_cases hj : j = i
  · subst hj
    simpa using ht
  · simpa [Function.update_of_ne hj] using h j

theorem clearing_update {v : Pool ι Redis SessionThread} {i j : ι} {t : SessionThread} {u : UUID}
    {ids : List UUID} (ht : t ≠ .clearing u ids)
    (h : Function.update v.thread i t j = .clearing u ids) : v.thread j = .clearing u ids := by
  by_cases hj : j = i
  · subst hj
    exact absurd (by simpa using h) ht
  · simpa [Function.update_of_ne hj] using h

theorem listed_login {v : Pool ι Redis SessionThread} {i : ι} {u : UUID} {device : Option String}
    {d : LoginDraws} (h : Listed g v) (ht : v.thread i = .login u device d)
    (hC : ∀ j ids, v.thread j ≠ .clearing u ids) (nowIso : String) :
    Listed g ⟨createPipeline nowIso d.sessionId u d.jti.str d.refreshToken.text device
      g.accessTokenTtlSeconds g.refreshTokenTtlSeconds v.shared,
      Function.update v.thread i (.loggedIn d)⟩ := by
  refine ⟨kinds_update h.kinds rfl, ?_, ?_⟩
  · intro s e he
    simp only [create_now]
    rw [create_session] at he
    split_ifs at he with hsid
    · subst hsid
      obtain rfl := Option.some.inj he
      exact ⟨u, v.shared.now + seconds g.refreshTokenTtlSeconds, rfl, rfl, le_refl _,
        .inl member_create⟩
    · obtain ⟨u', d', hu, hd, hle, hm | hdue⟩ := h.sessions s e he
      · exact ⟨u', d', hu, hd, hle, .inl (hm.create hle)⟩
      · exact ⟨u', d', hu, hd, hle, .inr (hdue.update (by simp [ht, todo]))⟩
  · intro j u' ids hj members hm
    have hj' := clearing_update (by simp) hj
    have hne : u' ≠ u := by
      rintro rfl
      exact hC j ids hj'
    refine h.cleared j u' ids hj' members ?_
    simp only [ExpiringMap.value, create_sessions, if_neg hne] at hm
    exact hm

/-- A step of a bulk revocation: no session is opened, the sets shrink, and what a set no longer
lists is still to be revoked. -/
theorem Listed.keep {v : Pool ι Redis SessionThread} (h : Listed g v) {i : ι} {r : Redis}
    {t : SessionThread} (hbulk : bulk t = true) (hnow : r.now = v.shared.now)
    (hsessions : ∀ s e, r.session s = some e → v.shared.session s = some e)
    (hmember : ∀ u s d, r.session s ≠ none → Member v.shared u s d → Member r u s d ∨ s ∈ todo t)
    (htodo : ∀ s, r.session s ≠ none → s ∈ todo (v.thread i) → s ∈ todo t)
    (hsets : ∀ u members, r.sessions.value u = some members →
      ∃ old, v.shared.sessions.value u = some old ∧ members ⊆ old)
    (hclearing : ∀ u ids, t = .clearing u ids →
      ∀ members, r.sessions.value u = some members → members ⊆ ids) :
    Listed g ⟨r, Function.update v.thread i t⟩ := by
  refine ⟨kinds_update h.kinds hbulk, ?_, ?_⟩
  · intro s e he
    have hlive : r.session s ≠ none := Option.ne_none_iff_exists'.2 ⟨e, he⟩
    obtain ⟨u, d, hu, hd, hle, hm | hdue⟩ := h.sessions s e (hsessions s e he)
    · refine ⟨u, d, hu, hd, by rw [hnow]; exact hle, ?_⟩
      rcases hmember u s d hlive hm with hm | ht
      · exact .inl hm
      · exact .inr ⟨i, by simpa using ht⟩
    · exact ⟨u, d, hu, hd, by rw [hnow]; exact hle, .inr (hdue.update (htodo s hlive))⟩
  · intro j u ids hj members hm
    by_cases hji : j = i
    · subst hji
      exact hclearing u ids (by simpa using hj) members hm
    · obtain ⟨old, hold, hsub⟩ := hsets u members hm
      refine List.Subset.trans hsub (h.cleared j u ids ?_ old hold)
      simpa [Function.update_of_ne hji] using hj

omit [DecidableEq ι] in
theorem Listed.advance {v : Pool ι Redis SessionThread} (h : Listed g v) (d : ℕ) :
    Listed g ⟨v.shared.advance d, v.thread⟩ := by
  refine ⟨h.kinds, ?_, ?_⟩
  · intro s e he
    obtain ⟨hs, halive⟩ := advance_session.1 he
    obtain ⟨u, d', hu, hd, hle, hm | hdue⟩ := h.sessions s e hs
    · have hlt : v.shared.now + d < d' := by
        simpa [Entry.aliveAt, hd] using halive
      exact ⟨u, d', hu, hd, by rw [advance_now]; omega, .inl (hm.advance hlt)⟩
    · exact ⟨u, d', hu, hd, by rw [advance_now]; omega, .inr hdue⟩
  · intro j u ids hj members hm
    refine h.cleared j u ids hj members ?_
    obtain ⟨e, he, rfl⟩ := Option.map_eq_some_iff.1 hm
    exact ExpiringMap.value_of_entry (advance_sessions.1 he).1

theorem listed_step {v w : Pool ι Redis SessionThread} {l : Turn ι} (h : Listed g v)
    (hC : Apart v l) (hs : (sessionPool g ι passing).step v l w) : Listed g w := by
  cases hs with
  | @run r t i hstep =>
    have hb := bulkStep_of_step (h.kinds i) hstep
    generalize ht : v.thread i = t₀ at hb
    cases hb with
    | login u device d => exact listed_login h ht (hC i rfl u device d ht) _
    | members u =>
      refine h.keep rfl rfl (fun _ _ he => he) (fun _ _ _ _ hm => .inl hm) (by simp [ht, todo])
        (fun _ members hm => ⟨members, hm, List.Subset.refl _⟩) ?_
      rintro u' ids heq members hm
      cases heq
      rw [hm]
      exact List.Subset.refl _
    | clear u ids =>
      refine h.keep (bulk_loop _ _) rfl (fun _ _ he => he) ?_ (by simp [ht, todo]) ?_
        (fun _ _ heq => absurd heq (loop_ne_clearing _ _ _ _))
      · intro u' s d _ hm
        obtain ⟨members, d', hmembers, hmem, hle⟩ := hm
        by_cases hu : u' = u
        · subst hu
          rw [todo_loop]
          exact .inr (h.cleared i u' ids ht members (ExpiringMap.value_of_entry hmembers) hmem)
        · exact .inl ⟨members, d', by simp [ExpiringMap.remove_apply, hu, hmembers], hmem, hle⟩
      · intro u' members hm
        simp only [ExpiringMap.value, ExpiringMap.remove_apply] at hm
        split_ifs at hm
        · simp at hm
        · exact ⟨members, hm, List.Subset.refl _⟩
    | gone gone sid rest absent =>
      refine h.keep (bulk_loop _ _) rfl (fun _ _ he => he) (fun _ _ _ _ hm => .inl hm) ?_
        (fun _ members hm => ⟨members, hm, List.Subset.refl _⟩)
        (fun _ _ heq => absurd heq (loop_ne_clearing _ _ _ _))
      intro s hlive hs
      rw [ht] at hs
      rw [todo_loop]
      rcases List.mem_cons.1 hs with rfl | hs
      · exact absurd absent hlive
      · exact hs
    | found gone sid rest data =>
      refine h.keep rfl rfl (fun _ _ he => he) (fun _ _ _ _ hm => .inl hm) ?_
        (fun _ members hm => ⟨members, hm, List.Subset.refl _⟩) (by simp)
      intro s _ hs
      rw [ht] at hs
      exact hs
    | revoke gone sid data rest =>
      have hne : ∀ s, (revokePipeline sid data v.shared).session s ≠ none → s ≠ sid := by
        rintro s hlive rfl
        exact hlive (by rw [revoke_session, if_pos rfl])
      refine h.keep (bulk_loop _ _) rfl ?_ ?_ ?_ ?_
        (fun _ _ heq => absurd heq (loop_ne_clearing _ _ _ _))
      · intro s e he
        rw [revoke_session] at he
        split_ifs at he
        exact he
      · exact fun _ s _ hlive hm => .inl (hm.revoke (hne s hlive))
      · intro s hlive hs
        rw [ht] at hs
        rw [todo_loop]
        rcases List.mem_cons.1 hs with rfl | hs
        · exact absurd rfl (hne s hlive)
        · exact hs
      · exact fun _ _ hm => revoke_subset hm
  | @env r henv =>
    obtain ⟨d, rfl⟩ := henv
    exact h.advance d

omit [DecidableEq ι] in
theorem listed_launch {v : Pool ι Redis SessionThread} (hs : Launch v)
    (hkinds : ∀ i, bulk (v.thread i) = true) : Listed g v := by
  obtain ⟨now, hb⟩ := hs.blank
  refine ⟨hkinds, ?_, ?_⟩
  · intro s e he
    rw [hb] at he
    simp [Redis.blank, ExpiringMap.empty] at he
  · intro i u ids hi
    have hstart := hs.start i
    rw [hi] at hstart
    simp [SessionThread.start] at hstart

omit [DecidableEq ι] in
theorem not_due_of_idle {v : Pool ι Redis SessionThread}
    (hidle : ∀ i, (v.thread i).inFlight = false) (s : UUID) : ¬ Due v s := by
  rintro ⟨j, hj⟩
  have hi := hidle j
  cases ht : v.thread j with
  | revokeEach gone ids =>
    cases ids with
    | nil => simp [ht, todo] at hj
    | cons sid rest =>
      simp [ht, SessionThread.inFlight, SessionThread.start, SessionThread.finished] at hi
  | revokingEach gone sid data rest =>
    simp [ht, SessionThread.inFlight, SessionThread.start, SessionThread.finished] at hi
  | _ => simp [ht, todo] at hj

/-- When no login falls between the SMEMBERS and the DEL of a bulk revocation for its user,
every live session is listed whenever no run is in flight. -/
theorem live_sessions_listed {s u : Pool ι Redis SessionThread}
    {p : List (Pool ι Redis SessionThread × Turn ι)} (hs : Launch s)
    (hkinds : ∀ i, bulk (s.thread i) = true) (h : Runs (sessionPool g ι passing) s p u)
    (hC : Meets Apart p) :
    ∀ v ∈ Visited p u, (∀ i, (v.thread i).inFlight = false) →
      ∀ sid data, v.shared.session.value sid = some data → ∃ uid ids, data.userId = some uid ∧
        v.shared.sessions.value uid = some ids ∧ sid ∈ ids := by
  intro v hv hidle sid data hdata
  have hl : Listed g v := h.visited_of_meets (Listed g) Apart
    (fun _ _ _ hI hx hstep => listed_step hI hx hstep) hC (listed_launch hs hkinds) v hv
  obtain ⟨e, he, rfl⟩ := Option.map_eq_some_iff.1 hdata
  obtain ⟨uid, d, huser, -, -, ⟨ids, d', hids, hmem, -⟩ | hdue⟩ := hl.sessions sid e he
  · exact ⟨uid, ids, huser, ExpiringMap.value_of_entry hids, hmem⟩
  · exact absurd hdue (not_due_of_idle hidle sid)

end Pool

section Sample
open SampleContainer

def loginAndRevokeAll : Pool Bool Redis SessionThread where
  shared := Redis.blank startTime
  thread i := if i then .revokeAll alice else .login alice none loginDraws

theorem loginAndRevokeAll_launch : Launch loginAndRevokeAll where
  blank := ⟨startTime, rfl⟩
  start i := by cases i <;> rfl
  draws i j hij a b ha hb := by
    cases i <;> cases j <;> simp [loginAndRevokeAll, SessionThread.draws, SessionThread.pending,
      SessionThread.issued] at hij ha hb
  sessions i j hij s hi hj := by
    cases i <;> cases j <;> simp [loginAndRevokeAll, SessionThread.opening] at hij hi hj

theorem loginAndRevokeAll_bulk (i : Bool) : bulk (loginAndRevokeAll.thread i) = true := by
  cases i <;> rfl

theorem loginAndRevokeAll_runs {moves : List (Move Bool Redis)} {d : Pool Bool Redis SessionThread}
    (hm : ∀ f, .env f ∉ moves)
    (h : play (fun _ r t => t.step sample r) moves loginAndRevokeAll = some d) :
    ∃ p, Runs (sessionPool sample Bool passing) loginAndRevokeAll p d :=
  play_runs (fun _ _ _ _ _ hs => hs) (fun f hf => absurd hf (hm f)) h

theorem live_sessions_listed_login : ∃ p d, Runs (sessionPool sample Bool passing)
    loginAndRevokeAll p d ∧
    ∃ uid ids, d.shared.sessions.value uid = some ids ∧ sessionOne ∈ ids := by
  obtain ⟨d, hd⟩ : ∃ d, play (fun _ r t => t.step sample r) [.run false] loginAndRevokeAll = some d :=
    ⟨_, rfl⟩
  have hstep : (sessionPool sample Bool passing).step loginAndRevokeAll (.run false) d := by
    cases hd
    exact PoolStep.run false rfl
  have hC : Meets Apart [(loginAndRevokeAll, Turn.run false)] := by
    refine meets_cons.2 ⟨?_, meets_nil _⟩
    rintro i hi u device draws - j ids hj
    cases j <;> simp [loginAndRevokeAll] at hj
  have hdata : (play (fun _ r t => t.step sample r) [.run false] loginAndRevokeAll).map
      (fun d => (d.shared.session.value sessionOne).isSome && !(d.thread false).inFlight &&
        !(d.thread true).inFlight) = some true := by
    decide +kernel
  rw [hd, Option.map_some, Option.some.injEq, Bool.and_eq_true, Bool.and_eq_true,
    Bool.not_eq_true', Bool.not_eq_true'] at hdata
  obtain ⟨⟨hlive, hfalse⟩, htrue⟩ := hdata
  obtain ⟨data, hdata⟩ := Option.isSome_iff_exists.1 hlive
  obtain ⟨uid, ids, -, hids, hmem⟩ := live_sessions_listed loginAndRevokeAll_launch
    loginAndRevokeAll_bulk (.single hstep) hC d (by simp [Visited])
    (by rintro (_ | _) <;> assumption) sessionOne data hdata
  exact ⟨_, d, .single hstep, uid, ids, hids, hmem⟩

def loginInBetween : List (Move Bool Redis) := [.run true, .run false, .run true]

/-- A login between SMEMBERS and DEL: both runs return, the session lives, no set lists it. -/
theorem login_during_revocation_dangles :
    ∃ p d, Runs (sessionPool sample Bool passing) loginAndRevokeAll p d ∧
      (∀ i, (d.thread i).inFlight = false) ∧
      (∃ data, d.shared.session.value sessionOne = some data ∧ data.userId = some alice) ∧
      d.shared.sessions alice = none := by
  obtain ⟨d, hd⟩ : ∃ d, play (fun _ r t => t.step sample r) loginInBetween loginAndRevokeAll = some d :=
    ⟨_, rfl⟩
  obtain ⟨p, hp⟩ := loginAndRevokeAll_runs (by simp [loginInBetween]) hd
  have hend : (play (fun _ r t => t.step sample r) loginInBetween loginAndRevokeAll).map
      (fun d => (((d.shared.session.value sessionOne).bind SessionHash.userId,
        d.shared.sessions alice), (d.thread false).inFlight, (d.thread true).inFlight)) =
      some ((some alice, none), false, false) := by
    decide +kernel
  rw [hd, Option.map_some, Option.some.injEq, Prod.mk.injEq, Prod.mk.injEq, Prod.mk.injEq] at hend
  obtain ⟨⟨howner, hset⟩, hfalse, htrue⟩ := hend
  obtain ⟨data, hdata, huser⟩ := Option.bind_eq_some_iff.1 howner
  exact ⟨p, d, hp, by rintro (_ | _) <;> assumption, ⟨data, hdata, huser⟩, hset⟩

end Sample

end AuthService.BulkRevocation
