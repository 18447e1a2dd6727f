import AuthService.RefreshLinearity

set_option autoImplicit false

/-! When the return of a revocation is final for every credential of the session. -/
namespace AuthService.FinalRevocation
open Uuids FallibleState ExpiringMaps RedisSessions RequestPorts RedisTokenStore CommandHandlers
open HandlerRuns LabelledRuns ThreadPools SessionThreads RefreshLinearity

/-- What the service makes of a `jti` and a refresh token of a session: the token check says no,
a refresh fails, and so does one that has already passed its GETDEL. -/
structure Refused (g : GlobalContainer) (r : Redis) (s : UUID) (jti token : String) : Prop where
  access : ∀ (faults : Faults) (w : World), Quiet faults → w.redis = r →
    (isAccessJtiValid faults jti w).1 = .ok false
  refresh : ∀ (faults : Faults) (w : World), Quiet faults → w.redis = r → ∀ ip d,
    ∃ e, (refreshToken g faults ⟨token, ip⟩ d w).1 = .error e
  claimed : ∀ d, SessionThread.afterHgetall token d s (r.session.value s) = .refreshFailed

theorem Refused.absent {g : GlobalContainer} {r : Redis} {s : UUID} {jti token : String}
    (h : Refused g r s jti token) : r.access jti = none := by
  have hno := h.access noFaults { SampleContainer.initialWorld with redis := r } quiet_noFaults rfl
  rw [isAccessJtiValid, command_run quiet_noFaults] at hno
  simpa using hno

section Pool
variable {ι : Type} {g : GlobalContainer}

/-- Once a revocation of a session has returned, nothing ever issued for it is accepted. -/
def Final (g : GlobalContainer) (v : Pool ι Redis SessionThread) : Prop :=
  ∀ i s, s ∈ (v.thread i).revoked →
    ∀ i' jti token, (v.thread i').issued = some (s, jti, token) → Refused g v.shared s jti token

/-- No rotation writes after a revocation of its session has returned, and no revocation
deletes by a hash whose `jti` a rotation has replaced since by one that is live. -/
structure Timely (v : Pool ι Redis SessionThread) (l : Turn ι) : Prop where
  rotation : ∀ i, l = .run i → ∀ token d s u data, v.thread i = .rotating token d s u data →
    ∀ j, s ∉ (v.thread j).revoked
  revocation : ∀ i, l = .run i → ∀ s data, revokes (v.thread i) = some (s, data) →
    ∀ jti, AccessOf v.shared s jti → data.currentJti = some jti

end Pool

def Marked (t : SessionThread) (s : UUID) : Prop := s ∈ t.revoked ∨ ∃ data, revokes t = some (s, data)

/-- What a thread has revoked is gone, and what it has issued is still its own. -/
structure Ended (r : Redis) (t : SessionThread) : Prop where
  revoked : ∀ s ∈ t.revoked, r.session s = none ∧ ∀ jti, ¬ AccessOf r s jti
  issued : ∀ s jti token, t.issued = some (s, jti, token) →
    (∀ e, r.access jti = some e → ∃ u, e.value = payload u s) ∧
      ∀ e, r.refresh token = some e → ∃ u, e.value = payload u s

structure Parted (t t' : SessionThread) : Prop where
  draws : ∀ a b, t.draws = some a → t'.draws = some b → a.1 ≠ b.1 ∧ a.2 ≠ b.2
  opening : ∀ s, t.opening = some s → ¬ Marked t' s
  marked : ∀ s, Marked t s → t'.opening ≠ some s

theorem Parted.symm {t t' : SessionThread} (h : Parted t t') : Parted t' t where
  draws a b ha hb := ⟨(h.draws b a hb ha).1.symm, (h.draws b a hb ha).2.symm⟩
  opening s hs hm := h.marked s hm hs
  marked s hm hs := h.opening s hs hm

section Steps
variable {g : GlobalContainer} {r r' : Redis} {s : UUID} {jti token : String} {t t' t₂ : SessionThread}

theorem Ended.fewer (h : Ended r t) (hr : Fewer r' r) : Ended r' t where
  revoked s hs := ⟨hr.session_none (h.revoked s hs).1,
    fun j hj => (h.revoked s hs).2 j (hr.accessOf hj)⟩
  issued s jti token hi := by
    obtain ⟨ha, hk⟩ := h.issued s jti token hi
    exact ⟨fun e he => ha e (hr.access jti e he), fun e he => hk e (hr.refresh token e he)⟩

theorem Ended.adds (h : Ended r t) (hr : Adds r r' s jti token) (hs : s ∉ t.revoked)
    (hdraws : ∀ s' x, t.issued = some (s', x) → x.1 ≠ jti ∧ x.2 ≠ token) : Ended r' t where
  revoked s' hs' := by
    have hne : s' ≠ s := by
      rintro rfl
      exact hs hs'
    obtain ⟨hnone, haccess⟩ := h.revoked s' hs'
    refine ⟨by rw [hr.session s' hne, hnone], fun j hj => ?_⟩
    obtain ⟨-, heq⟩ | ⟨-, hold⟩ := hr.accessOf hj
    · exact hne heq
    · exact haccess j hold
  issued s' jti' token' hi := by
    obtain ⟨hj, hk⟩ := hdraws s' _ hi
    obtain ⟨ha, hrefresh⟩ := h.issued s' jti' token' hi
    refine ⟨fun e he => ?_, fun e he => ?_⟩
    · obtain ⟨heq, -⟩ | ⟨-, hold⟩ := hr.access jti' e he
      · exact absurd heq hj
      · exact ha e hold
    · obtain ⟨heq, -⟩ | ⟨-, hold⟩ := hr.refresh token' e he
      · exact absurd heq hk
      · exact hrefresh e hold

theorem draws_of_issued {x : String × String} (h : t.issued = some (s, x)) : t.draws = some x := by
  cases t with
  | loggedIn d => cases h; rfl
  | refreshed token d s => cases h; rfl
  | _ => simp [SessionThread.issued] at h

theorem tokenStep_draws (h : TokenStep g r t r' t') :
    (∀ a, t'.draws = some a → t.draws = some a) ∧ t'.opening = none := by
  have idle_draws : ∀ {t : SessionThread}, Idle t → t.issued = none → t.draws = none := by
    intro t hidle hissued
    simp [SessionThread.draws, hidle.pending, hissued]
  cases h with
  | login u device d => exact ⟨fun _ h => h, rfl⟩
  | claim token d s live => exact ⟨fun _ h => h, rfl⟩
  | read token d s v data stored => exact ⟨fun _ h => h, rfl⟩
  | rotate token d s v data => exact ⟨fun _ h => h, rfl⟩
  | found s data stored revokes idle unissued =>
    exact ⟨fun a ha => by simp [idle_draws idle unissued] at ha, idle.opening⟩
  | revoke s data revokes idle unissued =>
    exact ⟨fun a ha => by simp [idle_draws idle unissued] at ha, idle.opening⟩
  | other fewer idle unissued =>
    exact ⟨fun a ha => by simp [idle_draws idle unissued] at ha, idle.opening⟩

theorem tokenStep_marked (h : TokenStep g r t r' t') (hm : Marked t' s) :
    Marked t s ∨ r.session s ≠ none := by
  cases h with
  | login u device d => simp [Marked, SessionThread.revoked, revokes] at hm
  | claim token d s live => simp [Marked, SessionThread.revoked, revokes] at hm
  | read token d s v data stored => simp [Marked, SessionThread.revoked, revokes] at hm
  | rotate token d s v data => simp [Marked, SessionThread.revoked, revokes] at hm
  | found s' data stored hrevokes idle unissued revoked =>
    obtain hs | ⟨data', hs⟩ := hm
    · exact .inl (.inl (revoked ▸ hs))
    · rw [hrevokes, Option.some.injEq, Prod.mk.injEq] at hs
      obtain ⟨rfl, rfl⟩ := hs
      refine .inr fun hnone => ?_
      rw [ExpiringMap.value_eq_none.2 hnone] at stored
      simp at stored
  | revoke s' data hrevokes idle unissued revoked done =>
    obtain hs | ⟨data', hs⟩ := hm
    · rw [revoked, List.mem_cons] at hs
      rcases hs with rfl | hs
      · exact .inl (.inr ⟨data, hrevokes⟩)
      · exact .inl (.inl hs)
    · simp [done] at hs
  | other fewer idle unissued revoked done =>
    obtain hs | ⟨data', hs⟩ := hm
    · exact .inl (.inl (revoked ▸ hs))
    · simp [done] at hs

theorem ended_of_adds {s : UUID} {jti token : String} (h : Adds r r' s jti token)
    (hissued : t'.issued = some (s, jti, token)) (hrevoked : t'.revoked = []) : Ended r' t' := by
  refine ⟨by simp [hrevoked], fun s' jti' token' hi => ?_⟩
  rw [hissued, Option.some.injEq, Prod.mk.injEq, Prod.mk.injEq] at hi
  obtain ⟨rfl, rfl, rfl⟩ := hi
  refine ⟨fun e he => ?_, fun e he => ?_⟩
  · obtain ⟨-, hu⟩ | ⟨hne, -⟩ := h.access _ e he
    · exact hu
    · exact absurd rfl hne
  · obtain ⟨-, hu⟩ | ⟨hne, -⟩ := h.refresh _ e he
    · exact hu
    · exact absurd rfl hne

theorem ended_own (he : Ended r t) (h : TokenStep g r t r' t')
    (hC : ∀ s data, revokes t = some (s, data) → ∀ jti, AccessOf r s jti → data.currentJti = some jti)
    (hr : Sole r) : Ended r' t' := by
  cases h with
  | login u device d =>
    have hadds := adds_create (g.isoformat r.now) d.sessionId u d.jti.str d.refreshToken.text device
      g.accessTokenTtlSeconds g.refreshTokenTtlSeconds r
    exact ended_of_adds hadds rfl rfl
  | claim token d s live =>
    exact ⟨fun s hs => by simp [SessionThread.revoked] at hs,
      fun s jti token hi => by simp [SessionThread.issued] at hi⟩
  | read token d s v data stored =>
    exact ⟨fun s hs => by simp [SessionThread.revoked] at hs,
      fun s jti token hi => by simp [SessionThread.issued] at hi⟩
  | rotate token d s v data =>
    have hadds := adds_rotate (g.isoformat r.now) s v (data.currentJti.getD "") token d.jti.str
      d.refreshToken.text g.accessTokenTtlSeconds g.refreshTokenTtlSeconds r
    exact ended_of_adds hadds rfl rfl
  | found s data stored revokes idle unissued revoked =>
    exact ⟨fun s' hs => he.revoked s' (revoked ▸ hs), fun s jti token hi => by simp [unissued] at hi⟩
  | revoke s data hrevokes idle unissued revoked =>
    refine ⟨fun s' hs => ?_, fun s jti token hi => by simp [unissued] at hi⟩
    have hfewer := fewer_revoke s data r
    rw [revoked, List.mem_cons] at hs
    rcases hs with rfl | hs
    · refine ⟨by rw [revoke_session, if_pos rfl], fun j hj => ?_⟩
      have hcurrent := hC s' data hrevokes j (hfewer.accessOf hj)
      obtain ⟨u, e, he, -⟩ := hj
      have hne : j ≠ "" := by
        rintro rfl
        rw [hfewer.access_none hr.formed.named] at he
        simp at he
      rw [revoke_access, hcurrent, Option.getD_some, if_pos ⟨hne, rfl⟩] at he
      simp at he
    · exact (he.fewer hfewer).revoked s' hs
  | other fewer idle unissued revoked =>
    exact ⟨fun s' hs => (he.fewer fewer).revoked s' (revoked ▸ hs),
      fun s jti token hi => by simp [unissued] at hi⟩

theorem ended_others (he : Ended r t₂) (hp : Parted t t₂) (h : TokenStep g r t r' t')
    (hC : ∀ token d s u data, t = .rotating token d s u data → s ∉ t₂.revoked) : Ended r' t₂ := by
  cases h with
  | login u device d =>
    refine he.adds (adds_create ..) (fun hs => hp.opening d.sessionId rfl (.inl hs)) (fun s' x hi => ?_)
    obtain ⟨hj, hk⟩ := hp.draws _ x rfl (draws_of_issued hi)
    exact ⟨hj.symm, hk.symm⟩
  | claim token d s live => exact he.fewer (fewer_getdel token r)
  | read token d s v data stored => exact he
  | rotate token d s v data =>
    refine he.adds (adds_rotate ..) (hC token d s v data rfl) (fun s' x hi => ?_)
    obtain ⟨hj, hk⟩ := hp.draws _ x rfl (draws_of_issued hi)
    exact ⟨hj.symm, hk.symm⟩
  | found s data stored => exact he
  | revoke s data => exact he.fewer (fewer_revoke s data r)
  | other fewer => exact he.fewer fewer

theorem parted_others (ho : Owns r t₂) (hp : Parted t t₂) (h : TokenStep g r t r' t') :
    Parted t' t₂ where
  draws a b ha hb := hp.draws a b ((tokenStep_draws h).1 a ha) hb
  opening s hs := by simp [(tokenStep_draws h).2] at hs
  marked s hs ht := by
    obtain hm | hsession := tokenStep_marked h hs
    · exact hp.marked s hm ht
    · exact hsession (ho.unopened s ht).2.2

end Steps

section Pool
variable {ι : Type} [DecidableEq ι] {g : GlobalContainer}

def ended : Assertion Redis SessionThread where
  shared := Sole
  thread r t := Owns r t ∧ Ended r t
  pair t t' := Disjoint t t' ∧ Parted t t'

omit [DecidableEq ι] in
theorem ended_stable : ended.Stable (sessionProgram g ι vanishing) Timely where
  own v i r t hv hC hstep := by
    have h := tokenStep_of_step hv.1.formed hstep
    obtain ⟨hsole, howns⟩ := token_own hv.1 (hv.2.1 i).1 h
    exact ⟨hsole, howns, ended_own (hv.2.1 i).2 h (hC.revocation i rfl) hv.1⟩
  others v i j r t hv hC hstep hij := by
    have h := tokenStep_of_step hv.1.formed hstep
    obtain ⟨hdisjoint, hparted⟩ := hv.2.2 i j hij
    obtain ⟨howns, hended⟩ := hv.2.1 j
    obtain ⟨howns', hdisjoint'⟩ := token_others howns hdisjoint h
    have hparted' := parted_others howns hparted h
    exact ⟨⟨howns', ended_others hended hparted h
      (fun token d s u data ht => hC.rotation i rfl token d s u data ht j)⟩,
      ⟨hdisjoint', hparted'⟩, hdisjoint'.symm, hparted'.symm⟩
  env v r hv henv := by
    have hfewer := fewer_vanishing henv
    exact ⟨hv.1.fewer hfewer, fun i => ⟨(hv.2.1 i).1.fewer hfewer, (hv.2.1 i).2.fewer hfewer⟩⟩

theorem start_unmarked {t : SessionThread} (h : t.start = true) :
    t.revoked = [] ∧ revokes t = none ∧ t.issued = none := by
  cases t <;> first | exact ⟨rfl, rfl, rfl⟩ | simp [SessionThread.start] at h

omit [DecidableEq ι] in
theorem ended_launch {v : Pool ι Redis SessionThread} (hs : Launch v) : ended.Holds v := by
  obtain ⟨hsole, howns, hdisjoint⟩ := linear_launch hs
  have hunmarked : ∀ i s, ¬ Marked (v.thread i) s := by
    intro i s hm
    obtain ⟨hrevoked, hrevokes, -⟩ := start_unmarked (hs.start i)
    simp [Marked, hrevoked, hrevokes] at hm
  refine ⟨hsole, fun i => ⟨howns i, ?_, ?_⟩, fun i j hij =>
    ⟨hdisjoint i j hij, hs.draws i j hij, ?_, ?_⟩⟩
  · intro s hs'
    exact absurd (.inl hs') (hunmarked i s)
  · intro s jti token hi
    simp [(start_unmarked (hs.start i)).2.2] at hi
  · exact fun s _ => hunmarked j s
  · exact fun s hm => absurd hm (hunmarked i s)

theorem refused_of_ended {r : Redis} {s : UUID} {jti token : String} (hsession : r.session s = none)
    (haccess : ∀ j, ¬ AccessOf r s j) (hjti : ∀ e, r.access jti = some e → ∃ u, e.value = payload u s)
    (htoken : ∀ e, r.refresh token = some e → ∃ u, e.value = payload u s) :
    Refused g r s jti token where
  access faults w hq hw := by
    have hnone : r.access jti = none := by
      cases he : r.access jti with
      | none => rfl
      | some e =>
        obtain ⟨u, hu⟩ := hjti e he
        exact absurd ⟨u, e, he, hu⟩ (haccess jti)
    rw [isAccessJtiValid, command_run hq, hw, hnone]
    rfl
  refresh faults w hq hw ip d := by
    have hout := refreshToken_outcome (g := g) (w := w) hq ⟨token, ip⟩ d
    generalize refreshToken g faults ⟨token, ip⟩ d w = out at hout ⊢
    cases hout with
    | refused => exact ⟨_, rfl⟩
    | @rotated raw a b u s' v data w' claimed split user session stored owner redis signed =>
      obtain ⟨e, he, rfl⟩ := Option.map_eq_some_iff.1 claimed
      rw [hw] at he stored
      obtain ⟨u', hu⟩ := htoken e he
      rw [hu, splitColon_payload, Option.some.injEq, Prod.mk.injEq] at split
      obtain ⟨rfl, rfl⟩ := split
      rw [parse_str, Option.some.injEq] at session
      subst session
      rw [ExpiringMap.value_eq_none.2 hsession] at stored
      simp at stored
  claimed d := by rw [ExpiringMap.value_eq_none.2 hsession]; rfl

omit [DecidableEq ι] in
theorem final_of_ended {v : Pool ι Redis SessionThread} (h : ended.Holds v) : Final g v := by
  intro i s hs i' jti token hi
  obtain ⟨hsession, haccess⟩ := (h.2.1 i).2.revoked s hs
  obtain ⟨hjti, htoken⟩ := (h.2.1 i').2.issued s jti token hi
  exact refused_of_ended hsession haccess hjti htoken

def Sourced (v : Pool ι Redis SessionThread) : Prop :=
  ∀ s jti, AccessOf v.shared s jti → ∃ i token, (v.thread i).issued = some (s, jti, token)

omit [DecidableEq ι] in
theorem issued_stuck {r : Redis} {t : SessionThread} {x : UUID × String × String}
    (h : t.issued = some x) : t.step g r = none := by
  cases t <;> first | rfl | simp [SessionThread.issued] at h

theorem sourced_step {v w : Pool ι Redis SessionThread} {l : Turn ι} (hv : Sourced v)
    (hf : Formed v.shared) (hs : (sessionPool g ι vanishing).step v l w) : Sourced w := by
  have keep : ∀ {r : Redis}, Fewer r v.shared → ∀ {s jti}, AccessOf r s jti →
      ∃ i token, (v.thread i).issued = some (s, jti, token) :=
    fun hfewer _ _ hj => hv _ _ (hfewer.accessOf hj)
  cases hs with
  | @run r t i hstep =>
    have update : ∀ {s jti}, (∃ j token, (v.thread j).issued = some (s, jti, token)) →
        ∃ j token, (Function.update v.thread i t j).issued = some (s, jti, token) := by
      rintro s jti ⟨j, token, hj⟩
      refine ⟨j, token, ?_⟩
      have hne : j ≠ i := by
        rintro rfl
        have hnone := issued_stuck (g := g) (r := v.shared) hj
        simp only [sessionProgram] at hstep
        rw [hnone] at hstep
        simp at hstep
      rwa [Function.update_of_ne hne]
    have issues : ∀ {s jti token}, t.issued = some (s, jti, token) →
        ∃ j token, (Function.update v.thread i t j).issued = some (s, jti, token) :=
      fun ht => ⟨i, _, by rw [Function.update_self, ht]⟩
    have h := tokenStep_of_step hf hstep
    intro s jti hj
    simp only at hj ⊢
    generalize v.thread i = t₀ at h
    cases h with
    | login u device d =>
      obtain ⟨rfl, rfl⟩ | ⟨-, hold⟩ := (adds_create ..).accessOf hj
      · exact issues rfl
      · exact update (hv s jti hold)
    | claim token d s live => exact update (keep (fewer_getdel token _) hj)
    | read token d s v data stored => exact update (hv _ _ hj)
    | rotate token d s v data =>
      obtain ⟨rfl, rfl⟩ | ⟨-, hold⟩ := (adds_rotate ..).accessOf hj
      · exact issues rfl
      · exact update (hv _ jti hold)
    | found s data stored => exact update (hv _ _ hj)
    | revoke s data => exact update (keep (fewer_revoke s data _) hj)
    | other fewer => exact update (keep fewer hj)
  | @env r henv => exact fun s jti hj => keep (fewer_vanishing henv) hj

theorem revokes_step {r r' : Redis} {t t' : SessionThread} {s : UUID} {data : SessionHash}
    (ht : revokes t = some (s, data)) (h : t.step g r = some (r', t')) :
    r' = revokePipeline s data r ∧ s ∈ t'.revoked := by
  cases t with
  | revoking s' data' => cases ht; cases h; exact ⟨rfl, by simp [SessionThread.revoked]⟩
  | revokingEach gone s' data' rest => cases ht; cases h; exact ⟨rfl, by simp⟩
  | _ => simp [revokes] at ht

theorem accessOf_revoke {r : Redis} {s s' : UUID} {data : SessionHash} {jti : String}
    (h : data.currentJti ≠ some jti) (hj : AccessOf r s' jti) :
    AccessOf (revokePipeline s data r) s' jti := by
  obtain ⟨u, e, he, hv⟩ := hj
  refine ⟨u, e, ?_, hv⟩
  rw [revoke_access, if_neg, he]
  rintro ⟨hne, heq⟩
  cases hd : data.currentJti with
  | none => simp [hd] at hne
  | some j => exact h (by rw [hd, heq, hd, Option.getD_some])

theorem timely_of_final {v w : Pool ι Redis SessionThread} {l : Turn ι}
    (hs : (sessionPool g ι vanishing).step v l w) (hf : Formed v.shared) (hv : Sourced v)
    (hw : Final g w) : Timely v l := by
  have hsource := sourced_step hv hf hs
  cases hs with
  | env henv => exact ⟨fun i hl => (by simp at hl), fun i hl => (by simp at hl)⟩
  | @run r t i hstep =>
    refine ⟨fun i' hl token d s u data ht j hj => ?_, fun i' hl s data ht jti hj => ?_⟩
    · obtain rfl : i = i' := by simpa using hl
      have hne : j ≠ i := by
        rintro rfl
        rw [ht] at hj
        simp [SessionThread.revoked] at hj
      simp only [sessionProgram, ht, SessionThread.step, Option.some.injEq, Prod.mk.injEq] at hstep
      obtain ⟨rfl, rfl⟩ := hstep
      have habsent := (hw j s (by simpa [Function.update_of_ne hne] using hj) i d.jti.str
        d.refreshToken.text (by simp [SessionThread.issued])).absent
      simp [rotate_access] at habsent
    · obtain rfl : i = i' := by simpa using hl
      obtain ⟨rfl, hrevoked⟩ := revokes_step ht hstep
      by_contra hstale
      have hkept : AccessOf (revokePipeline s data v.shared) s jti := accessOf_revoke hstale hj
      obtain ⟨i', token, hi'⟩ := hsource s jti hkept
      obtain ⟨u, e, he, -⟩ := hkept
      have habsent := (hw i s (by simpa using hrevoked) i' jti token hi').absent
      simp only [he] at habsent
      simp at habsent

/-- Revocation is final in every state of a run exactly when all its steps are timely. -/
theorem revocation_final {c u : Pool ι Redis SessionThread}
    {p : List (Pool ι Redis SessionThread × Turn ι)} (hs : Launch c)
    (h : Runs (sessionPool g ι vanishing) c p u) :
    (∀ v ∈ Visited p u, Final g v) ↔ Meets Timely p := by
  constructor
  · intro hfinal
    have hkeep : ∀ v ∈ Visited p u, linear.Holds v ∧ Sourced v := by
      refine h.visited_of_meets (fun v => linear.Holds v ∧ Sourced v) (fun _ _ => True) ?_
        (fun _ _ => trivial) ⟨linear_launch hs, ?_⟩
      · rintro v l w ⟨hlinear, hsource⟩ - hstep
        exact ⟨(linear_stable (fun _ _ => True)).step hlinear trivial hstep,
          sourced_step hsource hlinear.1.formed hstep⟩
      · obtain ⟨now, hb⟩ := hs.blank
        rintro s jti ⟨u, e, he, -⟩
        rw [hb] at he
        simp [Redis.blank, ExpiringMap.empty] at he
    intro x hx
    obtain ⟨w, hw, hstep⟩ := h.step_of_mem hx
    obtain ⟨hlinear, hsource⟩ := hkeep x.1 (by
      rw [Visited]
      exact List.mem_cons_of_mem _ (List.mem_map_of_mem hx))
    exact timely_of_final hstep hlinear.1.formed hsource (hfinal w hw)
  · exact fun hmeets v hv => final_of_ended (ended_stable.visited h hmeets (ended_launch hs) v hv)

structure Prompt (v : Pool ι Redis SessionThread) (l : Turn ι) : Prop where
  rotation : ∀ i, l = .run i → ∀ s ∈ (v.thread i).holds, ∀ j, s ∉ (v.thread j).revoked
  revocation : ∀ i, l = .run i → ∀ x ∈ revokes (v.thread i), v.shared.session.value x.1 = some x.2

omit [DecidableEq ι] in
theorem timely_of_prompt {v : Pool ι Redis SessionThread} {l : Turn ι} (h : Prompt v l)
    (hv : Sole v.shared) : Timely v l where
  rotation i hl token d s u data ht := h.rotation i hl s (by rw [ht]; rfl)
  revocation i hl s data ht jti hj := hv.current s jti data hj (h.revocation i hl (s, data) ht)

theorem meets_timely {c u : Pool ι Redis SessionThread}
    {p : List (Pool ι Redis SessionThread × Turn ι)} (hs : Launch c)
    (h : Runs (sessionPool g ι vanishing) c p u) (hp : Meets Prompt p) : Meets Timely p := by
  intro x hx
  have hlinear := (linear_stable (g := g) Prompt).visited h hp (linear_launch hs) x.1 (by
    rw [Visited]
    exact List.mem_cons_of_mem _ (List.mem_map_of_mem hx))
  exact timely_of_prompt (hp x hx) hlinear.1

end Pool

section Sample
open SampleContainer

def renewAndRevoke : Pool (Fin 3) Redis SessionThread where
  shared := Redis.blank startTime
  thread := ![.login alice none loginDraws, .refresh rawA.text ⟨jtiTwo, rawB, eventOne⟩,
    .revokeHandler sessionOne]

theorem renewAndRevoke_launch : Launch renewAndRevoke :=
  .of_checks rfl (by decide) (by decide +kernel) (by decide +kernel)

def renewFirst : List (Move (Fin 3) Redis) :=
  [.run 0, .run 1, .run 1, .run 1, .run 2, .run 2, .run 2]

instance (v : Pool (Fin 3) Redis SessionThread) (l : Turn (Fin 3)) : Decidable (Prompt v l) :=
  decidable_of_iff ((∀ i, l = .run i → ∀ s ∈ (v.thread i).holds, ∀ j, s ∉ (v.thread j).revoked) ∧
      ∀ i, l = .run i → ∀ x ∈ revokes (v.thread i), v.shared.session.value x.1 = some x.2)
    ⟨fun h => ⟨h.1, h.2⟩, fun h => ⟨h.1, h.2⟩⟩

theorem revocation_final_renewFirst :
    ∃ p d, Runs (sessionPool sample (Fin 3) vanishing) renewAndRevoke p d ∧
      sessionOne ∈ (d.thread 2).revoked ∧ Refused sample d.shared sessionOne jtiTwo.str rawB.text := by
  have hend : (playMeeting Prompt (fun _ r t => SessionThread.step sample r t) renewFirst
      renewAndRevoke).map (fun d => ((d.thread 2).revoked, (d.thread 1).issued)) =
      some ([sessionOne], some (sessionOne, jtiTwo.str, rawB.text)) := by
    decide +kernel
  obtain ⟨d, hd, hend⟩ := Option.map_eq_some_iff.1 hend
  rw [Prod.mk.injEq] at hend
  obtain ⟨hrevoked, hissued⟩ := hend
  have hrun : ∃ p, Runs (sessionPool sample (Fin 3) vanishing) renewAndRevoke p d ∧ Meets Prompt p :=
    playMeeting_runs (P := sessionProgram sample (Fin 3) vanishing) (fun _ _ _ _ _ h => h)
      (by simp [renewFirst]) hd
  obtain ⟨p, hp, hprompt⟩ := hrun
  have hmem : sessionOne ∈ (d.thread 2).revoked := by simp [hrevoked]
  exact ⟨p, d, hp, hmem, (revocation_final renewAndRevoke_launch hp).2
    (meets_timely renewAndRevoke_launch hp hprompt) d
    (by simp [Visited]) 2 sessionOne hmem 1 _ _ hissued⟩

/-- The refresh reads the hash, the revocation runs and returns, the refresh rotates. -/
def revokeInBetween : List (Move (Fin 3) Redis) :=
  [.run 0, .run 1, .run 1, .run 2, .run 2, .run 2, .run 1]

/-- The rotation writes a new `jti` for the revoked session, and the token check accepts it. -/
theorem late_rotation_outlives_revocation :
    ∃ p d, Launch renewAndRevoke ∧ Runs (sessionPool sample (Fin 3) vanishing) renewAndRevoke p d ∧
      sessionOne ∈ (d.thread 2).revoked ∧
      (d.thread 1).issued = some (sessionOne, jtiTwo.str, rawB.text) ∧
      (∀ w, w.redis = d.shared → (isAccessJtiValid noFaults jtiTwo.str w).1 = .ok true) ∧
      ¬ Final sample d := by
  have hend : (play (fun _ r t => SessionThread.step sample r t) revokeInBetween renewAndRevoke).map
      (fun d => ((d.thread 2).revoked, (d.thread 1).issued, (d.shared.access jtiTwo.str).isSome)) =
      some ([sessionOne], some (sessionOne, jtiTwo.str, rawB.text), true) := by
    decide +kernel
  obtain ⟨d, hd, hend⟩ := Option.map_eq_some_iff.1 hend
  rw [Prod.mk.injEq, Prod.mk.injEq] at hend
  obtain ⟨hrevoked, hissued, hlive⟩ := hend
  have hrun : ∃ p, Runs (sessionPool sample (Fin 3) vanishing) renewAndRevoke p d :=
    play_runs (P := sessionProgram sample (Fin 3) vanishing) (fun _ _ _ _ _ h => h)
      (by simp [revokeInBetween]) hd
  obtain ⟨p, hp⟩ := hrun
  have hmem : sessionOne ∈ (d.thread 2).revoked := by simp [hrevoked]
  refine ⟨p, d, renewAndRevoke_launch, hp, hmem, hissued, fun w hw => ?_, fun hfinal => ?_⟩
  · rw [isAccessJtiValid, command_run quiet_noFaults, hw, hlive]
  · have habsent := (hfinal 2 sessionOne hmem 1 _ _ hissued).absent
    rw [habsent] at hlive
    simp at hlive

end Sample

end AuthService.FinalRevocation
