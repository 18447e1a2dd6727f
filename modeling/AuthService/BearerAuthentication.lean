import AuthService.ServiceRuns

set_option autoImplicit false

/-! The history of a run determines who a bearer token stands for. -/
namespace AuthService.BearerAuthentication
open Uuids PythonText DomainModel KeyedRows AccountTables Transactions FallibleState Fallible
open LabelledRuns ExpiringMaps RedisSessions RequestPorts GraphqlResolvers HandlerRuns
open CredentialLedgers SessionCoupling ServiceRuns

abbrev History := List (ServiceState × Event)

/-- The access token of the ticket was issued, with the payload it decodes to. -/
def Opens (g : GlobalContainer) (signed : List Claims) (sid : UUID) (t : Ticket UUID String)
    (x : ServiceState × Event) : Prop :=
  ∃ c ∈ signed, Issues g c x ∧ c.sid = sid.str ∧ c.sub = t.owner.str ∧ c.jti = t.access

structure Remembers (g : GlobalContainer) (p : History) (s : ServiceState) (l : SessionLedger) :
    Prop where
  current : ∀ sid t, l sid = some t →
    Since (Opens g s.world.signed sid t) (Spares g sid t.owner) p
  kept : ∀ (sid u : UUID) (c : Claims), c.sid = sid.str → c.sub = u.str →
    Since (Issues g c) (Spares g sid u) p → s.world.redis.now < seconds c.exp →
      ∃ t, l sid = some t ∧ t.owner = u ∧ t.access = c.jti ∧ seconds c.exp ≤ t.accessUntil
  issued : ∀ c x, x ∈ p → Issues g c x → c ∈ s.world.signed

theorem remembers_nil (g : GlobalContainer) (s : ServiceState) :
    Remembers g [] s Ledger.empty where
  current sid t h := by simp [Ledger.empty] at h
  kept sid u c _ _ h := absurd h since_nil
  issued c x h := by simp at h

section Events
variable {g : GlobalContainer} {p : History} {s s' : ServiceState} {e : Event} {l : SessionLedger}

theorem not_issues_of_silent (h : tokenIssued g (s, e) = none) (c : Claims) :
    ¬ Issues g c (s, e) := by
  intro hc
  rw [Issues, h] at hc
  simp at hc

theorem not_issuesIn_of_silent (h : tokenIssued g (s, e) = none) (sid : UUID) :
    ¬ IssuesIn g sid (s, e) := by
  rintro ⟨c, -, hc⟩
  exact not_issues_of_silent h c hc

theorem issues_unique {c d : Claims} (h : tokenIssued g (s, e) = some (g.encode d))
    (hc : Issues g c (s, e)) : c = d := by
  rw [Issues, h, Option.some.injEq] at hc
  exact (g.encode_injective hc).symm

theorem Opens.mono {signed signed' : List Claims} (h : signed ⊆ signed') {sid : UUID}
    {t : Ticket UUID String} {x : ServiceState × Event} (ho : Opens g signed sid t x) :
    Opens g signed' sid t x := by
  obtain ⟨c, hc, hi⟩ := ho
  exact ⟨c, h hc, hi⟩

theorem Remembers.stays (h : Remembers g p s l) (hsigned : s.world.signed ⊆ s'.world.signed)
    {sid : UUID} {t : Ticket UUID String} (hl : l sid = some t)
    (hspares : Spares g sid t.owner (s, e)) :
    Since (Opens g s'.world.signed sid t) (Spares g sid t.owner) ((s, e) :: p) :=
  since_cons.2 (.inr ⟨hspares, (h.current sid t hl).imp (fun _ _ => Opens.mono hsigned)
    (fun _ _ h => h)⟩)

theorem Remembers.issued_silent (h : Remembers g p s l)
    (hsigned : s.world.signed ⊆ s'.world.signed) (hsilent : tokenIssued g (s, e) = none)
    (c : Claims) (x : ServiceState × Event) (hx : x ∈ (s, e) :: p) (hc : Issues g c x) :
    c ∈ s'.world.signed := by
  rcases List.mem_cons.1 hx with rfl | hx
  · exact absurd hc (not_issues_of_silent hsilent c)
  · exact hsigned (h.issued c x hx hc)

theorem since_silent {c : Claims} {sid u : UUID} (hsilent : tokenIssued g (s, e) = none)
    (h : Since (Issues g c) (Spares g sid u) ((s, e) :: p)) :
    Spares g sid u (s, e) ∧ Since (Issues g c) (Spares g sid u) p :=
  (since_cons.1 h).resolve_left (not_issues_of_silent hsilent c)

theorem exp_le_accessUntil (hjwt : g.jwtLifetimeSeconds = g.accessTokenTtlSeconds) (now : ℕ)
    (u sid j : UUID) :
    seconds (g.accessClaims now u sid j).exp ≤ now + seconds g.accessTokenTtlSeconds := by
  simp only [GlobalContainer.accessClaims, seconds, hjwt]
  omega

theorem Remembers.event (hjwt : g.jwtLifetimeSeconds = g.accessTokenTtlSeconds)
    (h : Remembers g p s l) (hi : ServiceInvariant g s l) {l' : SessionLedger}
    (heff : Effect g (s, e) s' l l') (hsigned : s.world.signed ⊆ s'.world.signed) :
    Remembers g ((s, e) :: p) s' l' := by
  cases heff with
  | quiet now silent keeps spares =>
    refine ⟨?_, ?_, h.issued_silent hsigned silent⟩
    · intro sid t hl
      exact h.stays hsigned hl ⟨not_issuesIn_of_silent silent sid, keeps sid, spares t.owner⟩
    · intro sid u c hsid hsub hc hexp
      rw [now] at hexp
      exact h.kept sid u c hsid hsub (since_silent silent hc).2 hexp
  | @issued sid u j k now token signed keeps spares =>
    refine ⟨?_, ?_, ?_⟩
    · intro sid' t hl
      rw [Ledger.issue_apply] at hl
      split_ifs at hl with hs
      · rw [Option.some.injEq] at hl
        subst hl hs
        exact since_cons.2 (.inl ⟨_, signed, token, accessClaims_sid _, accessClaims_sub _,
          accessClaims_jti _⟩)
      · refine h.stays hsigned hl ⟨?_, keeps sid', spares t.owner⟩
        rintro ⟨c, hsid, hc⟩
        rw [issues_unique token hc, accessClaims_sid] at hsid
        exact hs (str_injective hsid).symm
    · intro sid' u' c hsid hsub hc hexp
      rcases since_cons.1 hc with hnew | ⟨⟨hnot, -, -⟩, hold⟩
      · have heq := issues_unique token hnew
        have hs : sid = sid' := str_injective (by rw [← hsid, heq, accessClaims_sid])
        have hu : u = u' := str_injective (by rw [← hsub, heq, accessClaims_sub])
        rw [heq, Ledger.issue_apply, if_pos hs.symm]
        exact ⟨_, rfl, hu, (accessClaims_jti _).symm, exp_le_accessUntil hjwt _ _ _ _⟩
      · have hs : sid' ≠ sid := by
          rintro rfl
          exact hnot ⟨_, accessClaims_sid _, token⟩
        rw [now] at hexp
        rw [Ledger.issue_apply, if_neg hs]
        exact h.kept sid' u' c hsid hsub hold hexp
    · intro c x hx hc
      rcases List.mem_cons.1 hx with rfl | hx
      · rw [issues_unique token hc]
        exact signed
      · exact hsigned (h.issued c x hx hc)
  | @closed sid now silent revoked spares =>
    refine ⟨?_, ?_, h.issued_silent hsigned silent⟩
    · intro sid' t hl
      obtain ⟨hs, hl⟩ := Ledger.close_eq_some.1 hl
      exact h.stays hsigned hl
        ⟨not_issuesIn_of_silent silent sid', fun hr => hs ((revoked sid').1 hr), spares t.owner⟩
    · intro sid' u c hsid hsub hc hexp
      obtain ⟨⟨-, hkept, -⟩, hc⟩ := since_silent silent hc
      rw [now] at hexp
      obtain ⟨t, hl, ht⟩ := h.kept sid' u c hsid hsub hc hexp
      exact ⟨t, Ledger.close_eq_some.2 ⟨fun hs => hkept ((revoked sid').2 hs), hl⟩, ht⟩
  | @closedOwned u now silent keeps reset =>
    refine ⟨?_, ?_, h.issued_silent hsigned silent⟩
    · intro sid t hl
      obtain ⟨hl, hu⟩ := Ledger.closeOwned_eq_some.1 hl
      exact h.stays hsigned hl
        ⟨not_issuesIn_of_silent silent sid, keeps sid, fun hr => hu ((reset t.owner).1 hr)⟩
    · intro sid u' c hsid hsub hc hexp
      obtain ⟨⟨-, -, hkept⟩, hc⟩ := since_silent silent hc
      rw [now] at hexp
      obtain ⟨t, hl, rfl, ht⟩ := h.kept sid u' c hsid hsub hc hexp
      exact ⟨t, Ledger.closeOwned_eq_some.2 ⟨hl, fun hu => hkept ((reset t.owner).2 hu)⟩, rfl, ht⟩
  | @elapsed d waited now =>
    obtain rfl : e = .wait d := waited
    have silent : tokenIssued g (s, .wait d) = none := rfl
    refine ⟨?_, ?_, h.issued_silent hsigned silent⟩
    · intro sid t hl
      refine h.stays hsigned (Ledger.elapse_eq_some.1 hl).1
        ⟨not_issuesIn_of_silent silent sid, ?_, ?_⟩
      · rintro ⟨_, _, _, _, _, he, -⟩
        simp at he
      · rintro ⟨_, _, _, _, _, _, he, -⟩
        simp at he
    · intro sid u c hsid hsub hc hexp
      simp only at now
      obtain ⟨t, hl, hu, hj, hle⟩ :=
        h.kept sid u c hsid hsub (since_silent silent hc).2 (by omega)
      have ht := (hi.store.coupled.timely sid t hl).2.1
      exact ⟨t, Ledger.elapse_eq_some.2 ⟨hl, by omega⟩, hu, hj, hle⟩

end Events

/-- After every run some ledger agrees with the store and with the history. -/
theorem service_remembers {g : GlobalContainer} (hpos : 0 < g.accessTokenTtlSeconds)
    (hle : g.accessTokenTtlSeconds ≤ g.refreshTokenTtlSeconds)
    (hjwt : g.jwtLifetimeSeconds = g.accessTokenTtlSeconds) {s v : ServiceState} {p : History}
    (hs : Starts g s) (h : Runs (service g) s p v) :
    ∃ l, ServiceInvariant g v l ∧ Remembers g p v l := by
  refine h.history (fun p v => ∃ l, ServiceInvariant g v l ∧ Remembers g p v l) ?_
    ⟨Ledger.empty, starts_invariant hs, remembers_nil g s⟩
  rintro p v e v' ⟨l, hi, hr⟩ hstep
  obtain ⟨l', hi', heff, hsigned⟩ := service_advances hpos hle hi hstep
  exact ⟨l', hi', hr.event hjwt hi heff hsigned⟩

theorem me_answer {g : GlobalContainer} {s : ServiceState} {l : SessionLedger}
    (h : ServiceInvariant g s l) (header : String) :
    answer g noFaults (.me header) s.world =
      .userInfo (meInfo g header { s.world with commands := 0 }) := by
  obtain ⟨n, hme⟩ := me_run (w := { s.world with commands := 0 }) quiet_noFaults h.usable
    (by rw [show World.tables { s.world with commands := 0 } = _ from h.view]; exact h.tables)
    h.signedBy header
  rw [answer_eq, resolve, bind_ok hme]
  rfl

theorem meInfo_eq_some {g : GlobalContainer} {s : ServiceState} {l : SessionLedger}
    (h : ServiceInvariant g s l) {header : String} {info : UserInfo} :
    meInfo g header { s.world with commands := 0 } = some info ↔
      ∃ T c id m, bearerToken header = some T ∧ decoded g T s.world = some c ∧
        (s.world.redis.access c.jti).isSome = true ∧ UUID.parse c.sub = some id ∧
        m ∈ s.world.db.committed.users ∧ m.id = id ∧ m.isActive = true ∧
        info = ⟨m.id.str, m.email, m.isActive⟩ := by
  have hview : World.tables { s.world with commands := 0 } = s.world.db.committed := h.view
  unfold meInfo
  rw [hview]
  constructor
  · intro hme
    cases hb : bearerToken header with
    | none => simp [hb] at hme
    | some T =>
      cases hd : decoded g T s.world with
      | none =>
        rw [hb, Option.bind_some, show decoded g T { s.world with commands := 0 } = none from hd] at hme
        simp at hme
      | some c =>
        rw [hb, Option.bind_some, show decoded g T { s.world with commands := 0 } =
          some c from hd] at hme
        simp only at hme
        split_ifs at hme with ha
        cases hp : UUID.parse c.sub with
        | none => simp [hp] at hme
        | some id =>
          cases hl : lookup UserModel.id id s.world.db.committed.users with
          | none => simp [hp, hl] at hme
          | some m =>
            simp only [hp, Option.bind_some, hl] at hme
            split_ifs at hme with hact
            exact ⟨T, c, id, m, rfl, hd, ha, hp, (lookup_some hl).1, (lookup_some hl).2, hact,
              (Option.some.inj hme).symm⟩
  · rintro ⟨T, c, id, m, hb, hd, ha, hp, hm, hid, hact, rfl⟩
    rw [hb, Option.bind_some, show decoded g T { s.world with commands := 0 } = some c from hd]
    simp only [ha, hp, ↓reduceIte, Option.bind_some, h.tables.userIds.lookup_iff.2 ⟨hm, hid⟩, hact]

/-- `me` knows exactly the users with an unexpired current access token of a session
that was not revoked. -/
theorem me_iff_current_session {g : GlobalContainer} (hpos : 0 < g.accessTokenTtlSeconds)
    (hle : g.accessTokenTtlSeconds ≤ g.refreshTokenTtlSeconds)
    (hjwt : g.jwtLifetimeSeconds = g.accessTokenTtlSeconds) {s v : ServiceState} {p : History}
    (hs : Starts g s) (h : Runs (service g) s p v) (header : String) (u : UUID) :
    (∃ info, answer g noFaults (.me header) v.world = .userInfo (some info) ∧ info.id = u.str) ↔
      ∃ T c sid, bearerToken header = some T ∧ T = g.encode c ∧ c.sub = u.str ∧ c.sid = sid.str ∧
        Since (Issues g c) (Spares g sid u) p ∧ v.world.redis.now < seconds c.exp ∧
        ∃ m ∈ v.world.db.committed.users, m.id = u ∧ m.isActive = true := by
  obtain ⟨l, hi, hr⟩ := service_remembers hpos hle hjwt hs h
  simp only [me_answer hi, Answer.userInfo.injEq, meInfo_eq_some hi]
  constructor
  · rintro ⟨info, ⟨T, c, id, m, hb, hd, ha, hp, hm, hid, hact, rfl⟩, hu⟩
    obtain ⟨hc, hT, hexp⟩ := decoded_eq_some.1 hd
    obtain ⟨e, he⟩ := Option.isSome_iff_exists.1 ha
    obtain ⟨sid, t, hl, hj, -, -⟩ := (hi.store.coupled.access c.jti e).1 he
    have hsince := hr.current sid t hl
    -- the payload presented is the payload issued: both carry the same `jti`
    have hopen : ∀ x ∈ p, Opens g v.world.signed sid t x →
        Issues g c x ∧ c.sid = sid.str ∧ c.sub = t.owner.str := by
      rintro x - ⟨c', hc', hi', hsid, hsub, hj'⟩
      rw [List.inj_on_of_nodup_map hi.signedOnce hc hc' (hj.symm.trans hj'.symm)]
      exact ⟨hi', hsid, hsub⟩
    obtain ⟨x, hx, hox⟩ := hsince.mem
    obtain ⟨-, hsid, hsub⟩ := hopen x hx hox
    rw [hsub, parse_str, Option.some.injEq] at hp
    have hmu : m.id = u := str_injective hu
    have htu : t.owner = u := by rw [hp, ← hid, hmu]
    rw [htu] at hsub hsince
    exact ⟨T, c, sid, hb, hT.symm, hsub, hsid, hsince.imp (fun x hx ho => (hopen x hx ho).1)
      (fun _ _ h => h), hexp, m, hm, hmu, hact⟩
  · rintro ⟨T, c, sid, hb, rfl, hsub, hsid, hsince, hexp, m, hm, rfl, hact⟩
    obtain ⟨t, hl, hu, hj, hle⟩ := hr.kept sid _ c hsid hsub hsince hexp
    obtain ⟨x, hx, hc⟩ := hsince.mem
    have hacc := (hi.store.coupled.access c.jti _).2 ⟨sid, t, hl, hj, by omega, rfl⟩
    refine ⟨_, ⟨_, c, m.id, m, hb, decoded_eq_some.2 ⟨hr.issued c x hx hc, rfl, hexp⟩, ?_, ?_, hm,
      rfl, hact, rfl⟩, rfl⟩
    · rw [hacc]
      rfl
    · rw [hsub, parse_str]

section Sample
open SampleContainer

def loggedIn : ServiceState :=
  recordDraws sampleLoginRequest (after sample noFaults sampleLoginRequest initialWorld) sampleStart

theorem loggedIn_runs :
    Runs (service sample) sampleStart [(sampleStart, .request sampleLoginRequest)] loggedIn :=
  .single (ServiceStep.request sampleStart sampleLoginRequest sampleStart_fresh_login)

theorem me_iff_current_session_login :
    ∃ info, answer sample noFaults (.me ("Bearer " ++ sample.encode loginClaims)) loggedIn.world =
      .userInfo (some info) ∧ info.id = alice.str := by
  refine (me_iff_current_session (by decide) (by decide) rfl sampleStart_starts loggedIn_runs _
    alice).2 ⟨sample.encode loginClaims, loginClaims, sessionOne,
      bearerToken_append (sample.encode_no_space _), rfl, rfl, rfl, ?_, ?_, aliceRow, ?_, rfl, rfl⟩
  · refine since_cons.2 (.inl ?_)
    change tokenIssued sample (sampleStart, .request sampleLoginRequest) = _
    decide +kernel
  · decide +kernel
  · decide +kernel

end Sample

end AuthService.BearerAuthentication
