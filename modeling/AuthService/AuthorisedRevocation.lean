import AuthService.ServiceRuns
import AuthService.SessionFrames

set_option autoImplicit false

/-! The `revokeSession` mutation changes the token store exactly when the caller may
revoke the session, and then it removes exactly the keys of that session. -/
namespace AuthService.AuthorisedRevocation
open Uuids PythonText FallibleState ExpiringMaps LabelledRuns RedisSessions RequestPorts
open CommandHandlers GraphqlResolvers HandlerRuns CredentialLedgers SessionCoupling
open SessionStoreRuns SessionFrames ServiceRuns

/-- All that is taken away is the hash of the session, its credentials and its membership. -/
structure Removed (sid : UUID) (data : SessionHash) (r r' : Redis) : Prop where
  keys : ∃ u jti k, data.userId = some u ∧ data.currentJti = some jti ∧ data.currentRefresh = some k ∧
    r' = { r with
      access := r.access.remove jti
      refresh := r.refresh.remove k
      session := r.session.remove sid
      sessions := srem u sid r.sessions } ∧
    (∀ raw, r.access.value jti = some raw → raw = payload u sid) ∧
    r.refresh.value k = some (payload u sid) ∧
    (∃ ids, r.sessions.value u = some ids ∧ sid ∈ ids) ∧
    ∀ ids, r'.sessions.value u = some ids → sid ∉ ids
  nothingLeft : NoKeys (fun _ s => s = sid) r'
  others : SameKeys (fun _ s => s ≠ sid) r r'

section Removal
variable {ttl : ℕ} {drawn : Drawn} {r : Redis} {l : SessionLedger}

theorem srem_removes {u sid : UUID} {m : ExpiringMap UUID (List UUID)} {ids : List UUID}
    (h : (srem u sid m).value u = some ids) : sid ∉ ids := by
  unfold srem at h
  cases hm : m u with
  | none => simp [hm, ExpiringMap.value] at h
  | some e =>
    simp only [hm] at h
    split_ifs at h with hnil
    · simp [ExpiringMap.value, ExpiringMap.remove_apply] at h
    · simp only [ExpiringMap.value, ExpiringMap.modify_apply, ↓reduceIte, Option.map_some,
        Option.some.injEq] at h
      simp [← h]

/-- On a coupled store the credentials in the hash are those of the session, so the
revocation pipeline takes all of the session and nothing else. -/
theorem revokeOne_removed (h : Consistent (seconds ttl) drawn r l) {sid : UUID}
    {data : SessionHash} (hdata : r.session.value sid = some data) :
    Removed sid data r (revokeOne sid r) := by
  have hafter := consistent_revokeOne h sid
  obtain ⟨t, hl, hu, hj, hk⟩ := h.coupled.session_value hdata
  obtain ⟨hwa, hwr⟩ := h.coupled.written sid t hl
  obtain ⟨ids, d, hids, hmem, -⟩ := h.indexed.listed sid t hl
  have hrun : revokeOne sid r = { r with
      access := r.access.remove t.access
      refresh := r.refresh.remove t.renewal
      session := r.session.remove sid
      sessions := srem t.owner sid r.sessions } := by
    simp only [revokeOne, hdata, revokePipeline, hu, hj, hk, Option.getD_some, removeUnlessEmpty, hwa,
      hwr, ↓reduceIte]
  refine ⟨⟨t.owner, t.access, t.renewal, hu, hj, hk, hrun, ?_, Coupled.refresh_value_of h.coupled hl,
    ⟨ids, ExpiringMap.value_of_entry hids, hmem⟩, ?_⟩, ?_, ?_⟩
  · intro raw hraw
    obtain ⟨e, he, rfl⟩ := Option.map_eq_some_iff.1 hraw
    obtain ⟨s, t', hl', hj', -, rfl⟩ := (h.coupled.access _ _).1 he
    obtain rfl := h.coupled.accessSeparates s sid t' t hl' hl hj'
    rw [hl, Option.some.injEq] at hl'
    rw [hl', accessEntry]
  · intro ids' hids'
    rw [hrun] at hids'
    exact srem_removes hids'
  · refine Coupled.noKeys hafter.coupled ?_
    rintro s t' rfl
    rw [Ledger.close_apply, if_pos rfl]
    simp
  · refine Coupled.sameKeys h.coupled hafter.coupled (revokeOne_now _ _) ?_ ?_
    · intro s t' hs
      rw [Ledger.close_apply, if_neg hs]
    · intro s t' hs _
      rw [hrun]
      exact (ExpiringMap.remove_apply _ _ _).trans (if_neg hs)

end Removal

/-- The store changes exactly for an authorised caller; then the session is removed and
success is reported, and otherwise success is not reported. -/
theorem revocation_exact {g : GlobalContainer} (hpos : 0 < g.accessTokenTtlSeconds)
    (hle : g.accessTokenTtlSeconds ≤ g.refreshTokenTtlSeconds) {v : StoreState}
    (h : Reachable (storeRuns g) v) (w₀ : World) (header text : String) (ip : Option String)
    (d : RevokeDraws) :
    let w := withStore v.redis w₀
    let r' := (after g noFaults (.revokeSession header text ip d) w).redis
    let response := answer g noFaults (.revokeSession header text ip d) w
    (r' ≠ v.redis ↔ ∃ sid data, Authorised g header text w sid data) ∧
      (∀ sid data, Authorised g header text w sid data → Removed sid data v.redis r' ∧
        ∃ m, response = .operationResult true m) ∧
      ((¬ ∃ sid data, Authorised g header text w sid data) →
        r' = v.redis ∧ ∀ m, response ≠ .operationResult true m) := by
  intro w r' response
  obtain ⟨l, hc⟩ := storeInvariant_reachable hpos hle h
  have hsame : ∀ sid data, Authorised g header text { w with commands := 0 } sid data ↔
      Authorised g header text w sid data := fun _ _ => Iff.rfl
  have hredis : r' = (revoke g noFaults header text ip d { w with commands := 0 }).2.redis := by
    have hafter := congrArg World.redis (after_eq g noFaults (.revokeSession header text ip d) w)
    exact hafter
  have hresponse : response =
      reported (revoke g noFaults header text ip d { w with commands := 0 }).1 := answer_eq _ _ _ _
  rcases revoke_run (g := g) quiet_noFaults header text ip d { w with commands := 0 } with
    ⟨hno, ⟨hkept, -⟩, hfail⟩ | ⟨sid, data, hauth, hok, hrun, -⟩
  · simp only [hsame] at hno
    rw [← hredis] at hkept
    rw [← hresponse] at hfail
    refine ⟨⟨fun hne => absurd hkept hne, fun hex => absurd hex hno⟩, ?_, fun _ => ⟨hkept, hfail⟩⟩
    exact fun sid data hauth => absurd ⟨sid, data, hauth⟩ hno
  · rw [hsame] at hauth
    have hlive : v.redis.session.value sid = some data := by
      obtain ⟨_, _, -, -, -, -, -, -, hs, -⟩ := hauth
      exact hs
    have hremoved : Removed sid data v.redis r' := by
      rw [hredis, hrun]
      exact revokeOne_removed hc hlive
    have hchanged : r' ≠ v.redis := by
      intro heq
      obtain ⟨_, _, _, -, -, -, hr, -⟩ := hremoved.keys
      rw [heq] at hr
      have hgone : v.redis.session sid = none :=
        (congrArg (fun x => x.session sid) hr).trans
          ((ExpiringMap.remove_apply _ _ _).trans (if_pos rfl))
      rw [ExpiringMap.value, hgone] at hlive
      simp at hlive
    refine ⟨⟨fun _ => ⟨sid, data, hauth⟩, fun _ => hchanged⟩, ?_,
      fun hno => absurd ⟨sid, data, hauth⟩ hno⟩
    rintro sid' data' hauth'
    obtain ⟨_, _, -, -, -, -, -, hp, -, -⟩ := hauth
    obtain ⟨_, _, -, -, -, -, -, hp', hs', -⟩ := hauth'
    rw [hp, Option.some.injEq] at hp'
    subst hp'
    obtain rfl := Option.some.inj (hlive.symm.trans hs')
    exact ⟨hremoved, _, by rw [hresponse, hok]; rfl⟩

section Sample
open SampleContainer

def signedIn : World := { initialWorld with signed := [loginClaims] }

theorem revocation_exact_login : ∃ m, answer sample noFaults
    (.revokeSession ("Bearer " ++ loginToken) sessionOne.str none ⟨eventOne⟩)
    (withStore afterLogin.redis signedIn) = .operationResult true m := by
  have hdata : ∃ data, afterLogin.redis.session.value sessionOne = some data ∧
      data.userId = some alice := ⟨_, rfl, rfl⟩
  obtain ⟨data, hdata, hu⟩ := hdata
  refine ((revocation_exact (g := sample) (by decide) (by decide) afterLogin_reachable signedIn
    ("Bearer " ++ loginToken) sessionOne.str none ⟨eventOne⟩).2.1 sessionOne data
    ⟨loginToken, loginClaims, ?_, ?_, ?_, ?_, ?_, parse_str _, hdata, ?_⟩).2
  · refine bearerToken_append ?_
    have hspace := encode_no_space loginClaims
    rwa [encode, if_pos rfl] at hspace
  · have htoken : encode loginClaims = loginToken := if_pos rfl
    exact decoded_eq_some.2 ⟨List.mem_cons_self, htoken, by decide +kernel⟩
  · exact str_ne_empty alice
  · exact str_ne_empty jtiOne
  · decide +kernel
  · rw [hu]
    rfl

end Sample

end AuthService.AuthorisedRevocation
