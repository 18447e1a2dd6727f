import AuthService.AccountEffects
import AuthService.ServiceRuns
import AuthService.SessionFrames

set_option autoImplicit false

/-! Runs of the service in which accounts may also be switched off and sessions revoked by
their handler alone: who is given tokens, and what a password reset leaves. -/
namespace AuthService.AccountRuns
open Uuids PythonText DomainModel KeyedRows AccountTables Transactions FallibleState Fallible
open ExpiringMaps LabelledRuns RedisSessions RequestPorts RedisTokenStore CommandHandlers
open GraphqlResolvers HandlerRuns SessionDiscipline AccountEffects CredentialLedgers SessionCoupling
open SessionStoreRuns SessionFrames ServiceRuns

/-- `User.deactivate`, followed by `UserRepository.save`. -/
def deactivateUser (g : GlobalContainer) (faults : Faults) (userId : UUID) : AuthM Unit := do
  let found ← findById g faults userId
  match found with
  | none => pure ()
  | some user => saveUser g faults user.deactivate

inductive AccountEvent where
  | event (e : Event)
  | revokeSession (command : RevokeSessionCommand) (d : RevokeDraws)
  | deactivate (userId : UUID)

inductive AccountStep (g : GlobalContainer) : ServiceState → AccountEvent → ServiceState → Prop where
  | event {s s' : ServiceState} {e : Event} (h : ServiceStep g s e s') : AccountStep g s (.event e) s'
  | revokeSession (s : ServiceState) (command : RevokeSessionCommand) (d : RevokeDraws) :
      AccountStep g s (.revokeSession command d)
        { s with world := (requestScope (revokeSessionHandler noFaults command d) s.world).2 }
  | deactivate (s : ServiceState) (userId : UUID) :
      AccountStep g s (.deactivate userId)
        { s with world := (requestScope (deactivateUser g noFaults userId) s.world).2 }

def accounts (g : GlobalContainer) : System ServiceState AccountEvent where
  init := Starts g
  step := AccountStep g

/-- The event handed the user an access token. -/
def IssuedTo (g : GlobalContainer) (u : UUID) (x : ServiceState × AccountEvent) : Prop :=
  ∃ e c, x.2 = .event e ∧ tokenIssued g (x.1, e) = some (g.encode c) ∧ c.sub = u.str

def ActiveIn (g : GlobalContainer) (t : Tables) (u : UUID) : Prop :=
  ∃ user, t.findById g.unicode u = .ok (some user) ∧ user.isActive = true

/-- The event is no refresh with a live token whose owner was switched off. -/
def SparesInactive (s : ServiceState) (e : AccountEvent) : Prop :=
  ∀ token ip d, e = .event (.request (.refreshToken token ip d)) →
    ∀ u sid m, s.world.redis.refresh.value token = some (payload u sid) →
      m ∈ s.world.db.committed.users → m.id = u → m.isActive = true

def HasUser (u : UUID) (t : Tables) : Prop := ∃ m ∈ t.users, m.id = u

theorem hasUser_apply {u : UUID} {t : Tables} (h : HasUser u t) (stmt : Statement) :
    HasUser u (stmt.apply t) := by
  cases stmt with
  | insertUser row =>
    obtain ⟨m, hm, hid⟩ := h
    exact ⟨m, List.mem_append_left _ hm, hid⟩
  | updateUser old new => exact owners_amend h
  | insertResetToken row => exact h
  | updateResetToken old new => exact h
  | deleteResetTokens ids => exact h
  | insertEvent row => exact h

theorem allows_hasUser (u : UUID) (f : Tables → Except Exn Statement) :
    Allows (Preserving (HasUser u)) f :=
  allows_preserving (fun _ stmt h _ => hasUser_apply h stmt)

theorem keeps_deactivateUser {S : Session Tables Statement → Session Tables Statement → Prop}
    (hS : Discipline S) {g : GlobalContainer} {faults : Faults}
    (hu : ∀ user : User g.unicode, Allows S (Tables.saveUser user)) (userId : UUID) :
    Keeps (overDb S) (deactivateUser g faults userId) := by
  refine keeps_bind hS (keeps_query hS) (fun found => ?_)
  cases found with
  | none => exact keeps_pure hS _
  | some user => exact keeps_flush hS (hu _)

theorem sameStore_deactivateUser {g : GlobalContainer} {faults : Faults} (userId : UUID) :
    Keeps SameStore (deactivateUser g faults userId) := by
  refine sameStore_bind sameStore_query (fun found => ?_)
  cases found with
  | none => exact sameStore_pure _
  | some user => exact sameStore_flush

theorem requestScope_sameStore {α : Type} {m : AuthM α} (hm : Keeps SameStore m) (w : World) :
    SameStore w (requestScope m w).2 := by
  have hk := hm { w with commands := 0 }
  unfold requestScope
  cases hr : m { w with commands := 0 } with
  | mk x w' =>
    rw [hr] at hk
    cases x <;> exact hk

section Users
variable {g : GlobalContainer} {s s' : ServiceState} {e : AccountEvent}

theorem hasUser_step {u : UUID} (hw : s.world.db.Fresh) (h : HasUser u s.world.db.committed)
    (hs : AccountStep g s e s') : HasUser u s'.world.db.committed := by
  cases hs with
  | event hs =>
    cases hs with
    | wait d => exact h
    | request r fresh =>
      rw [recordDraws_world]
      exact @after_preserving (HasUser u) g noFaults (fun _ _ h => hasUser_apply h _)
        (fun _ _ _ h _ => hasUser_apply h _) (fun _ _ h => hasUser_apply h _)
        (fun _ _ _ h _ => hasUser_apply h _) r _ hw h
  | revokeSession command d =>
    exact requestScope_preserving (keeps_revokeSessionHandler (preserving_discipline _)
      (fun _ => allows_hasUser u _) command d) hw h
  | deactivate userId =>
    exact requestScope_preserving (keeps_deactivateUser (preserving_discipline _)
      (fun _ => allows_hasUser u _) userId) hw h

end Users

section Issued
variable {g : GlobalContainer} {s : ServiceState} {l : SessionLedger}

theorem accessTokenOf_toPayload (pair : TokenPairDTO) :
    accessTokenOf (TokenPairDTO.toPayload pair) = some pair.accessToken := rfl

theorem login_issued (h : ServiceInvariant g s l) {u : UUID} {email password : String}
    {device ip : Option String} {d : LoginDraws} {c : Claims}
    (hi : tokenIssued g (s, .request (.login email password device ip d)) = some (g.encode c))
    (hc : c.sub = u.str) : ∃ m ∈ s.world.db.committed.users, m.id = u ∧ m.isActive = true := by
  rw [tokenIssued_login] at hi
  obtain ⟨-, hok, herr⟩ := serve_login g noFaults s.world email password device ip d
  have hout := authenticateUser_outcome (g := g) (w := { s.world with commands := 0 }) quiet_noFaults
    h.usable ⟨email, password, device, ip⟩ d
  have hview : World.tables { s.world with commands := 0 } = s.world.db.committed := h.view
  generalize authenticateUser g noFaults ⟨email, password, device, ip⟩ d
    { s.world with commands := 0 } = out at hok herr hout
  cases hout with
  | refused _ _ => rw [accessTokenOf_failed (herr _ rfl)] at hi; simp at hi
  | @opened m w' stored active verified redis signed =>
    rw [hok _ rfl, accessTokenOf_toPayload, Option.some.injEq] at hi
    have hclaims := g.encode_injective hi
    rw [hview] at stored
    refine ⟨m, stored, str_injective ?_, active⟩
    rw [← hc, ← hclaims]
    rfl

theorem refresh_issued (h : ServiceInvariant g s l) (u : UUID) (token : String) (ip : Option String)
    (d : RefreshDraws) :
    IssuedTo g u (s, .event (.request (.refreshToken token ip d))) ↔
      ∃ sid, s.world.redis.refresh.value token = some (payload u sid) := by
  obtain ⟨-, hok, herr⟩ := serve_refresh g noFaults s.world token ip d
  have hout := refresh_rotates (w := { s.world with commands := 0 }) quiet_noFaults h.store
    ⟨token, ip⟩ d
  generalize refreshToken g noFaults ⟨token, ip⟩ d { s.world with commands := 0 } = out at hok herr hout
  rcases hout with ⟨hnone, ⟨e, he⟩, -⟩ | ⟨sid, t, hl, rfl, hpair, -⟩
  · have hsilent : tokenIssued g (s, .request (.refreshToken token ip d)) = none := by
      rw [tokenIssued_refresh, accessTokenOf_failed (herr e he)]
    constructor
    · rintro ⟨e', c, he', hi, -⟩
      rw [← AccountEvent.event.inj he', hsilent] at hi
      simp at hi
    · rintro ⟨sid, hv⟩
      rw [ExpiringMap.value_eq_none.2 hnone] at hv
      simp at hv
  · have hissued : tokenIssued g (s, .request (.refreshToken t.renewal ip d)) =
        some (g.encode (g.accessClaims s.world.redis.now t.owner sid d.jti)) := by
      rw [tokenIssued_refresh, hok _ hpair, accessTokenOf_toPayload]
    have hv := Coupled.refresh_value_of h.store.coupled hl
    constructor
    · rintro ⟨e', c, he', hi, hc⟩
      rw [← AccountEvent.event.inj he', hissued, Option.some.injEq] at hi
      have hsub : t.owner.str = u.str := by
        rw [← hc, ← g.encode_injective hi]
        rfl
      exact ⟨sid, by rw [hv, str_injective hsub]⟩
    · rintro ⟨sid', hv'⟩
      rw [hv, Option.some.injEq, payload_inj] at hv'
      exact ⟨_, _, rfl, hissued, by rw [hv'.1]; rfl⟩

end Issued

structure AccountInvariant (g : GlobalContainer) (s : ServiceState) (l : SessionLedger) : Prop where
  service : ServiceInvariant g s l
  owned : ∀ sid t, l sid = some t → HasUser t.owner s.world.db.committed

section Invariant
variable {g : GlobalContainer} {s s' : ServiceState} {l : SessionLedger}

theorem starts_account (h : Starts g s) : AccountInvariant g s Ledger.empty where
  service := starts_invariant h
  owned sid t hl := by simp [Ledger.empty] at hl

theorem AccountInvariant.sameStore (h : AccountInvariant g s l) {w' : World}
    (hw : SameStore s.world w') (hdb : w'.db.Fresh) (ht : w'.db.committed.WellFormed g.unicode)
    (hu : ∀ u, HasUser u s.world.db.committed → HasUser u w'.db.committed) :
    AccountInvariant g { s with world := w' } l where
  service := h.service.sameStore hw hdb ht rfl (List.Subset.refl _) (List.Subset.refl _) _ _
  owned sid t hl := hu _ (h.owned sid t hl)

theorem AccountInvariant.issued_user (h : AccountInvariant g s l) {e : Event} {u : UUID} {c : Claims}
    (hi : tokenIssued g (s, e) = some (g.encode c)) (hc : c.sub = u.str) :
    HasUser u s.world.db.committed := by
  cases e with
  | wait d => simp [tokenIssued] at hi
  | request r =>
    cases r with
    | login email password device ip d =>
      obtain ⟨m, hm, hid, -⟩ := login_issued h.service hi hc
      exact ⟨m, hm, hid⟩
    | refreshToken token ip d =>
      obtain ⟨sid, hv⟩ := (refresh_issued h.service u token ip d).1 ⟨_, c, rfl, hi, hc⟩
      obtain ⟨t, hl, rfl, -⟩ := Coupled.refresh_eq_some h.service.store.coupled hv
      exact h.owned sid t hl
    | register email password d => simp [tokenIssued] at hi
    | revokeSession header text ip d => simp [tokenIssued] at hi
    | requestPasswordReset email ip d => simp [tokenIssued] at hi
    | resetPassword token password ip d => simp [tokenIssued] at hi
    | me header => simp [tokenIssued] at hi

theorem account_event (hpos : 0 < g.accessTokenTtlSeconds)
    (hle : g.accessTokenTtlSeconds ≤ g.refreshTokenTtlSeconds) (h : AccountInvariant g s l) {e : Event}
    (hs : ServiceStep g s e s') : ∃ l', AccountInvariant g s' l' := by
  obtain ⟨l', hinv, heff, -⟩ := service_advances hpos hle h.service hs
  refine ⟨l', hinv, ?_⟩
  have hstay : ∀ u, HasUser u s.world.db.committed → HasUser u s'.world.db.committed := fun u hu =>
    hasUser_step h.service.session hu (.event hs)
  intro sid t hl
  cases heff with
  | quiet _ _ _ _ => exact hstay _ (h.owned sid t hl)
  | @issued sid' u j k _ token _ _ _ =>
    rw [Ledger.issue_apply] at hl
    split_ifs at hl with heq
    · rw [← Option.some.inj hl]
      exact hstay _ (h.issued_user token rfl)
    · exact hstay _ (h.owned sid t hl)
  | closed _ _ _ _ => exact hstay _ (h.owned sid t (Ledger.close_eq_some.1 hl).2)
  | closedOwned _ _ _ _ => exact hstay _ (h.owned sid t (Ledger.closeOwned_eq_some.1 hl).1)
  | elapsed _ _ => exact hstay _ (h.owned sid t (Ledger.elapse_eq_some.1 hl).1)

theorem account_revokeSession (h : AccountInvariant g s l) (command : RevokeSessionCommand)
    (d : RevokeDraws) :
    AccountInvariant g
      { s with world := (requestScope (revokeSessionHandler noFaults command d) s.world).2 }
      (l.close command.sessionId) := by
  obtain ⟨w', hw', hr, hsig⟩ := @revokeSessionHandler_run noFaults { s.world with commands := 0 }
    quiet_noFaults command d
  have hwf : (requestScope (revokeSessionHandler noFaults command d) s.world).2.db.committed.WellFormed
      g.unicode :=
    requestScope_preserving (keeps_revokeSessionHandler (preserving_discipline _)
      (fun row => allows_preserving fun t stmt ht hs => Except.ok.inj hs ▸ ht.insertEvent row)
      command d) h.service.session h.service.tables
  have hrun : (requestScope (revokeSessionHandler noFaults command d) s.world).2 =
      { w' with db := w'.db.commit Statement.apply } := by
    rw [requestScope, hw']
  have hredis : (requestScope (revokeSessionHandler noFaults command d) s.world).2.redis =
      revokeOne command.sessionId s.world.redis := by
    rw [hrun]
    exact hr
  have hsigned : (requestScope (revokeSessionHandler noFaults command d) s.world).2.signed =
      s.world.signed := by
    rw [hrun]
    exact hsig
  refine ⟨⟨?_, requestScope_fresh _ _, hwf, ?_, ?_, ?_⟩, ?_⟩
  · rw [hredis]
    exact consistent_revokeOne h.service.store command.sessionId
  · rw [hsigned]
    exact h.service.signedOnce
  · rw [hsigned]
    exact h.service.signedDrawn
  · rw [hsigned]
    exact h.service.signedBy
  · intro sid t hl
    have hstep : AccountStep g s (.revokeSession command d) _ := .revokeSession s command d
    exact hasUser_step h.service.session (h.owned sid t (Ledger.close_eq_some.1 hl).2) hstep

theorem account_step (hpos : 0 < g.accessTokenTtlSeconds)
    (hle : g.accessTokenTtlSeconds ≤ g.refreshTokenTtlSeconds) (h : AccountInvariant g s l)
    {e : AccountEvent} (hs : AccountStep g s e s') : ∃ l', AccountInvariant g s' l' := by
  cases hs with
  | event hs => exact account_event hpos hle h hs
  | revokeSession command d => exact ⟨_, account_revokeSession h command d⟩
  | deactivate userId =>
    refine ⟨l, h.sameStore (requestScope_sameStore (sameStore_deactivateUser userId) _)
      (requestScope_fresh _ _) ?_ ?_⟩
    · exact requestScope_preserving (keeps_deactivateUser (preserving_discipline _)
        (fun _ => allows_preserving fun _ _ ht hs => ht.saveUser hs) userId)
        h.service.session h.service.tables
    · exact fun u hu => hasUser_step h.service.session hu (.deactivate s userId)

theorem account_runs (hpos : 0 < g.accessTokenTtlSeconds)
    (hle : g.accessTokenTtlSeconds ≤ g.refreshTokenTtlSeconds) {p : List (ServiceState × AccountEvent)}
    (hstart : Starts g s) (h : Runs (accounts g) s p s') : ∃ l, AccountInvariant g s' l := by
  refine h.invariant (fun v => ∃ l, AccountInvariant g v l) ?_ ⟨_, starts_account hstart⟩
  rintro v e v' ⟨l, hl⟩ hs
  exact account_step hpos hle hl hs

end Invariant

section Inactive
variable {g : GlobalContainer} {s : ServiceState} {l : SessionLedger}

theorem activeIn_iff (ht : s.world.db.committed.WellFormed g.unicode) {u : UUID}
    (hu : HasUser u s.world.db.committed) :
    ActiveIn g s.world.db.committed u ↔
      ∀ m ∈ s.world.db.committed.users, m.id = u → m.isActive = true := by
  obtain ⟨m, hm, rfl⟩ := hu
  obtain ⟨user, hfind, hd⟩ := WellFormed.findById ht hm
  have hactive : user.isActive = m.isActive := (toDomain_ok hd).2.2.1
  constructor
  · rintro ⟨user', hfind', ha⟩ m' hm' hid
    rw [hfind, Except.ok.injEq, Option.some.injEq] at hfind'
    subst hfind'
    rw [ht.userIds.unique hm' hm hid, ← hactive, ha]
  · intro hall
    exact ⟨user, hfind, hactive.trans (hall m hm rfl)⟩

theorem issued_active_iff (h : AccountInvariant g s l) (e : AccountEvent) :
    (∀ u, IssuedTo g u (s, e) → ActiveIn g s.world.db.committed u) ↔ SparesInactive s e := by
  constructor
  · rintro hall token ip d rfl u sid m hv hm hid
    have hissued := (refresh_issued h.service u token ip d).2 ⟨sid, hv⟩
    exact (activeIn_iff h.service.tables ⟨m, hm, hid⟩).1 (hall u hissued) m hm hid
  · intro hspares u hissued
    obtain ⟨e', c, rfl, hi, hc⟩ := hissued
    refine (activeIn_iff h.service.tables (h.issued_user hi hc)).2 ?_
    intro m hm hid
    cases e' with
    | wait d => simp [tokenIssued] at hi
    | request r =>
      cases r with
      | login email password device ip d =>
        obtain ⟨m', hm', hid', ha⟩ := login_issued h.service hi hc
        rw [h.service.tables.userIds.unique hm hm' (hid.trans hid'.symm), ha]
      | refreshToken token ip d =>
        obtain ⟨sid, hv⟩ := (refresh_issued h.service u token ip d).1 ⟨_, c, rfl, hi, hc⟩
        exact hspares token ip d rfl u sid m hv hm hid
      | register email password d => simp [tokenIssued] at hi
      | revokeSession header text ip d => simp [tokenIssued] at hi
      | requestPasswordReset email ip d => simp [tokenIssued] at hi
      | resetPassword token password ip d => simp [tokenIssued] at hi
      | me header => simp [tokenIssued] at hi

end Inactive

/-- In a run all tokens go to active users exactly when no refresh presents a live token
of a user who was switched off. -/
theorem issued_active_run_iff {g : GlobalContainer} (hpos : 0 < g.accessTokenTtlSeconds)
    (hle : g.accessTokenTtlSeconds ≤ g.refreshTokenTtlSeconds) {s s' : ServiceState}
    {p : List (ServiceState × AccountEvent)} (hstart : Starts g s) (h : Runs (accounts g) s p s') :
    (∀ x ∈ p, ∀ u, IssuedTo g u x → ActiveIn g x.1.world.db.committed u) ↔ Meets SparesInactive p := by
  have hinv : ∀ v ∈ Visited p s', ∃ l, AccountInvariant g v l := by
    intro v hv
    obtain ⟨q, hq, -⟩ := h.front hv
    exact account_runs hpos hle hstart hq
  have hbefore : ∀ x ∈ p, ∃ l, AccountInvariant g x.1 l := fun x hx =>
    hinv x.1 (List.mem_cons_of_mem _ (List.mem_map_of_mem hx))
  constructor
  · intro hall x hx
    obtain ⟨l, hl⟩ := hbefore x hx
    exact (issued_active_iff hl x.2).1 (hall x hx)
  · intro hmeets x hx
    obtain ⟨l, hl⟩ := hbefore x hx
    exact (issued_active_iff hl x.2).2 (hmeets x hx)

def committedBy (w : World) : Tables := (w.db.commit Statement.apply).committed

/-- The user `u` lost every session, and everyone else kept theirs. -/
structure SignedOut (u : UUID) (r r' : Redis) : Prop where
  nothingLeft : NoKeys (fun v _ => v = u) r'
  unlisted : r'.sessions u = none
  others : SameKeys (fun v _ => v ≠ u) r r'
  otherIndexes : ∀ v, v ≠ u → r'.sessions v = r.sessions v

section Reset
variable {g : GlobalContainer} {drawn : Drawn} {r : Redis} {l : SessionLedger}

theorem revokeAll_signedOut {ttl : ℕ} (h : Consistent (seconds ttl) drawn r l) (u : UUID) :
    SignedOut u r (revokeAll u r) := by
  obtain ⟨hc, hsess⟩ := h.after_revokeAll u
  refine ⟨?_, ?_, ?_, ?_⟩
  · refine Coupled.noKeys hc ?_
    rintro s t howner hl
    exact (Ledger.closeOwned_eq_some.1 hl).2 howner
  · rw [hsess, ExpiringMap.remove_apply, if_pos rfl]
  · refine Coupled.sameKeys h.coupled hc (revokeAll_now u r) ?_ ?_
    · intro s t howner
      rw [Ledger.closeOwned_eq_some]
      exact ⟨And.left, fun hl => ⟨hl, howner⟩⟩
    · intro s t howner hl
      have hmem : s ∉ (r.sessions.value u).getD [] := by
        intro hm
        cases hv : r.sessions.value u with
        | none => simp [hv] at hm
        | some ids =>
          rw [hv] at hm
          exact howner (h.indexed.own u ids hv s hm t hl)
      rw [revokeAll, revokeList_session, if_neg hmem]
  · intro v hv
    rw [hsess, ExpiringMap.remove_apply, if_neg hv]

end Reset

/-- A reset that succeeds signs its user out, changes that user's hash and uses up the one
token; a reset that fails changes neither the store nor the account tables. -/
theorem reset_exact {g : GlobalContainer} (hpos : 0 < g.accessTokenTtlSeconds)
    (hle : g.accessTokenTtlSeconds ≤ g.refreshTokenTtlSeconds) {s : ServiceState}
    (h : Reachable (accounts g) s) (command : ResetPasswordCommand) (d : ResetDraws) :
    let t := s.world.db.committed
    let out := resetPassword g noFaults command d s.world
    (out.1 = .ok () → ∃ row ∈ t.passwordResetTokens, row.token = g.sha256 command.token ∧
      row.used = false ∧ HasUser row.userId t ∧ SignedOut row.userId s.world.redis out.2.redis ∧
      (committedBy out.2).users =
        amend UserModel.id row.userId (withPassword (g.hashpw command.newPassword d.salt)) t.users ∧
      (committedBy out.2).passwordResetTokens =
        amend PasswordResetTokenModel.id row.id consumed t.passwordResetTokens) ∧
    ∀ e, out.1 = .error e → out.2.redis = s.world.redis ∧ (committedBy out.2).users = t.users ∧
      (committedBy out.2).passwordResetTokens = t.passwordResetTokens := by
  intro t out
  obtain ⟨s₀, p, hstart, hrun⟩ := h
  obtain ⟨l, hinv⟩ := account_runs hpos hle hstart hrun
  have hview : s.world.tables = t := hinv.service.view
  have hout := resetPassword_outcome (g := g) quiet_noFaults hinv.service.session.2 command d
  have heff := resetPassword_effect hinv.service.session hinv.service.tables command d
  have hfresh : committedBy s.world = t := by
    rw [committedBy, Session.commit_of_fresh _ hinv.service.session]
  replace hout : ResetOutcome g noFaults command d s.world out := hout
  replace heff : ResetEffect g command d s.world out := heff
  clear_value out
  constructor
  · intro hok
    cases heff with
    | weak _ => simp at hok
    | missing _ => simp at hok
    | refused _ _ => simp at hok
    | @done row w' p password found usable alive users tokens =>
      obtain ⟨-, hunused, -⟩ := PasswordResetToken.consume_ok.1 usable
      cases hout with
      | completed _ found' consumed' owner _ _ =>
        rw [hview] at found' owner
        obtain ⟨row', hrow', htok', huid, -⟩ := reset_owner found' consumed' owner
        obtain ⟨hrow, htok⟩ := lookup_some found
        obtain rfl := hinv.service.tables.tokens.unique hrow hrow' (htok.trans htok'.symm)
        refine ⟨row, hrow, htok, hunused, hinv.service.tables.owners row hrow, ?_, ?_, ?_⟩
        · rw [audited_redis, huid]
          exact revokeAll_signedOut hinv.service.store _
        · rw [committedBy, Session.commit_committed _ _ alive]
          exact users
        · rw [committedBy, Session.commit_committed _ _ alive]
          exact tokens
  · intro e he
    cases heff with
    | weak _ => exact ⟨rfl, by rw [hfresh], by rw [hfresh]⟩
    | missing _ => exact ⟨rfl, by rw [hfresh], by rw [hfresh]⟩
    | refused _ _ => exact ⟨rfl, by rw [hfresh], by rw [hfresh]⟩
    | done _ _ _ _ _ _ => simp at he

section Sample
open SampleContainer

def loginEvent : AccountEvent := .event (.request sampleLoginRequest)

def resetRequestEvent : AccountEvent := .event (.request sampleResetRequest)

def loggedIn : ServiceState :=
  recordDraws sampleLoginRequest (after sample noFaults sampleLoginRequest initialWorld) sampleStart

def resetRequested : ServiceState :=
  recordDraws sampleResetRequest (after sample noFaults sampleResetRequest loggedIn.world) loggedIn

theorem loggedIn_runs : Runs (accounts sample) sampleStart [(sampleStart, loginEvent)] loggedIn :=
  .single (.event (ServiceStep.request sampleStart sampleLoginRequest sampleStart_fresh_login))

theorem resetRequested_runs : Runs (accounts sample) sampleStart
    [(loggedIn, resetRequestEvent), (sampleStart, loginEvent)] resetRequested := by
  refine .next loggedIn_runs (.event (ServiceStep.request loggedIn sampleResetRequest ⟨?_, ?_⟩))
  · exact List.not_mem_nil
  · exact List.not_mem_nil

theorem reset_exact_signedOut : SignedOut alice resetRequested.world.redis
    (resetPassword sample noFaults ⟨rawA.text, "Passw0rd2", none⟩ ⟨saltTwo, eventOne⟩
      resetRequested.world).2.redis := by
  obtain ⟨row, hrow, -, -, -, hout, -⟩ := (reset_exact (g := sample) (by decide) (by decide)
    ⟨_, _, sampleStart_starts, resetRequested_runs⟩ ⟨rawA.text, "Passw0rd2", none⟩
    ⟨saltTwo, eventOne⟩).1 (by decide +kernel)
  have howner : ∀ row ∈ resetRequested.world.db.committed.passwordResetTokens, row.userId = alice := by
    decide +kernel
  rw [← howner row hrow]
  exact hout

theorem loginEvent_issued : IssuedTo sample alice (sampleStart, loginEvent) := by
  refine ⟨.request sampleLoginRequest, loginClaims, rfl, ?_, rfl⟩
  change tokenIssued sample (sampleStart, .request sampleLoginRequest) = _
  decide +kernel

theorem issued_active_loggedIn : IssuedTo sample alice (sampleStart, loginEvent) ∧
    ActiveIn sample sampleStart.world.db.committed alice :=
  ⟨loginEvent_issued,
    (issued_active_run_iff (by decide) (by decide) sampleStart_starts loggedIn_runs).2
      (meets_cons.2 ⟨fun _ _ _ h => (nomatch h), meets_nil _⟩) (sampleStart, loginEvent)
      List.mem_cons_self alice loginEvent_issued⟩

def switchOff : AccountEvent := .deactivate alice

def renew : AccountEvent := .event (.request (.refreshToken rawA.text none ⟨jtiTwo, rawB, eventOne⟩))

def switchedOff : ServiceState :=
  { loggedIn with world := (requestScope (deactivateUser sample noFaults alice) loggedIn.world).2 }

def renewed : ServiceState :=
  recordDraws (.refreshToken rawA.text none ⟨jtiTwo, rawB, eventOne⟩)
    (after sample noFaults (.refreshToken rawA.text none ⟨jtiTwo, rawB, eventOne⟩) switchedOff.world)
    switchedOff

theorem switchedOff_runs : Runs (accounts sample) sampleStart
    [(loggedIn, switchOff), (sampleStart, loginEvent)] switchedOff :=
  .next loggedIn_runs (.deactivate loggedIn alice)

/-- The account is switched off after the login, and the session is renewed all the same. -/
theorem inactive_account_renews :
    Runs (accounts sample) sampleStart
      [(switchedOff, renew), (loggedIn, switchOff), (sampleStart, loginEvent)] renewed ∧
    IssuedTo sample alice (switchedOff, renew) ∧
    ¬ ActiveIn sample switchedOff.world.db.committed alice := by
  refine ⟨.next switchedOff_runs (.event (ServiceStep.request switchedOff _ ⟨?_, ?_⟩)), ?_, ?_⟩
  · decide +kernel
  · decide +kernel
  · obtain ⟨l, hl⟩ := account_runs (g := sample) (by decide) (by decide) sampleStart_starts
      switchedOff_runs
    exact (refresh_issued hl.service alice _ _ _).2 ⟨sessionOne, by decide +kernel⟩
  · rintro ⟨user, hfind, hactive⟩
    have hoff : (switchedOff.world.db.committed.findById sample.unicode alice).toOption.bind
        (Option.map User.isActive) = some false := by
      decide +kernel
    rw [hfind] at hoff
    simp [Except.toOption, hactive] at hoff

end Sample

end AuthService.AccountRuns
