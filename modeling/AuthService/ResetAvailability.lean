import AuthService.PasswordHistory
import AuthService.PostRefinement

set_option autoImplicit false

/-! A mailed reset token stays good until it expires, whatever else is sent meanwhile. -/
namespace AuthService.ResetAvailability
open Uuids PythonText DomainModel KeyedRows AccountTables Transactions FallibleState Fallible
open FallibleTriples ExpiringMaps JsonText GraphqlDocuments RedisSessions RequestPorts CommandHandlers
open GraphqlResolvers HandlerRuns SessionDiscipline ServiceRuns AccountEffects PasswordHistory
open RateLimitMiddleware IdempotencyExtension EmailCounters RequestTriples HttpService VisitTriples
open AccountIntegrity PostRefinement LabelledRuns

/-- The request asks for no reset for the address, and presents no token with the hash. -/
def Spares (g : GlobalContainer) (address hash : String) : Request → Prop
  | .requestPasswordReset email _ _ => ∀ a, Email.new g.unicode email = .ok a → a.value ≠ address
  | .resetPassword token _ _ _ => g.sha256 token ≠ hash
  | _ => True

def SparingVisits (g : GlobalContainer) (parse : String → Option Document) (address hash : String)
    (_ : HttpState) : HttpEvent → Prop
  | .wait _ => True
  | .visit v => ∀ r, Performs parse v r → Spares g address hash r

/-- A request that began with the tables `t₀` still sees this row. -/
structure Stored (u : Unicode) (t₀ : Tables) (row : PasswordResetTokenModel) (w : World) : Prop where
  committed : w.db.committed = t₀
  view : w.tables.WellFormed u
  row : row ∈ w.tables.passwordResetTokens

section Stored
variable {u : Unicode} {t₀ : Tables} {row : PasswordResetTokenModel} {w : World}

theorem Stored.flush (h : Stored u t₀ row w) {stmt : Statement}
    (hview : (stmt.apply w.tables).WellFormed u)
    (hrow : row ∈ (stmt.apply w.tables).passwordResetTokens) :
    Stored u t₀ row { w with db := w.db.flush [stmt] } := by
  rw [← tables_flush] at hview hrow
  exact ⟨h.committed, hview, hrow⟩

theorem stored_steady (ht : t₀.WellFormed u) (hrow : row ∈ t₀.passwordResetTokens) :
    Steady (Stored u t₀ row) where
  rollback := by
    intro w h
    have hview : World.tables { w with db := w.db.rollback } = t₀ := h.committed
    exact ⟨h.committed, hview ▸ ht, hview ▸ hrow⟩
  event := fun w event h => h.flush (h.view.insertEvent event) h.row
  redis := fun w r n h _ => ⟨h.committed, h.view, h.row⟩
  signed := fun w signed h => ⟨h.committed, h.view, h.row⟩
  dummy := fun w hash h => ⟨h.committed, h.view, h.row⟩

theorem Stored.saveUser (h : Stored u t₀ row w) {user : User u} {stmt : Statement}
    (hs : w.tables.saveUser user = .ok stmt) : Stored u t₀ row { w with db := w.db.flush [stmt] } := by
  refine h.flush (h.view.saveUser hs) ?_
  obtain ⟨-, ⟨-, rfl⟩ | ⟨old, -, rfl⟩⟩ := saveUser_ok hs <;> exact h.row

theorem Stored.saveResetToken (h : Stored u t₀ row w) {token : PasswordResetToken} {stmt : Statement}
    (hid : row.id ≠ token.id) (hs : w.tables.saveResetToken token = .ok stmt) :
    Stored u t₀ row { w with db := w.db.flush [stmt] } := by
  refine h.flush (h.view.saveResetToken hs) ?_
  obtain ⟨-, ⟨-, rfl⟩ | ⟨old, hold, rfl⟩⟩ := saveResetToken_ok hs
  · exact List.mem_append_left _ h.row
  · obtain ⟨-, hold⟩ := lookup_some hold
    exact mem_amend.2 ⟨row, h.row, if_neg (by rw [hold]; exact hid)⟩

theorem Stored.deleteAll (h : Stored u t₀ row w) {uid : UUID} (hid : row.userId ≠ uid) :
    Stored u t₀ row { w with db := w.db.flush [w.tables.deleteAllByUserId uid] } := by
  refine h.flush (h.view.deleteAll uid) ?_
  rw [deleteAll_tokens h.view]
  exact List.mem_filter.2 ⟨h.row, decide_eq_true hid⟩

theorem Stored.closed (h : Stored u t₀ row w) (hrow : row ∈ t₀.passwordResetTokens) (commits : Bool) :
    row ∈ (if commits then w.db.commit Statement.apply
      else w.db.discard).committed.passwordResetTokens := by
  have hstart : row ∈ w.db.committed.passwordResetTokens := by
    rw [h.committed]
    exact hrow
  cases commits with
  | false => exact hstart
  | true =>
    change row ∈ (if w.db.aborted then w.db.committed else w.db.view
      Statement.apply).passwordResetTokens
    split_ifs
    · exact hstart
    · exact h.row

end Stored

section Handlers
variable {g : GlobalContainer} {faults : Faults} {t₀ : Tables} {row : PasswordResetTokenModel}
  {n : ℕ} {K : Warrant}

theorem register_stored (ht : t₀.WellFormed g.unicode) (hrow : row ∈ t₀.passwordResetTokens)
    (email password : String) (d : RegisterDraws) :
    Stays (Stored g.unicode t₀ row) (register g faults email password d) := by
  have hI : Settled (Stored g.unicode t₀ row) := (stored_steady ht hrow).settled
  refine stays_handle (stays_bind ?_ (fun _ => stays_pure _)) (fun e => ?_)
  · unfold registerUser
    refine stays_bind (stays_ofExcept _) (fun address => ?_)
    refine stays_bind (stays_ofExcept _) (fun _ => ?_)
    refine stays_bind (stays_query hI.readable) (fun existing => ?_)
    cases existing with
    | some _ => exact stays_raise _
    | none =>
      refine stays_bind stays_now (fun _ => ?_)
      exact triple_flush hI (fun _ => id) (fun _ _ h hs => h.saveUser hs)
  · cases e <;> first | exact stays_pure _ | exact stays_raise _

theorem requestReset_stored (ht : t₀.WellFormed g.unicode) (hrow : row ∈ t₀.passwordResetTokens)
    {m : UserModel} (hm : m ∈ t₀.users) (howner : m.id = row.userId) {email : String}
    {ip : Option String}
    {d : RequestResetDraws} (hother : ∀ a, Email.new g.unicode email = .ok a → a.value ≠ m.email)
    (hid : row.id ≠ d.tokenId) :
    Triple (fun w => Inside g.unicode t₀ n K w ∧ Stored g.unicode t₀ row w)
      (requestReset g faults email ip d) (fun _ => Stored g.unicode t₀ row)
      (fun _ => Stored g.unicode t₀ row) := by
  have hI : Settled (Stored g.unicode t₀ row) := (stored_steady ht hrow).settled
  refine .handle (.bind ?_ (fun _ => stays_pure _)) (fun e => ?_)
  · unfold requestPasswordReset
    refine .bind (triple_checked (fun _ h => h.2) _) (fun address => .of_fact fun haddress => ?_)
    refine .bind (triple_query hI.readable (fun _ h => h.2)) (fun found => ?_)
    cases found with
    | none => exact .raise _ (fun _ h => h.1.2)
    | some user =>
      refine .bind (Q := fun _ => Stored g.unicode t₀ row)
        (triple_flush hI (fun _ h => h.1.2) ?_) (fun _ => stays_bind stays_now (fun _ => ?_))
      · rintro w stmt ⟨⟨hin, hstored⟩, hfound⟩ hs
        obtain rfl := Except.ok.inj hs
        refine hstored.deleteAll fun huser => hother address haddress ?_
        -- the account that was found and the owner of the row are then one
        obtain ⟨m', hl, hd⟩ := findByEmail_stored hfound
        obtain ⟨hm', hname⟩ := lookup_some hl
        obtain ⟨x, hx, hsame⟩ := hin.view.kept m hm
        have hids : m'.id = x.id := by
          rw [hsame.id, howner, huser]
          exact (toDomain_ok hd).1.symm
        obtain rfl := hstored.view.userIds.unique hm' hx hids
        exact hname.symm.trans hsame.email
      refine stays_bind (triple_flush hI (fun _ => id) (fun _ _ h hs => h.saveResetToken hid hs))
        (fun _ => ?_)
      refine stays_bind ⟨fun w h => ?_⟩ (fun _ => stays_bind stays_now (fun _ => stays_tryRecord hI _))
      unfold sendResetEmail
      cases faults .sendResetEmail with
      | some _ => exact h
      | none => exact ⟨h.committed, h.view, h.row⟩
  · cases e <;> first | exact stays_pure _ | exact stays_raise _

theorem reset_stored (ht : t₀.WellFormed g.unicode) (hrow : row ∈ t₀.passwordResetTokens)
    {token : String} (hother : g.sha256 token ≠ row.token) (newPassword : String) (ip : Option String)
    (d : ResetDraws) :
    Stays (Stored g.unicode t₀ row) (reset g faults token newPassword ip d) := by
  have hI : Settled (Stored g.unicode t₀ row) := (stored_steady ht hrow).settled
  refine stays_handle (stays_bind ?_ (fun _ => stays_pure _)) (fun e => ?_)
  · unfold resetPassword
    refine stays_bind (stays_ofExcept _) (fun _ => ?_)
    refine .bind (Q := fun found w => (∀ stored, found = some stored → row.id ≠ stored.id) ∧
      Stored g.unicode t₀ row w) ((triple_query hI.readable (fun _ => id)).post ?_) (fun found => ?_)
    · rintro found w ⟨h, hfound⟩
      refine ⟨fun stored hs hids => hother ?_, h⟩
      subst hs
      obtain ⟨old, hold, rfl⟩ := findByToken_some (Except.ok.inj hfound)
      obtain ⟨hmem, htoken⟩ := lookup_some hold
      obtain rfl := h.view.tokenIds.unique h.row hmem hids
      exact htoken.symm
    refine .of_fact fun hids => ?_
    cases found with
    | none => exact stays_raise _
    | some stored =>
      refine stays_bind stays_now (fun _ => ?_)
      refine .bind (triple_checked (fun _ => id) _) (fun resetToken => .of_fact fun hc => ?_)
      have hid : row.id ≠ resetToken.id := by
        obtain ⟨-, -, rfl⟩ := PasswordResetToken.consume_ok.1 hc
        exact hids stored rfl
      refine stays_bind (stays_query hI.readable) (fun found => ?_)
      cases found with
      | none => exact stays_raise _
      | some user =>
        refine stays_bind (triple_flush hI (fun _ => id) (fun _ _ h hs => h.saveUser hs)) (fun _ => ?_)
        refine stays_bind (triple_flush hI (fun _ => id) (fun _ _ h hs => h.saveResetToken hid hs))
          (fun _ => ?_)
        refine stays_bind (stays_revokeAll hI) (fun _ => ?_)
        exact stays_bind stays_now (fun _ => stays_tryRecord hI _)
  · cases e <;> first | exact stays_pure _ | exact stays_raise _

theorem resolve_stored (ht : t₀.WellFormed g.unicode) (hrow : row ∈ t₀.passwordResetTokens)
    {m : UserModel} (hm : m ∈ t₀.users) (howner : m.id = row.userId) {r : Request}
    (hspares : Spares g m.email row.token r)
    (hid : ∀ email ip d, r = .requestPasswordReset email ip d → row.id ≠ d.tokenId) :
    Triple (fun w => Inside g.unicode t₀ n K w ∧ Stored g.unicode t₀ row w) (resolve g faults r)
      (fun _ => Stored g.unicode t₀ row) (fun _ => Stored g.unicode t₀ row) := by
  have hsteady : Steady (Stored g.unicode t₀ row) := stored_steady ht hrow
  cases r with
  | register email password d => exact (register_stored ht hrow _ _ _).pre (fun _ h => h.2)
  | login email password device ip d => exact (stays_login hsteady _ _ _ _ _).pre (fun _ h => h.2)
  | refreshToken token ip d => exact (stays_refresh hsteady _ _ _).pre (fun _ h => h.2)
  | revokeSession header sessionId ip d =>
    exact (stays_revoke hsteady.settled _ _ _ _).pre (fun _ h => h.2)
  | requestPasswordReset email ip d =>
    exact requestReset_stored ht hrow hm howner hspares (hid email ip d rfl)
  | resetPassword token newPassword ip d =>
    exact (reset_stored ht hrow hspares _ _ _).pre (fun _ h => h.2)
  | me header =>
    exact (stays_bind (stays_me hsteady.settled.readable _) (fun _ => stays_pure _)).pre
      (fun _ h => h.2)

end Handlers

section Visit
variable {g : GlobalContainer} {word : Char → Bool} {parse : String → Option Document} {v : Visit}
  {t₀ : Tables} {row : PasswordResetTokenModel} {n : ℕ}

theorem along_stored (ht : t₀.WellFormed g.unicode) (hfresh : FreshIds parse v t₀)
    (hrow : row ∈ t₀.passwordResetTokens) {m : UserModel} (hm : m ∈ t₀.users)
    (howner : m.id = row.userId)
    (hspares : ∀ r, Performs parse v r → Spares g m.email row.token r) :
    Along g parse v (fun i w => InsideAt g parse v t₀ n i w ∧ Stored g.unicode t₀ row w) where
  mono := fun i w h => ⟨h.1.mono (warrantAt_le (Nat.le_succ i)), h.2⟩
  resolves := by
    intro i r faults hr
    have hinside := (along_inside (n := n) ht hfresh).resolves i r faults hr
    refine (hinside.and (resolve_stored ht hrow hm howner (hspares r ⟨i, hr⟩) ?_)).pre
      (fun w h => ⟨h.1, h⟩)
    rintro email ip d rfl
    have hi := hr.lt
    obtain ⟨f, -, hreq⟩ := hr
    obtain rfl := (mutationRequest_draws hreq).2.2 email ip d rfl
    exact hfresh.tokens i hi row hrow

theorem visit_keeps_row (s : HttpState) (hs : s.world.db.Fresh)
    (ht : s.world.db.committed.WellFormed g.unicode) (hfresh : FreshIds parse v s.world.db.committed)
    (hrow : row ∈ s.world.db.committed.passwordResetTokens) {m : UserModel}
    (hm : m ∈ s.world.db.committed.users) (howner : m.id = row.userId)
    (hspares : ∀ r, Performs parse v r → Spares g m.email row.token r) :
    row ∈ (visit g word parse v s).2.world.db.committed.passwordResetTokens := by
  rcases visit_cases g word parse v s with hsame | ⟨c, hc, heq⟩
  · rw [hsame]
    exact hrow
  · have hview : s.world.tables = s.world.db.committed := Session.view_fresh _ hs
    obtain ⟨w', ⟨-, hstored⟩, hexec⟩ := executed_along
      (along_stored (n := s.world.redis.now) ht hfresh hrow hm howner hspares)
      ((inside_steady ht).settled.readable.and (stored_steady ht hrow).settled.readable) hc
      ⟨insideAt_start ht hs rfl, rfl, hview ▸ ht, hview ▸ hrow⟩
    rw [heq, hexec]
    exact hstored.closed hrow v.commits

end Visit

section Runs
variable {g : GlobalContainer} {word : Char → Bool} {parse : String → Option Document}

theorem row_kept {s b s' : HttpState} {p q : List (HttpState × HttpEvent)} (hs : Opens g s)
    (h : Runs (http g word parse) s p b) (h' : Runs (http g word parse) b q s')
    {row : PasswordResetTokenModel} (hrow : row ∈ b.world.db.committed.passwordResetTokens)
    {m : UserModel}
    (hm : m ∈ b.world.db.committed.users) (howner : m.id = row.userId)
    (hspares : Meets (SparingVisits g parse m.email row.token) q) :
    row ∈ s'.world.db.committed.passwordResetTokens ∧
      ∃ m' ∈ s'.world.db.committed.users, SameAccount m m' := by
  induction h' with
  | refl => exact ⟨hrow, m, hm, .refl m⟩
  | @next c s' q e front hstep ih =>
    obtain ⟨hspare, hq⟩ := meets_cons.1 hspares
    obtain ⟨hrow', m', hm', hsame⟩ := ih hq
    have hI := run_invariant hs (h.trans front)
    have hkept := (preserved_step hI.session hI.tables hstep).accounts
    obtain ⟨m'', hm'', hsame'⟩ := hkept m' hm'
    refine ⟨?_, m'', hm'', hsame.trans hsame'⟩
    cases hstep with
    | wait d => exact hrow'
    | visit v fresh =>
      refine visit_keeps_row c hI.session hI.tables fresh hrow' hm' (hsame.id.trans howner) ?_
      rw [hsame.email]
      exact hspare

end Runs

section Ends
variable {g : GlobalContainer} {w : World}

theorem requestReset_stores (hdb : w.db.Fresh) (ht : w.db.committed.WellFormed g.unicode)
    {email : String}
    (ip : Option String) {d : RequestResetDraws} {address : Email g.unicode}
    (haddress : Email.new g.unicode email = .ok address) {m : UserModel} (hm : m ∈ w.db.committed.users)
    (hmail : m.email = address.value)
    (hfresh : ∀ r ∈ w.db.committed.passwordResetTokens,
      r.id ≠ d.tokenId ∧ r.token ≠ g.sha256 d.rawToken.text) :
    toResetTokenModel (requestedToken g d m.id w.redis.now) ∈
      (after g noFaults (.requestPasswordReset email ip d) w).db.committed.passwordResetTokens := by
  obtain ⟨hafter, -, -⟩ := serve_requestReset g noFaults w email ip d
  have hout := requestPasswordReset_effect (g := g) (w := { w with commands := 0 }) hdb ht ⟨email, ip⟩ d
    (fun r hr => (hfresh r hr).1)
  rw [hafter]
  generalize requestPasswordReset g noFaults ⟨email, ip⟩ d { w with commands := 0 } = out at hout ⊢
  cases hout with
  | refused useless _ =>
    obtain ⟨user, hfound, -⟩ := WellFormed.findByEmail ht hm
    rw [hmail] at hfound
    exact absurd ⟨address, user, haddress, hfound, fun r hr _ => (hfresh r hr).2⟩ useless
  | @issued address' m' w' haddress' hm' _ hmail' alive _ tokens =>
    obtain rfl := Except.ok.inj (haddress.symm.trans haddress')
    obtain rfl := ht.emails.unique hm hm' (hmail.trans hmail'.symm)
    have hcommit : (w'.db.commit Statement.apply).committed = w'.tables := by
      rw [Session.commit_committed _ _ alive, World.tables]
    simp only [hcommit, tokens]
    exact List.mem_append_right _ (List.mem_singleton_self _)

/-- A reset with the token of an unused row that has not expired changes the password of its owner. -/
theorem reset_completes (hdb : w.db.Fresh) (ht : w.db.committed.WellFormed g.unicode)
    {row : PasswordResetTokenModel} (hrow : row ∈ w.db.committed.passwordResetTokens) {token : String}
    (htoken : row.token = g.sha256 token) (hfree : row.used = false)
    (htime : (w.redis.now : ℤ) < row.expiresAt) {newPassword : String} {p : PlainPassword g.unicode}
    (hp : PlainPassword.new g.unicode newPassword = .ok p) (ip : Option String) (d : ResetDraws) :
    answer g noFaults (.resetPassword token newPassword ip d) w =
        .operationResult true "Password reset successfully" ∧
      (after g noFaults (.resetPassword token newPassword ip d) w).db.committed.users =
        amend UserModel.id row.userId (withPassword (g.hashpw newPassword d.salt))
          w.db.committed.users := by
  obtain ⟨hafter, hok, -⟩ := serve_reset g noFaults w token newPassword ip d
  have hout := resetPassword_effect (g := g) (w := { w with commands := 0 }) hdb ht
    ⟨token, newPassword, ip⟩ d
  have hfound : lookup PasswordResetTokenModel.token (g.sha256 token)
    w.db.committed.passwordResetTokens =
      some row := by
    rw [← htoken]
    exact ht.tokens.lookup hrow
  have husable : row.toDomain.consume w.redis.now = .ok (consumed row).toDomain :=
    PasswordResetToken.consume_ok.2 ⟨htime, hfree, rfl⟩
  generalize resetPassword g noFaults ⟨token, newPassword, ip⟩ d { w with commands := 0 } = out
    at hafter hok hout
  cases hout with
  | weak password =>
    rw [hp] at password
    cases password
  | missing absent =>
    rw [hfound] at absent
    cases absent
  | refused found unusable =>
    obtain rfl := Option.some.inj (hfound.symm.trans found)
    rw [husable] at unusable
    cases unusable
  | @done row' w' _ _ found _ alive users _ =>
    obtain rfl := Option.some.inj (hfound.symm.trans found)
    refine ⟨hok () rfl, ?_⟩
    rw [hafter]
    simp only [Session.commit_committed _ _ alive]
    exact users

theorem login_completes (hdb : w.db.Fresh) (ht : w.db.committed.WellFormed g.unicode) {email : String}
    {address : Email g.unicode} (haddress : Email.new g.unicode email = .ok address) {m : UserModel}
    (hm : m ∈ w.db.committed.users) (hmail : m.email = address.value) (hactive : m.isActive = true)
    {password : String} (hverify : verify g password m.hashedPassword = true)
    (device ip : Option String)
    (d : LoginDraws) :
    ∃ pair, answer g noFaults (.login email password device ip d) w = TokenPairDTO.toPayload pair := by
  obtain ⟨-, hok, -⟩ := serve_login g noFaults w email password device ip d
  have hlogin := @authenticateUser_ok_iff g { w with commands := 0 } hdb ht
    ⟨email, password, device, ip⟩ d
    address haddress m hm hmail hactive
  obtain ⟨pair, hpair⟩ := hlogin.2 hverify
  exact ⟨pair, hok pair hpair⟩

end Ends

section Runs
variable {g : GlobalContainer} {word : Char → Bool} {parse : String → Option Document}

/-- Until it expires, the token of a reset request sets a new password that signs in, whatever is
sent and fails in between, unless it is presented or another reset is asked for the address. -/
theorem requested_token_usable {s b s' : HttpState} {newer older : List (HttpState × HttpEvent)}
    {v : Visit}
    (hs : Opens g s) (h : Runs (http g word parse) s (newer ++ (b, .visit v) :: older) s')
    (hplain : PlainVisit parse v) {email : String} {ip : Option String} {d : RequestResetDraws}
    (hserved : servedRequest g word parse b v = some (.requestPasswordReset email ip d))
    {address : Email g.unicode} (haddress : Email.new g.unicode email = .ok address) {m : UserModel}
    (hm : m ∈ b.world.db.committed.users) (hmail : m.email = address.value)
    (hactive : m.isActive = true)
    (hfresh : ∀ r ∈ b.world.db.committed.passwordResetTokens,
      r.id ≠ d.tokenId ∧ r.token ≠ g.sha256 d.rawToken.text)
    (hspares : Meets (SparingVisits g parse m.email (g.sha256 d.rawToken.text)) newer)
    (htime : (s'.world.redis.now : ℤ) < minutesAfter g.resetTokenExpireMinutes b.world.redis.now)
    {newPassword : String} {p : PlainPassword g.unicode}
    (hp : PlainPassword.new g.unicode newPassword = .ok p) (ip' : Option String) (d' : ResetDraws)
    (hbcrypt : BcryptChecks g newPassword newPassword d'.salt) (device ip'' : Option String)
    (d'' : LoginDraws) :
    answer g noFaults (.resetPassword d.rawToken.text newPassword ip' d') s'.world =
        .operationResult true "Password reset successfully" ∧
      ∃ pair, answer g noFaults (.login email newPassword device ip'' d'')
        (after g noFaults (.resetPassword d.rawToken.text newPassword ip' d') s'.world) =
          TokenPairDTO.toPayload pair := by
  obtain ⟨c, hbefore, hstep, hafter⟩ := h.split
  have hI := run_invariant hs hbefore
  have hend := run_invariant hs h
  obtain rfl : c = (visit g word parse v b).2 := by
    cases hstep
    rfl
  -- the row is stored by the visit, and no account is lost in it
  rcases visit_serves g word hplain hI.session with ⟨hnone, -⟩ | ⟨r, key, hr, hworld, -⟩
  · rw [hnone] at hserved
    cases hserved
  obtain rfl := Option.some.inj (hr.symm.trans hserved)
  have hrow := requestReset_stores hI.session hI.tables ip haddress hm hmail hfresh
  rw [← hworld] at hrow
  obtain ⟨m₁, hm₁, hsame₁⟩ := (preserved_step hI.session hI.tables hstep).accounts m hm
  obtain ⟨hrow', m₂, hm₂, hsame₂⟩ := row_kept hs (.next hbefore hstep) hafter hrow hm₁ hsame₁.id
    (by rw [hsame₁.email]; exact hspares)
  have hsame := hsame₁.trans hsame₂
  obtain ⟨hreset, husers⟩ := reset_completes hend.session hend.tables hrow' rfl rfl htime hp ip' d'
  refine ⟨hreset, ?_⟩
  have hm₃ : withPassword (g.hashpw newPassword d'.salt) m₂ ∈
      (after g noFaults (.resetPassword d.rawToken.text newPassword ip' d')
        s'.world).db.committed.users := by
    rw [husers]
    exact mem_amend.2 ⟨m₂, hm₂, if_pos hsame.id⟩
  have hverify : verify g newPassword (g.hashpw newPassword d'.salt) = true := by
    rw [verify, hbcrypt, decide_eq_true rfl]
    rfl
  exact login_completes (after_fresh g noFaults _ _)
    (after_wellFormed g noFaults _ hend.session hend.tables)
    haddress hm₃ (hsame.email.trans hmail) (hsame.isActive.trans hactive) hverify device ip'' d''

end Runs

section Sample
open SampleContainer

def aMinuteLater : HttpState := askedHttp.advance 60000

theorem aMinuteLater_runs : Runs (http sample isWordChar parseResets) sampleHttp
    ([(askedHttp, .wait 60000)] ++ (sampleHttp, .visit askVisit) :: []) aMinuteLater :=
  (Runs.single (HttpStep.visit sampleHttp askVisit askVisit_fresh)).next (HttpStep.wait askedHttp 60000)

theorem askVisit_served : servedRequest sample isWordChar parseResets sampleHttp askVisit =
    some (.requestPasswordReset "alice@example.com" none resetDraws) := by
  have hforwarded : (dispatch sample.unicode isWordChar askVisit.request.post sampleHttp.limiter).1 =
      .forwarded := by decide +kernel
  rw [servedRequest, if_pos hforwarded]
  rfl

theorem requested_token_usable_ask :
    answer sample noFaults (.resetPassword rawA.text "Passw0rd2" none ⟨saltTwo, eventOne⟩)
        aMinuteLater.world = .operationResult true "Password reset successfully" ∧
      ∃ pair, answer sample noFaults (.login "alice@example.com" "Passw0rd2" none none loginDraws)
        (after sample noFaults (.resetPassword rawA.text "Passw0rd2" none ⟨saltTwo, eventOne⟩)
          aMinuteLater.world) = TokenPairDTO.toPayload pair := by
  refine requested_token_usable (m := aliceRow) sampleHttp_opens aMinuteLater_runs
    ⟨by decide +kernel, fun _ => rfl, rfl⟩ askVisit_served (Email.new_value aliceEmail)
    (List.mem_singleton_self _) rfl rfl (fun r hr => absurd hr List.not_mem_nil)
    (meets_cons.2 ⟨trivial, meets_nil _⟩) ?_ (PlainPassword.new_value newPassword) none
    ⟨saltTwo, eventOne⟩ ?_ none none loginDraws
  · decide +kernel
  · unfold BcryptChecks
    decide +kernel

end Sample

end AuthService.ResetAvailability
