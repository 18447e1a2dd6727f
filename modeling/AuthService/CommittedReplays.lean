import AuthService.AccountIntegrity
import AuthService.LiveTransactions

set_option autoImplicit false

/-! Visits whose commit may fail after their result has been stored: which replayed results
stand for rows that were committed. -/
namespace AuthService.CommittedReplays
open Uuids PythonText DomainModel KeyedRows AccountTables Transactions FallibleState Fallible
open FallibleTriples ExpiringMaps JsonText GraphqlDocuments RedisSessions RequestPorts CommandHandlers
open GraphqlResolvers HandlerRuns SessionDiscipline AccountEffects RateLimitMiddleware
open IdempotencyExtension EmailCounters RequestTriples HttpService VisitTriples AccountIntegrity
open LiveTransactions LabelledRuns

/-- The calls of a reset request other than the audit all return. -/
structure Saves (faults : Faults) : Prop where
  findByEmail : faults .findByEmail = none
  deleteAllByUserId : faults .deleteAllByUserId = none
  saveToken : faults .saveToken = none
  sendResetEmail : faults .sendResetEmail = none

/-- A reset request for the address saves its row in this world: the calls return, the address
names a user, and no row of another user has the hash of the token. -/
structure SavesRow (g : GlobalContainer) (faults : Faults) (address : String)
    (d : RequestResetDraws) (w : World) : Prop where
  calls : Saves faults
  alive : Alive w
  user : ∃ m ∈ w.tables.users, m.email = address ∧
    ∀ row ∈ w.tables.passwordResetTokens, row.token = g.sha256 d.rawToken.text → row.userId = m.id

def HasToken (id : UUID) (t : Tables) : Prop := ∃ row ∈ t.passwordResetTokens, row.id = id

section Requests
variable {g : GlobalContainer} {faults : Faults} {w w' : World}

/-- A reset request that succeeds has saved its row, and deleted the others of the user. -/
theorem requestReset_succeeds (ht : w.tables.WellFormed g.unicode) {email : String}
    {ip : Option String} {d : RequestResetDraws}
    (hid : ∀ row ∈ w.tables.passwordResetTokens, row.id ≠ d.tokenId)
    (h : requestPasswordReset g faults ⟨email, ip⟩ d w = (.ok (), w')) :
    ∃ address m, Email.new g.unicode email = .ok address ∧ m ∈ w.tables.users ∧
      m.email = address.value ∧ SavesRow g faults address.value d w ∧
      (faults .record ≠ some .rollsBack → Alive w' ∧ w'.tables.passwordResetTokens =
        w.tables.passwordResetTokens.filter (fun r => r.userId ≠ m.id) ++
          [toResetTokenModel (requestedToken g d m.id w.redis.now)]) := by
  unfold requestPasswordReset at h
  obtain ⟨address, t, hchecked, h⟩ := bind_eq_ok h
  obtain ⟨hemail, hsame⟩ := Prod.mk.inj ((ofExcept_run _ _).symm.trans hchecked)
  rw [← hsame] at h
  obtain ⟨found, t, hfind, h⟩ := bind_eq_ok h
  obtain ⟨hfault, hdb, hfound, hsame⟩ := query_eq_ok hfind
  rw [hsame] at h
  cases found with
  | none => simp at h
  | some user =>
    obtain ⟨m, hl, hd⟩ := findByEmail_stored hfound
    obtain ⟨hm, hname⟩ := lookup_some hl
    obtain ⟨hmid, -⟩ := toDomain_ok hd
    simp only at h
    obtain ⟨_, t₁, hdelete, h⟩ := bind_eq_ok h
    obtain ⟨hfault₁, -, stmt, hstmt, hdeleted⟩ := flush_eq_ok hdelete
    obtain rfl := Except.ok.inj hstmt
    rw [bind_ok now_run] at h
    obtain ⟨_, t₂, hsave, h⟩ := bind_eq_ok h
    obtain ⟨hfault₂, hdb₁, stmt', hstmt', hsaved⟩ := flush_eq_ok hsave
    obtain ⟨_, t₃, hmail, h⟩ := bind_eq_ok h
    obtain ⟨hfault₃, hsent⟩ := sendResetEmail_eq_ok hmail
    rw [bind_ok now_run, tryRecord_run] at h
    obtain ⟨-, rfl⟩ := Prod.mk.inj h
    rw [hdeleted, tables_flush] at hstmt'
    have htokens := deleteAll_tokens ht user.id
    have hclash := (checkResetToken_ok (saveResetToken_ok hstmt').1).2.1
    have hfresh : ∀ r ∈ ((w.tables.deleteAllByUserId user.id).apply w.tables).passwordResetTokens,
        r.id ≠ (requestedToken g d user.id w.redis.now).id := by
      rw [htokens]
      exact fun r hr => hid r (List.mem_of_mem_filter hr)
    obtain rfl := saveResetToken_fresh hfresh hstmt'
    have halive₃ : Alive t₃ := by
      rw [hsent, hsaved]
      exact hdb₁
    have htokens₃ : t₃.tables.passwordResetTokens =
        ((w.tables.deleteAllByUserId user.id).apply w.tables).passwordResetTokens ++
          [toResetTokenModel (requestedToken g d user.id w.redis.now)] := by
      have hview : t₃.tables = t₂.tables := by
        rw [hsent]
        rfl
      rw [hview, hsaved, tables_flush, hdeleted, tables_flush]
      rfl
    refine ⟨address, m, hemail, hm, hname, ⟨⟨hfault, hfault₁, hfault₂, hfault₃⟩, hdb, m, hm, hname,
      fun row hrow htoken => ?_⟩, fun hrecord => ?_⟩
    · by_contra hne
      have hkept : row ∈ ((w.tables.deleteAllByUserId user.id).apply w.tables).passwordResetTokens := by
        rw [htokens]
        exact List.mem_filter.2 ⟨hrow, decide_eq_true (fun he => hne (he.trans hmid))⟩
      exact hclash row hkept (hfresh row hkept) htoken
    · obtain ⟨halive, -, hrows⟩ := audited_alive halive₃ hrecord
      refine ⟨halive, ?_⟩
      rw [hrows, htokens₃, htokens, hmid]

def KeepsToken (id : UUID) (s s' : Session Tables Statement) : Prop :=
  s'.aborted = false → s.aborted = false ∧
    (HasToken id (s.view Statement.apply) → HasToken id (s'.view Statement.apply))

theorem keepsToken_discipline (id : UUID) : Discipline (KeepsToken id) where
  refl := fun _ h => ⟨h, fun hid => hid⟩
  trans := fun _ _ _ h h' hu => by
    obtain ⟨ht, hkeep'⟩ := h' hu
    obtain ⟨hs, hkeep⟩ := h ht
    exact ⟨hs, fun hid => hkeep' (hkeep hid)⟩
  rollback := fun _ h => nomatch h

theorem keepsToken_flush {id : UUID} {s : Session Tables Statement} {stmt : Statement}
    (h : HasToken id (s.view Statement.apply) → HasToken id (stmt.apply (s.view Statement.apply))) :
    KeepsToken id s (s.flush [stmt]) := by
  intro halive
  refine ⟨halive, fun hid => ?_⟩
  rw [Session.view_flush]
  exact h hid

theorem allows_event (id : UUID) (row : AuthEventModel) :
    Allows (KeepsToken id) (fun _ => .ok (.insertEvent row)) := by
  intro s stmt h
  obtain rfl := Except.ok.inj h
  exact keepsToken_flush fun hid => hid

theorem allows_saveUser (id : UUID) (user : User g.unicode) :
    Allows (KeepsToken id) (Tables.saveUser user) := by
  intro s stmt h
  refine keepsToken_flush fun hid => ?_
  obtain ⟨-, ⟨-, rfl⟩ | ⟨old, -, rfl⟩⟩ := saveUser_ok h <;> exact hid

theorem allows_saveResetToken (id : UUID) (token : PasswordResetToken) :
    Allows (KeepsToken id) (Tables.saveResetToken token) := by
  intro s stmt h
  refine keepsToken_flush fun ⟨row, hrow, hid⟩ => ?_
  obtain ⟨-, ⟨-, rfl⟩ | ⟨old, -, rfl⟩⟩ := saveResetToken_ok h
  · exact ⟨row, List.mem_append_left _ hrow, hid⟩
  · refine ⟨_, mem_amend.2 ⟨row, hrow, rfl⟩, ?_⟩
    split_ifs <;> exact hid

theorem resolve_keepsToken (id : UUID) {r : Request}
    (hr : ∀ email ip d, r ≠ .requestPasswordReset email ip d)
    (hme : ∀ header, r ≠ .me header) : Keeps (overDb (KeepsToken id)) (resolve g faults r) := by
  have hS := keepsToken_discipline id
  cases r with
  | register email password d => exact keeps_register hS (allows_saveUser id) _ _ _
  | login email password device ip d => exact keeps_login hS (allows_event id) _ _ _ _ _
  | refreshToken token ip d => exact keeps_refresh hS (allows_event id) _ _ _
  | revokeSession header sessionId ip d => exact keeps_revoke hS (allows_event id) _ _ _ _
  | requestPasswordReset email ip d => exact absurd rfl (hr email ip d)
  | resetPassword token newPassword ip d =>
    exact keeps_reset hS (allows_event id) (allows_saveUser id) (allows_saveResetToken id) _ _ _ _
  | me header => exact absurd rfl (hme header)

structure Standing (id : UUID) (w : World) : Prop where
  alive : Alive w
  row : HasToken id w.tables

/-- An exception that the resolver answers comes before the first statement. -/
theorem requestPasswordReset_raises (cmd : RequestPasswordResetCommand) (d : RequestResetDraws) :
    Triple (fun t => t = w) (requestPasswordReset g faults cmd d) (fun _ _ => True)
      (fun e t => answered e = true → t = w) := by
  unfold requestPasswordReset
  refine .bind (Q := fun _ t => t = w) (.ofExcept (fun _ _ _ h => h) (fun _ _ _ h _ => h))
    (fun address => .bind query_answered (fun found => ?_))
  cases found with
  | none => exact .raise _ (fun _ h _ => h)
  | some user =>
    refine .bind (Q := fun _ _ => True)
      (flush_answered (fun _ _ h => nomatch h) (fun _ _ _ => trivial)) (fun _ => ?_)
    refine .bind (triple_now (Q := fun _ _ => True) fun _ _ => trivial) (fun time => ?_)
    refine .bind (Q := fun _ _ => True)
      (flush_answered (fun _ _ => saveResetToken_unanswered) (fun _ _ _ => trivial)) (fun _ => ?_)
    refine .bind (Q := fun _ _ => True) ⟨fun t _ => ?_⟩ (fun _ => ?_)
    · unfold sendResetEmail
      cases faults .sendResetEmail with
      | some x => exact fun h => nomatch h
      | none => trivial
    · refine .bind (triple_now (Q := fun _ _ => True) fun _ _ => trivial) (fun _ => ⟨fun t _ => ?_⟩)
      rw [tryRecord_run]
      trivial

theorem requestReset_eq_ok {email : String} {ip : Option String} {d : RequestResetDraws} {a : Answer}
    (h : requestReset g faults email ip d w = (.ok a, w')) :
    (∃ message, a = .operationResult false message) ∧ w' = w ∨
      requestPasswordReset g faults ⟨email, ip⟩ d w = (.ok (), w') := by
  rcases handle_eq_ok h with hrun | ⟨e, t, hrun, hexcept⟩
  · obtain ⟨_, t, hrun, hpure⟩ := bind_eq_ok hrun
    rw [← (Prod.mk.inj hpure).2]
    exact .inr hrun
  · have hraised := bind_pure_eq_error hrun
    have hstate := (requestPasswordReset_raises _ d).error rfl hraised
    refine .inl ?_
    cases e <;> cases hexcept <;> exact ⟨⟨_, rfl⟩, hstate rfl⟩

end Requests

/-- The world in front of the call at a position, when the calls before it have returned. -/
def before (g : GlobalContainer) (calls : List FieldCall) (i : ℕ) (w : World) : World :=
  (runMutation g (calls.take i) w).2

/-- The root field at this position saves a reset row for the address. -/
def SavesAt (g : GlobalContainer) (parse : String → Option Document) (v : Visit) (w : World) (i : ℕ)
    (address : String) : Prop :=
  ∃ calls email ip d a,
    callsFrom v.request v.chance .mutation 0 (executedFields parse v.request.post) = some calls ∧
    PerformsAt parse v i (.requestPasswordReset email ip d) ∧ Email.new g.unicode email = .ok a ∧
    a.value = address ∧
    SavesRow g (v.chance i).faults address d (before g calls i { w with commands := 0 })

section Fields
variable {g : GlobalContainer} {parse : String → Option Document} {v : Visit} {t₀ : Tables} {n : ℕ}
  {w w' : World}

theorem mutationRequest_ne_me {h : HttpRequest} {x : Chance} {f : RootField} {r : Request}
    (hr : mutationRequest h x f = some r) (header : String) : r ≠ .me header := by
  rintro rfl
  unfold mutationRequest at hr
  simp only [Option.bind_eq_bind] at hr
  split at hr
  all_goals simp [Option.bind_eq_some_iff] at hr

theorem performsAt_unique {i : ℕ} {r r' : Request} (h : PerformsAt parse v i r)
    (h' : PerformsAt parse v i r') : r = r' := by
  obtain ⟨f, hf, hr⟩ := h
  obtain ⟨f', hf', hr'⟩ := h'
  obtain rfl := Option.some.inj (hf.symm.trans hf')
  exact Option.some.inj (hr.symm.trans hr')

theorem fieldCall_run {call : FieldCall} {value : FieldValue}
    (h : call.run g "AuthMutation" w = (.ok value, w')) :
    call.request = none ∧ w' = w ∨ ∃ r a, call.request = some r ∧ value = .answer a ∧
      resolve g call.faults r w = (.ok a, w') := by
  unfold FieldCall.run at h
  cases hr : call.request with
  | none =>
    rw [hr] at h
    exact .inl ⟨rfl, (Prod.mk.inj h).2.symm⟩
  | some r =>
    rw [hr] at h
    obtain ⟨a, t, hrun, hpure⟩ := bind_eq_ok h
    obtain ⟨hvalue, rfl⟩ := Prod.mk.inj hpure
    exact .inr ⟨r, a, rfl, (Except.ok.inj hvalue).symm, hrun⟩

theorem before_succ {call : FieldCall} {calls : List FieldCall} {i : ℕ} {value : FieldValue}
    (h : call.run g "AuthMutation" w = (.ok value, w')) :
    before g (call :: calls) (i + 1) w = before g calls i w' := by
  rw [before, List.take_succ_cons, runMutation, bind_ok h]
  rw [before]
  cases hrun : runMutation g (calls.take i) w' with
  | mk x t =>
    cases x with
    | ok data => rw [bind_ok hrun]; rfl
    | error e => rw [bind_error hrun]

/-- The row with the token id of a reset field is the row that this field saved. -/
theorem row_owner (hfresh : FreshIds parse v t₀) {K : ℕ} {t : Tables}
    (hgrown : Grown g.unicode (warrantAt g parse v t₀ n K) t₀ t) {i : ℕ} {email : String}
    {ip : Option String} {d : RequestResetDraws}
    (hp : PerformsAt parse v i (.requestPasswordReset email ip d)) {row : PasswordResetTokenModel}
    (hrow : row ∈ t.passwordResetTokens) (hid : row.id = d.tokenId) :
    ∃ a m, Email.new g.unicode email = .ok a ∧ m ∈ t.users ∧ m.email = a.value ∧ m.id = row.userId ∧
      SameToken (toResetTokenModel (requestedToken g d m.id n)) row := by
  have hi := hp.lt
  obtain ⟨f, hf, hr⟩ := id hp
  obtain rfl := (mutationRequest_draws hr).2.2 email ip d rfl
  obtain ⟨r, hold | ⟨m, hm, howner, j, hj, email', ip', a, uid, hp', ha, haddress, rfl⟩, hsame⟩ :=
    hgrown.tokens row hrow
  · exact absurd (hsame.id.symm.trans hid) (hfresh.tokens i hi r hold)
  · have hj' := hp'.lt
    have hids : (v.chance j).requestReset.tokenId = (v.chance i).requestReset.tokenId :=
      hsame.id.symm.trans hid
    obtain rfl : j = i := by
      rcases lt_trichotomy j i with hlt | heq | hgt
      · exact absurd hids (hfresh.distinctTokens j i hlt hi)
      · exact heq
      · exact absurd hids.symm (hfresh.distinctTokens i j hgt hj')
    obtain ⟨rfl, -, -⟩ := Request.requestPasswordReset.inj (performsAt_unique hp hp')
    obtain rfl : m.id = uid := howner
    exact ⟨a, m, ha, hm, haddress.symm, hsame.userId.symm, hsame⟩

theorem token_unsaved (hfresh : FreshIds parse v t₀) {i : ℕ} (hin : InsideAt g parse v t₀ n i w)
    {email : String} {ip : Option String} {d : RequestResetDraws}
    (hp : PerformsAt parse v i (.requestPasswordReset email ip d)) :
    ∀ row ∈ w.tables.passwordResetTokens, row.id ≠ d.tokenId := by
  obtain ⟨-, hold, hissued⟩ := performsAt_licensed (g := g) (n := n) hfresh hp
  intro row hrow hid
  obtain ⟨r, hr | ⟨m, -, -, hr⟩, hsame⟩ := hin.view.tokens row hrow
  · exact hold r hr (hsame.id.symm.trans hid)
  · exact hissued _ r hr (hsame.id.symm.trans hid)

/-- A later root field leaves the row, unless it saves a row for the same address. -/
theorem standing_step (hfresh : FreshIds parse v t₀) {i j : ℕ} {email : String} {ip : Option String}
    {d : RequestResetDraws} (hp : PerformsAt parse v i (.requestPasswordReset email ip d))
    (hin : InsideAt g parse v t₀ n j w) (hst : Standing d.tokenId w) {r : Request}
    (hperforms : PerformsAt parse v j r) (hrecord : (v.chance j).faults .record ≠ some .rollsBack)
    (hother : ∀ email' ip' d' a, r = .requestPasswordReset email' ip' d' →
      Email.new g.unicode email' = .ok a → SavesRow g (v.chance j).faults a.value d' w →
      Email.new g.unicode email ≠ .ok a)
    {a : Answer} (hrun : resolve g (v.chance j).faults r w = (.ok a, w')) : Standing d.tokenId w' := by
  obtain ⟨f, -, hr⟩ := id hperforms
  have hme := mutationRequest_ne_me hr
  have halive := resolve_alive hrecord hst.alive hrun hme
  by_cases hreset : ∃ email' ip' d', r = .requestPasswordReset email' ip' d'
  · obtain ⟨email', ip', d', rfl⟩ := hreset
    rcases requestReset_eq_ok hrun with ⟨-, rfl⟩ | hsaved
    · exact hst
    · obtain ⟨a', m', hemail', hm', hname', hsaves, hwritten⟩ := requestReset_succeeds
        hin.view.tables (token_unsaved hfresh hin hperforms) hsaved
      refine ⟨halive, ?_⟩
      obtain ⟨row, hrow, hid⟩ := hst.row
      obtain ⟨a, m, hemail, hm, hname, howner, -⟩ := row_owner hfresh hin.view hp hrow hid
      refine ⟨row, ?_, hid⟩
      rw [(hwritten hrecord).2]
      refine List.mem_append_left _ (List.mem_filter.2 ⟨hrow, decide_eq_true fun hsame => ?_⟩)
      -- both fields would have asked for the account that owns the row
      obtain rfl := hin.view.tables.userIds.unique hm hm' (howner.trans hsame)
      have haddress : a = a' := Email.ext_value (hname.symm.trans hname')
      exact hother _ _ _ _ rfl hemail' hsaves (haddress ▸ hemail)
  · have hkeeps : Keeps (overDb (KeepsToken d.tokenId)) (resolve g (v.chance j).faults r) :=
      resolve_keepsToken d.tokenId (fun email' ip' d' he => hreset ⟨email', ip', d', he⟩) hme
    have hkept := hkeeps w
    rw [hrun] at hkept
    exact ⟨halive, (hkept halive).2 hst.row⟩

/-- The reset field at position `i` has no audit insert at or behind it that rolls the transaction
back, and no reset field behind it that saves a row for the address, along these calls. -/
structure Spared (g : GlobalContainer) (parse : String → Option Document) (v : Visit) (i : ℕ)
    (email : String) (position : ℕ) (calls : List FieldCall) (w : World) : Prop where
  audits : ∀ j ≥ i, ∀ r, PerformsAt parse v j r → (v.chance j).faults .record ≠ some .rollsBack
  others : ∀ k, i < position + k → ∀ email' ip' d' a,
    PerformsAt parse v (position + k) (.requestPasswordReset email' ip' d') →
    Email.new g.unicode email' = .ok a →
    SavesRow g (v.chance (position + k)).faults a.value d' (before g calls k w) →
    Email.new g.unicode email ≠ .ok a

theorem Spared.next {i position : ℕ} {email : String} {call : FieldCall} {calls : List FieldCall}
    (h : Spared g parse v i email position (call :: calls) w) {value : FieldValue}
    (hrun : call.run g "AuthMutation" w = (.ok value, w')) :
    Spared g parse v i email (position + 1) calls w' where
  audits := h.audits
  others := by
    intro k hk email' ip' d' a hp hemail hsaves
    rw [Nat.add_assoc, Nat.add_comm 1 k] at hk hp hsaves
    rw [← before_succ hrun] at hsaves
    exact h.others (k + 1) hk email' ip' d' a hp hemail hsaves

theorem standing_run (ht : t₀.WellFormed g.unicode) (hfresh : FreshIds parse v t₀) {i : ℕ}
    {email : String} {ip : Option String} {d : RequestResetDraws}
    (hp : PerformsAt parse v i (.requestPasswordReset email ip d)) {fields : List RootField}
    {position : ℕ} (hposition : i < position) {calls : List FieldCall} {data : Data}
    (hfields : fields = (executedFields parse v.request.post).drop position)
    (hcalls : callsFrom v.request v.chance .mutation position fields = some calls)
    (hspared : Spared g parse v i email position calls w) (hin : InsideAt g parse v t₀ n position w)
    (hst : Standing d.tokenId w) (hrun : runMutation g calls w = (.ok data, w')) :
    Standing d.tokenId w' := by
  induction fields generalizing position calls data w with
  | nil =>
    cases hcalls
    rw [← (Prod.mk.inj hrun).2]
    exact hst
  | cons f fields ih =>
    obtain ⟨hrest, call, calls', rfl, hfaults, hperforms, hcalls'⟩ := callsFrom_cons hfields hcalls
    obtain ⟨value, w₁, hvalue, hrun⟩ := bind_eq_ok hrun
    obtain ⟨data', w₂, hdata, hpure⟩ := bind_eq_ok hrun
    rw [(Prod.mk.inj hpure).2] at hdata
    have hnext := hspared.next hvalue
    rcases fieldCall_run hvalue with ⟨hnone, rfl⟩ | ⟨r, a, hr, -, hresolve⟩
    · exact ih (by omega) hrest hcalls' hnext (hin.mono (warrantAt_le (Nat.le_succ _))) hst hdata
    · have hpr := (hperforms r).1 hr
      rw [hfaults] at hresolve
      refine ih (by omega) hrest hcalls' hnext
        (((along_inside ht hfresh).resolves _ _ _ hpr).ok hin hresolve) ?_ hdata
      refine standing_step hfresh hp hin hst hpr (hspared.audits _ (by omega) r hpr) ?_ hresolve
      rintro email' ip' d' a' rfl hemail' hsaves
      exact hspared.others 0 hposition email' ip' d' a' hpr hemail' hsaves

/-- A reset field that succeeds in an execution that returns has saved its row. -/
theorem saved_run (ht : t₀.WellFormed g.unicode) (hfresh : FreshIds parse v t₀) {i : ℕ}
    {email : String} {ip : Option String} {d : RequestResetDraws}
    (hp : PerformsAt parse v i (.requestPasswordReset email ip d)) {fields : List RootField}
    {position k : ℕ} (hi : i = position + k) {calls : List FieldCall} {data : Data}
    (hfields : fields = (executedFields parse v.request.post).drop position)
    (hcalls : callsFrom v.request v.chance .mutation position fields = some calls)
    (hspared : ∀ a, Email.new g.unicode email = .ok a →
      SavesRow g (v.chance i).faults a.value d (before g calls k w) →
        Spared g parse v i email position calls w)
    (hin : InsideAt g parse v t₀ n position w) (hrun : runMutation g calls w = (.ok data, w'))
    {key message : String} (hdata : data[k]? = some (key, .answer (.operationResult true message))) :
    (∃ a, Email.new g.unicode email = .ok a ∧
      SavesRow g (v.chance i).faults a.value d (before g calls k w)) ∧ Standing d.tokenId w' := by
  induction fields generalizing position k calls data w with
  | nil =>
    cases hcalls
    rw [← Except.ok.inj (Prod.mk.inj hrun).1] at hdata
    simp at hdata
  | cons f fields ih =>
    obtain ⟨hrest, call, calls', rfl, hfaults, hperforms, hcalls'⟩ := callsFrom_cons hfields hcalls
    obtain ⟨value, w₁, hvalue, hrun⟩ := bind_eq_ok hrun
    obtain ⟨data', w₂, hdata', hpure⟩ := bind_eq_ok hrun
    obtain ⟨hcons, hw⟩ := Prod.mk.inj hpure
    rw [hw] at hdata'
    rw [← Except.ok.inj hcons] at hdata
    cases k with
    | zero =>
      obtain rfl : i = position := hi
      rcases fieldCall_run hvalue with ⟨hnone, -⟩ | ⟨r, a, hr, ha, hresolve⟩
      · rw [(hperforms _).2 hp] at hnone
        cases hnone
      · obtain rfl := performsAt_unique hp ((hperforms r).1 hr)
        rw [hfaults] at hresolve
        rw [List.getElem?_cons_zero, Option.some.injEq, Prod.mk.injEq, ha, FieldValue.answer.injEq]
          at hdata
        have hin' := ((along_inside ht hfresh).resolves _ _ _ hp).ok hin hresolve
        rcases requestReset_eq_ok hresolve with ⟨⟨m, hfailed⟩, -⟩ | hsaved
        · rw [hfailed] at hdata
          cases hdata.2
        · obtain ⟨a', m, hemail, -, -, hsaves, hwritten⟩ := requestReset_succeeds
            hin.view.tables (token_unsaved hfresh hin hp) hsaved
          have hkept := hspared a' hemail hsaves
          obtain ⟨halive, hrows⟩ := hwritten (hkept.audits i le_rfl _ hp)
          have hst : Standing d.tokenId w₁ := by
            refine ⟨halive, toResetTokenModel (requestedToken g d m.id w.redis.now), ?_, rfl⟩
            rw [hrows]
            exact List.mem_append_right _ (List.mem_singleton_self _)
          exact ⟨⟨a', hemail, hsaves⟩, standing_run ht hfresh hp (Nat.lt_succ_self i) hrest hcalls'
            (hkept.next hvalue) hin' hst hdata'⟩
    | succ k =>
      rw [List.getElem?_cons_succ] at hdata
      have hin' : InsideAt g parse v t₀ n (position + 1) w₁ := by
        rcases fieldCall_run hvalue with ⟨-, rfl⟩ | ⟨r, a, hr, -, hresolve⟩
        · exact hin.mono (warrantAt_le (Nat.le_succ _))
        · exact ((along_inside ht hfresh).resolves _ _ _ ((hperforms r).1 hr)).ok hin hresolve
      rw [before_succ hvalue] at hspared ⊢
      exact ih (by omega) hrest hcalls' (fun a hemail hsaves => (hspared a hemail hsaves).next hvalue)
        hin' hdata' hdata

end Fields

/-- The row of the reset request for the address is there, used or not. -/
def RowIn (g : GlobalContainer) (email : String) (d : RequestResetDraws) (now : ℕ)
    (t : Tables) : Prop :=
  ∃ a m row, Email.new g.unicode email = .ok a ∧ m ∈ t.users ∧ m.email = a.value ∧
    row ∈ t.passwordResetTokens ∧ SameToken (toResetTokenModel (requestedToken g d m.id now)) row

section Visits
variable (g : GlobalContainer) (word : Char → Bool) (parse : String → Option Document)

/-- The visit passes the limits, is looked up under the operation and the key, and misses. -/
structure Misses (s : HttpState) (v : Visit) (c : ExecutionContext) (operation key : String) :
    Prop where
  forwarded : (dispatch g.unicode word v.request.post s.limiter).1 = .forwarded
  context : contextOf parse v.request = some c
  enrolled : c.enrolled = some (operation, key)
  missed : s.store.get (makeKey operation key) = none

/-- The visit stores this record under this key. -/
def Stores (s : HttpState) (v : Visit) (key : String) (record : IdempotencyRecord Data) : Prop :=
  ∃ c operation idempotencyKey data, Misses g word parse s v c operation idempotencyKey ∧
    key = makeKey operation idempotencyKey ∧ (executed g v c s.world).1 = ⟨some data, []⟩ ∧
    record = ⟨g.sha256 (c.hashInput operation), data⟩

/-- Every reset that the response calls a success has its row in what the visit left committed. -/
def Honest (s : HttpState) (v : Visit) (response : Data) : Prop :=
  ∀ i email ip d key message, PerformsAt parse v i (.requestPasswordReset email ip d) →
    response[i]? = some (key, .answer (.operationResult true message)) →
      RowIn g email d s.world.redis.now (visit g word parse v s).2.world.db.committed

/-- The record under the key comes from the visit that stored there last, and that one was honest. -/
def StoredHonestly (key : String) (record : IdempotencyRecord Data)
    (p : List (HttpState × HttpEvent)) : Prop :=
  Since (fun x => ∃ v, x.2 = .visit v ∧ Stores g word parse x.1 v key record ∧
      Honest g word parse x.1 v record.response)
    (fun x => ∀ v record', x.2 = .visit v → ¬ Stores g word parse x.1 v key record') p

/-- Only results of committed executions are held, and only these are replayed. -/
structure OnlyCommitted (p : List (HttpState × HttpEvent)) (s : HttpState) : Prop where
  held : ∀ key record, s.store.get key = some record → StoredHonestly g word parse key record p
  replayed : ∀ c response, lookup g.sha256 c s.store = .replay response →
    ∃ key record, record.response = response ∧ StoredHonestly g word parse key record p

/-- A visit whose result is to be stored, and in which a root field saves a reset row, is committed,
and no audit insert or other reset at this or a later root field takes the row away. -/
def CommitsSaved (s : HttpState) : HttpEvent → Prop
  | .wait _ => True
  | .visit v => ∀ c operation key, Misses g word parse s v c operation key →
      ∀ i address, SavesAt g parse v s.world i address → v.commits = true ∧
        (∀ j ≥ i, ∀ r, PerformsAt parse v j r → (v.chance j).faults .record ≠ some .rollsBack) ∧
        ∀ j > i, ¬ SavesAt g parse v s.world j address

structure FirstOpens (s : HttpState) : Prop where
  session : s.world.db.Fresh
  tables : s.world.db.committed.WellFormed g.unicode
  records : s.records = ExpiringMap.empty

end Visits

section Runs
variable {g : GlobalContainer} {word : Char → Bool} {parse : String → Option Document} {v : Visit}
  {s s' : HttpState}

theorem executeOperation_data {calls : List FieldCall} {w w' : World} {data : Data}
    (h : executeOperation g .mutation calls w = (.ok ⟨some data, []⟩, w')) :
    runMutation g calls w = (.ok data, w') := by
  rcases handle_eq_ok h with hrun | ⟨e, t, -, hexcept⟩
  · obtain ⟨data', t, hreturned, hpure⟩ := bind_eq_ok hrun
    obtain ⟨hresult, rfl⟩ := Prod.mk.inj hpure
    obtain rfl := Option.some.inj (congrArg ExecutionResult.data (Except.ok.inj hresult))
    exact hreturned
  · cases hexcept

/-- An execution without errors of an operation with a mutation field has run all its fields. -/
theorem executed_mutation {c : ExecutionContext} (hc : contextOf parse v.request = some c) {i : ℕ}
    {r : Request} (hp : PerformsAt parse v i r) {w : World} {data : Data}
    (hdata : (executed g v c w).1 = ⟨some data, []⟩) :
    ∃ calls w', callsFrom v.request v.chance .mutation 0 (executedFields parse v.request.post) =
        some calls ∧
      runMutation g calls { w with commands := 0 } = (.ok data, w') ∧ (executed g v c w).2 =
        { w' with db := if v.commits then w'.db.commit Statement.apply else w'.db.discard } := by
  unfold executed at hdata ⊢
  cases hx : execution g c v.request v.chance { w with commands := 0 } with
  | mk x w' =>
    rw [hx] at hdata
    unfold execution at hx
    cases hplan : plan c v.request v.chance with
    | none =>
      rw [hplan] at hx
      obtain ⟨rfl, -⟩ := Prod.mk.inj hx
      cases hdata
    | some y =>
      obtain ⟨type, calls⟩ := y
      rw [hplan] at hx
      obtain ⟨op, hop, rfl, hcalls⟩ := plan_eq_some hplan
      have hfields := contextOf_fields hc hop
      have hmutation : op.type = .mutation := by
        by_contra hne
        have hlt := hp.lt
        rw [hfields, if_neg hne] at hlt
        exact absurd hlt (Nat.not_lt_zero i)
      rw [if_pos hmutation] at hfields
      rw [hmutation, ← hfields] at hcalls
      refine ⟨calls, w', hcalls, ?_, rfl⟩
      cases x with
      | error e => cases hdata
      | ok result =>
        obtain rfl : result = ⟨some data, []⟩ := hdata
        rw [hmutation] at hx
        exact executeOperation_data hx

theorem lookup_miss_iff {c : ExecutionContext} {store : IdempotencyStore Data} :
    IdempotencyExtension.lookup g.sha256 c store = .miss ↔
      ∃ operation key, c.enrolled = some (operation, key) ∧
        store.get (makeKey operation key) = none := by
  unfold IdempotencyExtension.lookup
  constructor
  · intro h
    split at h
    · cases h
    · rename_i operation key hen
      split at h
      · exact ⟨operation, key, hen, ‹_›⟩
      · split_ifs at h
  · rintro ⟨operation, key, hen, hget⟩
    simp only [hen, hget]

theorem graphql_miss {c : ExecutionContext}
    (h : IdempotencyExtension.lookup g.sha256 c s.store = .miss) :
    (graphql g v c s).2.world = (executed g v c s.world).2 ∧
      (graphql g v c s).2.records =
        (persist g.sha256 c (executed g v c s.world).1 s.store).records := by
  unfold graphql
  simp only [h, and_self]

theorem visit_misses {c : ExecutionContext} {operation key : String}
    (h : Misses g word parse s v c operation key) :
    (visit g word parse v s).2.world = (executed g v c s.world).2 ∧
      (visit g word parse v s).2.records =
        (persist g.sha256 c (executed g v c s.world).1 s.store).records := by
  have hlookup := (lookup_miss_iff (g := g)).2 ⟨operation, key, h.enrolled, h.missed⟩
  rw [visit_forwarded h.forwarded]
  simp only [route, h.context]
  exact graphql_miss hlookup

theorem visit_records_same (h : ∀ c operation key, ¬ Misses g word parse s v c operation key) :
    (visit g word parse v s).2.records = s.records := by
  by_cases hforwarded : (dispatch g.unicode word v.request.post s.limiter).1 = .forwarded
  · rw [visit_forwarded hforwarded]
    unfold route
    split
    · rfl
    · rename_i c hc
      unfold graphql
      split
      · rfl
      · rfl
      · rfl
      · rename_i hmiss
        obtain ⟨operation, key, hen, hget⟩ := lookup_miss_iff.1 hmiss
        exact absurd ⟨hforwarded, hc, hen, hget⟩ (h c operation key)
  · rw [visit_refused hforwarded]

/-- A visit that stores its result, and is committed if it saved a row, is honest. -/
theorem honest_of_commits (hsession : s.world.db.Fresh)
    (ht : s.world.db.committed.WellFormed g.unicode)
    (hfresh : FreshIds parse v s.world.db.committed)
    (hcommits : CommitsSaved g word parse s (.visit v)) {key : String} {record : IdempotencyRecord Data}
    (hstores : Stores g word parse s v key record) : Honest g word parse s v record.response := by
  obtain ⟨c, operation, idempotencyKey, data, hmisses, -, hdata, rfl⟩ := hstores
  intro i email ip d responseKey message hp hsuccess
  obtain ⟨calls, w', hcalls, hrun, hend⟩ := executed_mutation hmisses.context hp hdata
  have hin : InsideAt g parse v s.world.db.committed s.world.redis.now 0
      { s.world with commands := 0 } := insideAt_start ht hsession rfl
  have hsaves : ∀ j email' ip' d' a, PerformsAt parse v j (.requestPasswordReset email' ip' d') →
      Email.new g.unicode email' = .ok a →
      SavesRow g (v.chance j).faults a.value d' (before g calls j { s.world with commands := 0 }) →
      SavesAt g parse v s.world j a.value := fun j email' ip' d' a hp' hemail hrow =>
    ⟨calls, email', ip', d', a, hcalls, hp', hemail, rfl, hrow⟩
  have hcondition := fun a hemail hrow => hcommits c operation idempotencyKey hmisses i a.value
    (hsaves i email ip d a hp hemail hrow)
  have hspared : ∀ a, Email.new g.unicode email = .ok a →
      SavesRow g (v.chance i).faults a.value d (before g calls i { s.world with commands := 0 }) →
      Spared g parse v i email 0 calls { s.world with commands := 0 } := by
    intro a hemail hrow
    obtain ⟨-, haudits, hothers⟩ := hcondition a hemail hrow
    refine ⟨haudits, fun k hk email' ip' d' a' hp' hemail' hrow' hsame => ?_⟩
    rw [Nat.zero_add] at hk hp' hrow'
    obtain rfl := Except.ok.inj (hemail.symm.trans hsame)
    exact hothers k hk (hsaves k email' ip' d' a hp' hemail' hrow')
  obtain ⟨⟨a, hemail, hrow⟩, hstanding⟩ := saved_run ht hfresh hp (Nat.zero_add i).symm rfl hcalls
    hspared hin hrun hsuccess
  have htables : (visit g word parse v s).2.world.db.committed = w'.tables := by
    rw [(visit_misses hmisses).1, hend, if_pos (hcondition a hemail hrow).1]
    exact Session.commit_committed _ _ hstanding.alive
  obtain ⟨row, hmem, hid⟩ := hstanding.row
  rw [← htables] at hmem
  obtain ⟨a, m, hemail, hm, hname, -, hsame⟩ := row_owner hfresh
    (visit_grown word s hsession ht hfresh).2 hp hmem hid
  exact ⟨a, m, row, hemail, hm, hname, hmem, hsame⟩

theorem stores_unique {key key' : String} {record record' : IdempotencyRecord Data}
    (h : Stores g word parse s v key record) (h' : Stores g word parse s v key' record') :
    key = key' := by
  obtain ⟨c, operation, idempotencyKey, -, hmisses, rfl, -⟩ := h
  obtain ⟨c', operation', idempotencyKey', -, hmisses', rfl, -⟩ := h'
  obtain rfl := Option.some.inj (hmisses.context.symm.trans hmisses'.context)
  obtain ⟨rfl, rfl⟩ := Prod.mk.inj (Option.some.inj (hmisses.enrolled.symm.trans hmisses'.enrolled))
  rfl

theorem persist_unstored {c : ExecutionContext} {result : ExecutionResult Data}
    (h : ∀ data, result ≠ ⟨some data, []⟩) (store : IdempotencyStore Data) :
    persist g.sha256 c result store = store := by
  obtain ⟨data, errors⟩ := result
  unfold persist
  split
  · rename_i data hen hdata
    split_ifs with herrors
    · obtain rfl : _ = some data := hdata
      obtain rfl : errors = [] := herrors
      exact absurd rfl (h data)
    · rfl
  · rfl

/-- A visit stores one record, or leaves the store. -/
theorem visit_records (g : GlobalContainer) (word : Char → Bool) (parse : String → Option Document)
    (s : HttpState) (v : Visit) : (visit g word parse v s).2.records = s.records ∧
      (∀ key record, ¬ Stores g word parse s v key record) ∨
    ∃ key record, Stores g word parse s v key record ∧
      (visit g word parse v s).2.records = (s.store.set key record).records := by
  by_cases hany : ∃ c operation key, Misses g word parse s v c operation key
  · obtain ⟨c, operation, key, hmisses⟩ := hany
    have hrecords := (visit_misses hmisses).2
    by_cases hdata : ∃ data, (executed g v c s.world).1 = ⟨some data, []⟩
    · obtain ⟨data, hdata⟩ := hdata
      refine .inr ⟨makeKey operation key, ⟨g.sha256 (c.hashInput operation), data⟩,
        ⟨c, operation, key, data, hmisses, rfl, hdata, rfl⟩, ?_⟩
      rw [hrecords, hdata]
      simp only [persist, hmisses.enrolled, if_pos]
    · refine .inl ⟨?_, ?_⟩
      · rw [hrecords, persist_unstored (fun data h => hdata ⟨data, h⟩)]
        rfl
      · rintro key' record ⟨c', operation', key', data, hmisses', -, hdata', -⟩
        obtain rfl := Option.some.inj (hmisses.context.symm.trans hmisses'.context)
        exact hdata ⟨data, hdata'⟩
  · have hno : ∀ c operation key, ¬ Misses g word parse s v c operation key :=
      fun c operation key h => hany ⟨c, operation, key, h⟩
    refine .inl ⟨visit_records_same hno, ?_⟩
    rintro key record ⟨c, operation, key', data, hmisses, -⟩
    exact hno c operation key' hmisses

theorem StoredHonestly.next {key : String} {record : IdempotencyRecord Data}
    {p : List (HttpState × HttpEvent)} (h : StoredHonestly g word parse key record p)
    {x : HttpState × HttpEvent}
    (hx : ∀ v record', x.2 = .visit v → ¬ Stores g word parse x.1 v key record') :
    StoredHonestly g word parse key record (x :: p) :=
  since_cons.2 (.inr ⟨hx, h⟩)

/-- Between visits the session is fresh and the tables are well formed, and every record comes
from an honest visit. -/
structure Sound (g : GlobalContainer) (word : Char → Bool) (parse : String → Option Document)
    (p : List (HttpState × HttpEvent)) (s : HttpState) : Prop where
  session : s.world.db.Fresh
  tables : s.world.db.committed.WellFormed g.unicode
  held : ∀ key record, s.store.get key = some record → StoredHonestly g word parse key record p

theorem sound_wait {p : List (HttpState × HttpEvent)} (h : Sound g word parse p s) (d : ℕ) :
    Sound g word parse ((s, .wait d) :: p) (s.advance d) := by
  refine ⟨h.session, h.tables, fun key record hget => ?_⟩
  obtain ⟨e, he, hvalue⟩ := Option.map_eq_some_iff.1 hget
  have hbefore := ExpiringMap.value_of_entry (ExpiringMap.purge_le he)
  rw [hvalue] at hbefore
  exact (h.held key record hbefore).next fun v record' hv => nomatch hv

theorem sound_visit {p : List (HttpState × HttpEvent)} (h : Sound g word parse p s)
    (hfresh : FreshIds parse v s.world.db.committed)
    (hcommits : CommitsSaved g word parse s (.visit v)) :
    Sound g word parse ((s, .visit v) :: p) (visit g word parse v s).2 := by
  obtain ⟨hsession, hgrown⟩ := visit_grown word s h.session h.tables hfresh
  refine ⟨hsession, hgrown.tables, fun key record hget => ?_⟩
  rcases visit_records g word parse s v with ⟨hsame, hno⟩ | ⟨key', record', hstores, hset⟩
  · have hbefore : s.store.get key = some record := by
      rw [← hget, IdempotencyStore.get, IdempotencyStore.get]
      exact congrArg (fun m => ExpiringMap.value m key) hsame.symm
    exact (h.held key record hbefore).next fun v' record' hv => HttpEvent.visit.inj hv ▸ hno key record'
  · have hafter : (s.store.set key' record').get key = some record := by
      rw [← hget, IdempotencyStore.get, IdempotencyStore.get]
      exact congrArg (fun m => ExpiringMap.value m key) hset.symm
    by_cases hkey : key = key'
    · subst hkey
      rw [get_set, Option.some.injEq] at hafter
      subst hafter
      exact since_cons.2 (.inl ⟨v, rfl, hstores,
        honest_of_commits h.session h.tables hfresh hcommits hstores⟩)
    · rw [get_set_ne hkey] at hafter
      refine (h.held key record hafter).next fun v' record'' hv hst => ?_
      obtain rfl := HttpEvent.visit.inj hv
      exact hkey (stores_unique hst hstores)

theorem run_sound (hs : FirstOpens g s) {p : List (HttpState × HttpEvent)}
    (h : Runs (http g word parse) s p s') (hp : Meets (CommitsSaved g word parse) p) :
    Sound g word parse p s' := by
  induction h with
  | refl =>
    refine ⟨hs.session, hs.tables, fun key record hget => ?_⟩
    rw [IdempotencyStore.get, HttpState.store, hs.records] at hget
    cases hget
  | next front hstep ih =>
    obtain ⟨hx, hfront⟩ := meets_cons.1 hp
    cases hstep with
    | wait d => exact sound_wait (ih hfront) d
    | visit v fresh => exact sound_visit (ih hfront) fresh hx

/-- When every visit that saves a reset row and stores its result is committed with that row, the
store holds and replays only results of committed executions. -/
theorem replays_committed (hs : FirstOpens g s) {p : List (HttpState × HttpEvent)}
    (h : Runs (http g word parse) s p s') (hp : Meets (CommitsSaved g word parse) p) :
    OnlyCommitted g word parse p s' := by
  have hsound := run_sound hs h hp
  refine ⟨hsound.held, fun c response hreplay => ?_⟩
  unfold IdempotencyExtension.lookup at hreplay
  split at hreplay
  · cases hreplay
  · rename_i operation key hen
    split at hreplay
    · cases hreplay
    · rename_i record hget
      split_ifs at hreplay
      exact ⟨_, record, Lookup.replay.inj hreplay, hsound.held _ record hget⟩

end Runs

section Sample
open SampleContainer

def keyedAsk (commits : Bool) : Visit :=
  ⟨{ askVisit.request with idempotencyKey := some "key-1" }, chanceWith resetDraws, commits⟩

def keyedHttp (commits : Bool) : HttpState :=
  (visit sample isWordChar parseResets (keyedAsk commits) sampleHttp).2

def keyedContext : ExecutionContext :=
  requestOf (oneField "requestPasswordReset")
    (some [("i", .object [("email", .string "alice@example.com")])])

def resetSuccess : Data :=
  [("requestPasswordReset",
    .answer (.operationResult true "If this email is registered, a reset link has been sent"))]

theorem sampleHttp_firstOpens : FirstOpens sample sampleHttp :=
  ⟨initialWorld_fresh, initialWorld_wellFormed, rfl⟩

theorem keyedAsk_fresh (commits : Bool) :
    FreshIds parseResets (keyedAsk commits) sampleHttp.world.db.committed :=
  ⟨askVisit_fresh.users, askVisit_fresh.tokens, askVisit_fresh.distinctUsers,
    askVisit_fresh.distinctTokens⟩

theorem keyed_runs (commits : Bool) : Runs (http sample isWordChar parseResets) sampleHttp
    [(sampleHttp, .visit (keyedAsk commits))] (keyedHttp commits) :=
  .single (HttpStep.visit sampleHttp (keyedAsk commits) (keyedAsk_fresh commits))

theorem keyedHttp_held (commits : Bool) :
    (keyedHttp commits).store.get (makeKey "requestPasswordReset" "key-1") =
      some ⟨sample.sha256 (keyedContext.hashInput "requestPasswordReset"), resetSuccess⟩ := by
  have hfields : ((keyedHttp commits).store.get (makeKey "requestPasswordReset" "key-1")).map
      (fun record => (record.requestHash, record.response)) =
        some (sample.sha256 (keyedContext.hashInput "requestPasswordReset"), resetSuccess) := by
    cases commits <;> decide +kernel
  obtain ⟨⟨requestHash, response⟩, hget, hrecord⟩ := Option.map_eq_some_iff.1 hfields
  obtain ⟨rfl, rfl⟩ := Prod.mk.inj hrecord
  exact hget

theorem keyedHttp_replays (commits : Bool) :
    IdempotencyExtension.lookup sample.sha256 keyedContext (keyedHttp commits).store =
      .replay resetSuccess := by
  have hen : keyedContext.enrolled = some ("requestPasswordReset", "key-1") := by decide +kernel
  simp only [IdempotencyExtension.lookup, hen, keyedHttp_held, if_true]

theorem keyedAsk_single (commits : Bool) :
    (executedFields parseResets (keyedAsk commits).request.post).length = 1 := by
  cases commits <;> decide +kernel

theorem keyedAsk_commits : CommitsSaved sample isWordChar parseResets sampleHttp
    (.visit (keyedAsk true)) := by
  intro c operation key _ i address hsaves
  refine ⟨rfl, fun j _ r _ => by simp [keyedAsk, chanceWith, noFaults], fun j hj => ?_⟩
  rintro ⟨calls, email, ip, d, a, -, hp, -⟩
  have hlt := hp.lt
  rw [keyedAsk_single] at hlt
  omega

theorem replays_committed_reset :
    (keyedHttp true).world.db.committed.passwordResetTokens.map PasswordResetTokenModel.id =
    [tokenRow] ∧
      IdempotencyExtension.lookup sample.sha256 keyedContext (keyedHttp true).store =
        .replay resetSuccess ∧
      OnlyCommitted sample isWordChar parseResets [(sampleHttp, .visit (keyedAsk true))]
        (keyedHttp true) :=
  ⟨by decide +kernel, keyedHttp_replays true, replays_committed sampleHttp_firstOpens (keyed_runs true)
    (meets_cons.2 ⟨keyedAsk_commits, meets_nil _⟩)⟩

/-- The commit of a reset request fails, its answer is stored, and a retry is told of a reset
whose token is nowhere. -/
theorem rolled_back_reset_replayed :
    FirstOpens sample sampleHttp ∧ Runs (http sample isWordChar parseResets) sampleHttp
        [(sampleHttp, .visit (keyedAsk false))] (keyedHttp false) ∧
      contextOf parseResets (keyedAsk true).request = some keyedContext ∧
      IdempotencyExtension.lookup sample.sha256 keyedContext (keyedHttp false).store =
        .replay resetSuccess ∧
      (keyedHttp false).world.db.committed.passwordResetTokens = [] ∧
      ¬ OnlyCommitted sample isWordChar parseResets [(sampleHttp, .visit (keyedAsk false))]
        (keyedHttp false) := by
  have hrows : (keyedHttp false).world.db.committed.passwordResetTokens = [] := by decide +kernel
  refine ⟨sampleHttp_firstOpens, keyed_runs false, by rfl, keyedHttp_replays false, hrows, fun h => ?_⟩
  have hheld := h.held _ _ (keyedHttp_held false)
  obtain ⟨v, hv, -, hhonest⟩ := (since_cons.1 hheld).resolve_right fun hlater => since_nil hlater.2
  obtain rfl := HttpEvent.visit.inj hv
  have hp : PerformsAt parseResets (keyedAsk false) 0
      (.requestPasswordReset "alice@example.com" none resetDraws) :=
    ⟨⟨"requestPasswordReset", "requestPasswordReset",
      [("input", .object [("email", .string "alice@example.com")])]⟩, by rfl, by rfl⟩
  obtain ⟨a, m, row, -, -, -, hrow, -⟩ := hhonest _ _ _ _ _ _ hp rfl
  rw [show (visit sample isWordChar parseResets (keyedAsk false) sampleHttp).2 =
    keyedHttp false from rfl,
    hrows] at hrow
  exact absurd hrow List.not_mem_nil

end Sample

end AuthService.CommittedReplays
