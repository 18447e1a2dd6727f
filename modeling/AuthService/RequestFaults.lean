import AuthService.AccountEffects
import AuthService.ServiceRuns

set_option autoImplicit false

/-! Requests in which port calls fail: what such a request leaves in the account tables. -/
namespace AuthService.RequestFaults
open Uuids PythonText DomainModel KeyedRows AccountTables Transactions FallibleState Fallible
open RedisSessions RequestPorts RedisTokenStore CommandHandlers GraphqlResolvers HandlerRuns
open SessionDiscipline AccountEffects ServiceRuns

/-- None of the next `n` Redis commands fails. -/
def Unfaulted (faults : Faults) (c n : ℕ) : Prop := ∀ k < n, faults (.redis (c + k)) = none

theorem unfaulted_add {faults : Faults} {c m n : ℕ} :
    Unfaulted faults c (m + n) ↔ Unfaulted faults c m ∧ Unfaulted faults (c + m) n := by
  constructor
  · intro h
    refine ⟨fun k hk => h k (by omega), fun k hk => ?_⟩
    rw [Nat.add_assoc]
    exact h (m + k) (by omega)
  · rintro ⟨h, h'⟩ k hk
    by_cases hkm : k < m
    · exact h k hkm
    · rw [show c + k = c + m + (k - m) by omega]
      exact h' (k - m) (by omega)

/-- The computation sends `n` commands and ends in `w'`, unless one of them fails. -/
structure Sends {α : Type} (faults : Faults) (m : AuthM α) (w : World) (n : ℕ) (a : α) (w' : World) :
    Prop where
  finishes : Unfaulted faults w.commands n → m w = (.ok a, w')
  breaks : ¬ Unfaulted faults w.commands n → ∃ w'', m w = (.error .portError, w'') ∧ w''.db = w.db
  commands : w'.commands = w.commands + n
  db : w'.db = w.db

section Sends
variable {faults : Faults} {w : World}

theorem sends_pure {α : Type} (a : α) : Sends faults (pure a) w 0 a w :=
  ⟨fun _ => rfl, fun h => absurd (fun k hk => absurd hk (Nat.not_lt_zero k)) h, rfl, rfl⟩

theorem sends_command {α : Type} (f : Redis → α × Redis) :
    Sends faults (command faults f) w 1 (f w.redis).1 (commanded (f w.redis).2 1 w) := by
  refine ⟨fun h => ?_, fun h => ?_, rfl, rfl⟩
  · have h0 := h 0 Nat.one_pos
    rw [Nat.add_zero] at h0
    simp only [command, h0]
    rfl
  · cases h0 : faults (.redis w.commands) with
    | none =>
      refine absurd ?_ h
      intro k hk
      obtain rfl : k = 0 := by omega
      exact h0
    | some f =>
      refine ⟨{ w with commands := w.commands + 1 }, ?_, rfl⟩
      simp only [command, h0]

theorem Sends.bind {α β : Type} {m : AuthM α} {f : α → AuthM β} {n k : ℕ} {a : α} {b : β}
    {w' w'' : World} (h : Sends faults m w n a w') (h' : Sends faults (f a) w' k b w'') :
    Sends faults (m >>= f) w (n + k) b w'' := by
  refine ⟨fun hu => ?_, fun hu => ?_, by rw [h'.commands, h.commands, Nat.add_assoc],
    h'.db.trans h.db⟩
  · obtain ⟨h1, h2⟩ := unfaulted_add.1 hu
    rw [bind_ok (h.finishes h1)]
    exact h'.finishes (by rwa [h.commands])
  · by_cases h1 : Unfaulted faults w.commands n
    · have h2 : ¬ Unfaulted faults w'.commands k := fun h2 =>
        hu (unfaulted_add.2 ⟨h1, h.commands ▸ h2⟩)
      obtain ⟨v, hv, hdb⟩ := h'.breaks h2
      exact ⟨v, by rw [bind_ok (h.finishes h1), hv], hdb.trans h.db⟩
    · obtain ⟨v, hv, hdb⟩ := h.breaks h1
      exact ⟨v, bind_error hv, hdb⟩

theorem sends_getSession (sid : UUID) :
    Sends faults (getSession faults sid) w 1 (w.redis.session.value sid) (commanded w.redis 1 w) :=
  sends_command _

theorem sends_revokeSession (sid : UUID) :
    Sends faults (revokeSession faults sid) w (revokeOneCost sid w.redis) ()
      (commanded (revokeOne sid w.redis) (revokeOneCost sid w.redis) w) := by
  have hget : Sends faults (getSession faults sid) w 1 _ _ := sends_getSession sid
  unfold revokeSession revokeOneCost revokeOne
  cases hv : w.redis.session.value sid with
  | none =>
    rw [hv] at hget
    exact hget.bind (k := 0) (sends_pure ())
  | some data =>
    rw [hv] at hget
    exact hget.bind (k := 1) (sends_command _)

theorem sends_revokeEach (ids : List UUID) :
    Sends faults (revokeEach faults ids) w (revokeListCost ids w.redis) ()
      (commanded (revokeList ids w.redis) (revokeListCost ids w.redis) w) := by
  induction ids generalizing w with
  | nil => exact sends_pure ()
  | cons sid rest ih =>
    rw [revokeEach, revokeListCost, revokeList]
    have h := (sends_revokeSession (w := w) sid).bind (f := fun _ => revokeEach faults rest) ih
    simpa [commanded, Nat.add_assoc] using h

theorem sends_revokeAll (uid : UUID) :
    Sends faults (revokeAllUserSessions faults uid) w (revokeAllCost uid w.redis) ()
      (commanded (revokeAll uid w.redis) (revokeAllCost uid w.redis) w) := by
  have hread : Sends faults (command faults (fun r => ((r.sessions.value uid).getD [], r))) w 1
      ((w.redis.sessions.value uid).getD []) (commanded w.redis 1 w) := sends_command _
  have hremove : Sends faults
      (command faults (fun r => ((), { r with sessions := r.sessions.remove uid })))
      (commanded w.redis 1 w) 1 ()
      (commanded { w.redis with sessions := w.redis.sessions.remove uid } 2 w) := sends_command _
  have h := hread.bind (f := fun ids => command faults (fun r => ((), { r with
    sessions := r.sessions.remove uid })) >>= fun _ => revokeEach faults ids)
      (hremove.bind (f := fun _ => revokeEach faults ((w.redis.sessions.value uid).getD []))
        (sends_revokeEach _))
  rw [revokeAllUserSessions, revokeAllCost, revokeAll]
  simpa [commanded, ← Nat.add_assoc] using h

end Sends

def Leaves (t : Tables) (w : World) : Prop :=
  (w.db.commit Statement.apply).committed.SameAccounts t

/-- How a handler that is harmed under `harm` ends: a failure changes the account tables
exactly when it is harmed, and a success is not harmed. -/
inductive Fate (t : Tables) (harm : Prop) : Except Exn Unit × World → Prop where
  | failed {e : Exn} {w : World} (leaves : Leaves t w ↔ ¬ harm) : Fate t harm (.error e, w)
  | succeeded {w : World} (calm : ¬ harm) : Fate t harm (.ok (), w)

section Fate
variable {w w' : World} {harm : Prop}

theorem leaves_fresh (h : w.db.Fresh) : Leaves w.db.committed w := by
  rw [Leaves, Session.commit_of_fresh _ h]
  exact Tables.SameAccounts.refl _

theorem leaves_aborted (hc : w'.db.committed = w.db.committed) (h : w'.db.aborted = true) :
    Leaves w.db.committed w' := by
  rw [Leaves, Session.commit, if_pos h, hc]
  exact Tables.SameAccounts.refl _

theorem leaves_alive {t : Tables} (h : w'.db.aborted = false) :
    Leaves t w' ↔ w'.tables.SameAccounts t := by
  rw [Leaves, Session.commit_committed _ _ h]
  rfl

theorem fate_calm {t : Tables} {e : Exn} (h : Leaves t w') (calm : ¬ harm) :
    Fate t harm (.error e, w') :=
  .failed (iff_of_true h calm)

theorem fate_harmed {t : Tables} {e : Exn} (h : ¬ Leaves t w') (harmed : harm) :
    Fate t harm (.error e, w') :=
  .failed (iff_of_false h (not_not_intro harmed))

theorem port_fails {α : Type} {faults : Faults} {c : PortCall} {x : Failure} (hw : w.db.Fresh)
    (hc : faults c = some x) :
    ∃ e w', (∀ m : AuthM α, port faults c m w = (.error e, w')) ∧ Leaves w.db.committed w' := by
  cases x with
  | raises => exact ⟨.portError, w, fun m => by simp only [port, hc], leaves_fresh hw⟩
  | rollsBack =>
    exact ⟨.portError, { w with db := w.db.rollback }, fun m => by simp only [port, hc],
      leaves_aborted rfl rfl⟩

theorem flush_fails {faults : Faults} {c : PortCall} {x : Failure} (hw : w.db.Fresh)
    (hc : faults c = some x) (f : Tables → Except Exn Statement) :
    ∃ e w', flush faults c f w = (.error e, w') ∧ Leaves w.db.committed w' := by
  obtain ⟨e, w', hr, hl⟩ := port_fails hw hc
  exact ⟨e, w', by unfold flush; exact hr (fun w => _), hl⟩

theorem fate_port {α : Type} {faults : Faults} {c : PortCall} {m : AuthM α} {f : α → AuthM Unit}
    {x : Failure} (hw : w.db.Fresh) (hc : faults c = some x) (calm : ¬ harm) :
    Fate w.db.committed harm ((port faults c m >>= f) w) := by
  obtain ⟨e, w', hr, hl⟩ := port_fails hw hc
  rw [bind_error (hr m)]
  exact fate_calm hl calm

end Fate

/-- A reset request is harmed when it fails after its DELETE was flushed: the new row is
not saved although rows were deleted, or the mail is not sent although it was. -/
def RequestHarm (g : GlobalContainer) (faults : Faults) (cmd : RequestPasswordResetCommand)
    (d : RequestResetDraws) (w : World) : Prop :=
  ∃ email user, Email.new g.unicode cmd.email = .ok email ∧
    w.db.committed.findByEmail g.unicode email.value = .ok (some user) ∧
    faults .findByEmail = none ∧ faults .deleteAllByUserId = none ∧
    ((faults .saveToken = some .raises ∧
        ∃ row ∈ w.db.committed.passwordResetTokens, row.userId = user.id) ∨
      (faults .saveToken = none ∧ faults .sendResetEmail ≠ none ∧
        ∀ row ∈ w.db.committed.passwordResetTokens, row.userId ≠ user.id →
          row.token ≠ g.sha256 d.rawToken.text))

section RequestReset
variable {g : GlobalContainer} {faults : Faults} {w : World} {cmd : RequestPasswordResetCommand}
  {d : RequestResetDraws} {email : Email g.unicode} {user : User g.unicode}

theorem requestHarm_iff (haddr : Email.new g.unicode cmd.email = .ok email)
    (hfound : w.db.committed.findByEmail g.unicode email.value = .ok (some user))
    (hfault : faults .findByEmail = none) :
    RequestHarm g faults cmd d w ↔ faults .deleteAllByUserId = none ∧
      ((faults .saveToken = some .raises ∧
          ∃ row ∈ w.db.committed.passwordResetTokens, row.userId = user.id) ∨
        (faults .saveToken = none ∧ faults .sendResetEmail ≠ none ∧
          ∀ row ∈ w.db.committed.passwordResetTokens, row.userId ≠ user.id →
            row.token ≠ g.sha256 d.rawToken.text)) := by
  constructor
  · rintro ⟨email', user', haddr', hfound', -, hrest⟩
    rw [haddr, Except.ok.injEq] at haddr'
    subst haddr'
    rw [hfound, Except.ok.injEq, Option.some.injEq] at hfound'
    subst hfound'
    exact hrest
  · intro hrest
    exact ⟨email, user, haddr, hfound, hfault, hrest⟩

theorem tables_deleted (hw : w.db.Fresh) (ht : w.db.committed.WellFormed g.unicode) (uid : UUID) :
    (World.tables { w with db := w.db.flush [w.tables.deleteAllByUserId uid] }).passwordResetTokens =
      w.db.committed.passwordResetTokens.filter (fun row => row.userId ≠ uid) := by
  rw [tables_flush, show w.tables = w.db.committed from Session.view_fresh _ hw]
  exact deleteAll_tokens ht uid

theorem filter_eq_self_iff {rows : List PasswordResetTokenModel} {uid : UUID} :
    rows.filter (fun row => row.userId ≠ uid) = rows ↔ ¬ ∃ row ∈ rows, row.userId = uid := by
  rw [List.filter_eq_self]
  simp

theorem sendResetEmail_raises {address token : String} {failure : Failure}
    (h : faults .sendResetEmail = some failure) :
    sendResetEmail faults address token w = (.error .portError, w) := by
  simp only [sendResetEmail, h]

theorem sendResetEmail_sends {address token : String} (h : faults .sendResetEmail = none) :
    sendResetEmail faults address token w =
      (.ok (), { w with sentEmails := w.sentEmails ++ [(address, token)] }) := by
  simp only [sendResetEmail, h]

theorem requestReset_save_fate {w₁ : World} (howner : ∃ m ∈ w.db.committed.users, m.id = user.id)
    (hid : ∀ row ∈ w.db.committed.passwordResetTokens, row.id ≠ d.tokenId)
    (htok : w₁.tables.passwordResetTokens =
      w.db.committed.passwordResetTokens.filter (fun row => row.userId ≠ user.id))
    (husers : w₁.tables.users = w.db.committed.users) (halive : w₁.db.aborted = false)
    (hcommitted : w₁.db.committed = w.db.committed) :
    Fate w.db.committed
      ((faults .saveToken = some .raises ∧
          ∃ row ∈ w.db.committed.passwordResetTokens, row.userId = user.id) ∨
        (faults .saveToken = none ∧ faults .sendResetEmail ≠ none ∧
          ∀ row ∈ w.db.committed.passwordResetTokens, row.userId ≠ user.id →
            row.token ≠ g.sha256 d.rawToken.text))
      ((now >>= fun time => saveToken faults (requestedToken g d user.id time) >>= fun _ =>
        sendResetEmail faults email.value d.rawToken.text >>= fun _ => now >>= fun occurredAt =>
        tryRecord faults ⟨d.eventId, .passwordResetRequested, occurredAt, some user.id, none,
          cmd.ipAddress, []⟩) w₁) := by
  rw [bind_ok now_run]
  cases hsave : faults .saveToken with
  | some x =>
    cases x with
    | raises =>
      rw [saveToken, bind_error (flush_raises hsave)]
      refine .failed ?_
      rw [leaves_alive halive, Tables.SameAccounts, husers, htok, filter_eq_self_iff]
      simp
    | rollsBack =>
      rw [saveToken, bind_error (flush_rollsBack hsave)]
      exact fate_calm (leaves_aborted hcommitted rfl) (by simp)
  | none =>
    cases hs : Tables.saveResetToken (requestedToken g d user.id w₁.redis.now) w₁.tables with
    | error e =>
      rw [saveToken, bind_error (flush_error hsave halive hs)]
      refine fate_calm (leaves_aborted hcommitted rfl) ?_
      rintro (⟨h, -⟩ | ⟨-, -, hnew⟩)
      · simp at h
      · have hok : Tables.saveResetToken (requestedToken g d user.id w₁.redis.now) w₁.tables = _ :=
          saveResetToken_requested (by rw [husers]; exact howner) ?_ ?_
        · rw [hok] at hs
          simp at hs
        · intro row hrow
          rw [htok] at hrow
          exact hid row (List.mem_of_mem_filter hrow)
        · intro row hrow
          rw [htok] at hrow
          obtain ⟨hrow, hne⟩ := List.mem_filter.1 hrow
          exact hnew row hrow (of_decide_eq_true hne)
    | ok stmt =>
      rw [saveToken, bind_ok (flush_ok hsave halive hs)]
      have hinsert : stmt = .insertResetToken
          (toResetTokenModel (requestedToken g d user.id w₁.redis.now)) := by
        refine saveResetToken_fresh ?_ hs
        rw [htok]
        exact fun row hrow => hid row (List.mem_of_mem_filter hrow)
      have hclash := (checkResetToken_ok (saveResetToken_ok hs).1).2.1
      have htables := tables_flush (w := w₁) stmt
      cases hmail : faults .sendResetEmail with
      | some x =>
        rw [bind_error (sendResetEmail_raises hmail)]
        have halive' : (World.db { w₁ with db := w₁.db.flush [stmt] }).aborted = false := halive
        refine fate_harmed ?_ (.inr ⟨rfl, by simp, ?_⟩)
        · rw [leaves_alive halive', Tables.SameAccounts, htables, hinsert]
          rintro ⟨-, hsame⟩
          have hmem : toResetTokenModel (requestedToken g d user.id w₁.redis.now) ∈
              w.db.committed.passwordResetTokens := by
            rw [← hsame]
            exact List.mem_append_right _ (List.mem_singleton_self _)
          exact hid _ hmem rfl
        · intro row hrow hne
          refine hclash row ?_ (hid row hrow)
          rw [htok]
          exact List.mem_filter.2 ⟨hrow, decide_eq_true hne⟩
      | none =>
        rw [bind_ok (sendResetEmail_sends hmail), bind_ok now_run, tryRecord_run]
        exact .succeeded (by simp)

theorem requestReset_rest_fate (hw : w.db.Fresh) (ht : w.db.committed.WellFormed g.unicode)
    (howner : ∃ m ∈ w.db.committed.users, m.id = user.id)
    (hid : ∀ row ∈ w.db.committed.passwordResetTokens, row.id ≠ d.tokenId)
    (haddr : Email.new g.unicode cmd.email = .ok email)
    (hfound : w.db.committed.findByEmail g.unicode email.value = .ok (some user))
    (hfault : faults .findByEmail = none) :
    Fate w.db.committed (RequestHarm g faults cmd d w)
      ((deleteAllByUserId faults user.id >>= fun _ => now >>= fun time =>
        saveToken faults (requestedToken g d user.id time) >>= fun _ =>
        sendResetEmail faults email.value d.rawToken.text >>= fun _ => now >>= fun occurredAt =>
        tryRecord faults ⟨d.eventId, .passwordResetRequested, occurredAt, some user.id, none,
          cmd.ipAddress, []⟩) w) := by
  rw [requestHarm_iff haddr hfound hfault]
  cases hdel : faults .deleteAllByUserId with
  | some x => exact fate_port hw hdel (by simp)
  | none =>
    have hrun : deleteAllByUserId faults user.id w =
        (.ok (), { w with db := w.db.flush [w.tables.deleteAllByUserId user.id] }) :=
      flush_ok hdel hw.2 rfl
    have husers : (World.tables { w with
        db := w.db.flush [w.tables.deleteAllByUserId user.id] }).users = w.db.committed.users := by
      rw [tables_flush, show w.tables = w.db.committed from Session.view_fresh _ hw]
      rfl
    rw [bind_ok hrun, eq_self, true_and]
    exact requestReset_save_fate howner hid (tables_deleted hw ht user.id) husers hw.2 rfl

theorem requestPasswordReset_fate (hw : w.db.Fresh) (ht : w.db.committed.WellFormed g.unicode)
    (cmd : RequestPasswordResetCommand) (d : RequestResetDraws)
    (hid : ∀ row ∈ w.db.committed.passwordResetTokens, row.id ≠ d.tokenId) :
    Fate w.db.committed (RequestHarm g faults cmd d w) (requestPasswordReset g faults cmd d w) := by
  have hview : w.tables = w.db.committed := Session.view_fresh _ hw
  unfold requestPasswordReset
  cases he : Email.new g.unicode cmd.email with
  | error e =>
    refine fate_calm (leaves_fresh hw) ?_
    rintro ⟨email, user, haddr, -⟩
    simp [he] at haddr
  | ok email =>
    rw [bind_ok (ofExcept_run _ _)]
    cases hfault : faults .findByEmail with
    | some x =>
      refine fate_port hw hfault ?_
      rintro ⟨email, user, -, -, hno, -⟩
      simp [hfault] at hno
    | none =>
      have hf : findByEmail g faults email w =
        (w.db.committed.findByEmail g.unicode email.value, w) := by
        rw [← hview]
        exact query_run hfault hw.2
      have hother : (∀ user, w.db.committed.findByEmail g.unicode email.value ≠ .ok (some user)) →
          ¬ RequestHarm g faults cmd d w := by
        rintro hno ⟨email', user, haddr, hfound, -⟩
        rw [he, Except.ok.injEq] at haddr
        exact hno user (haddr ▸ hfound)
      cases hfound : w.db.committed.findByEmail g.unicode email.value with
      | error e =>
        rw [bind_error (hf.trans (by rw [hfound]))]
        exact fate_calm (leaves_fresh hw) (hother (by simp [hfound]))
      | ok found =>
        rw [bind_ok (hf.trans (by rw [hfound]))]
        cases found with
        | none => exact fate_calm (leaves_fresh hw) (hother (by simp [hfound]))
        | some user =>
          obtain ⟨m, hl, hd⟩ := findByEmail_stored hfound
          obtain ⟨hmid, -⟩ := toDomain_ok hd
          exact requestReset_rest_fate hw ht ⟨m, (lookup_some hl).1, hmid.symm⟩ hid he hfound hfault

end RequestReset

/-- A password reset is harmed when it fails after the new password was flushed: the
token is not saved although the hash changed, or a Redis command of the revocation fails. -/
def ResetHarm (g : GlobalContainer) (faults : Faults) (cmd : ResetPasswordCommand) (d : ResetDraws)
    (w : World) : Prop :=
  ∃ p row m, PlainPassword.new g.unicode cmd.newPassword = .ok p ∧
    lookup PasswordResetTokenModel.token (g.sha256 cmd.token) w.db.committed.passwordResetTokens =
      some row ∧ row.toDomain.consume w.redis.now = .ok (consumed row).toDomain ∧
    m ∈ w.db.committed.users ∧ m.id = row.userId ∧
    faults .findByToken = none ∧ faults .findById = none ∧ faults .saveUser = none ∧
    ((faults .saveToken = some .raises ∧ g.hashpw cmd.newPassword d.salt ≠ m.hashedPassword) ∨
      (faults .saveToken = none ∧
        ¬ Unfaulted faults w.commands (revokeAllCost row.userId w.redis)))

section Reset
variable {g : GlobalContainer} {faults : Faults} {w : World} {cmd : ResetPasswordCommand}
  {d : ResetDraws} {p : PlainPassword g.unicode} {row : PasswordResetTokenModel} {m : UserModel}

theorem resetHarm_iff (ht : w.db.committed.WellFormed g.unicode)
    (hp : PlainPassword.new g.unicode cmd.newPassword = .ok p)
    (hrow : lookup PasswordResetTokenModel.token (g.sha256 cmd.token)
      w.db.committed.passwordResetTokens = some row)
    (hc : row.toDomain.consume w.redis.now = .ok (consumed row).toDomain)
    (hm : m ∈ w.db.committed.users) (hid : m.id = row.userId) :
    ResetHarm g faults cmd d w ↔
      faults .findByToken = none ∧ faults .findById = none ∧ faults .saveUser = none ∧
      ((faults .saveToken = some .raises ∧ g.hashpw cmd.newPassword d.salt ≠ m.hashedPassword) ∨
        (faults .saveToken = none ∧
          ¬ Unfaulted faults w.commands (revokeAllCost row.userId w.redis))) := by
  constructor
  · rintro ⟨p', row', m', -, hrow', -, hm', hid', hrest⟩
    rw [hrow, Option.some.injEq] at hrow'
    subst hrow'
    rwa [ht.userIds.unique hm' hm (hid'.trans hid.symm)] at hrest
  · intro hrest
    exact ⟨p, row, m, hp, hrow, hc, hm, hid, hrest⟩

theorem amend_eq_self_iff {rows : List UserModel} (hk : Keyed UserModel.id rows) {m : UserModel}
    (hm : m ∈ rows) {newHash : String} :
    amend UserModel.id m.id (withPassword newHash) rows = rows ↔ newHash = m.hashedPassword := by
  constructor
  · intro h
    have hmem : withPassword newHash m ∈ amend UserModel.id m.id (withPassword newHash) rows :=
      mem_amend.2 ⟨m, hm, if_pos rfl⟩
    rw [h] at hmem
    have heq := hk.unique hmem hm rfl
    exact congrArg UserModel.hashedPassword heq
  · rintro rfl
    refine amend_of_absent ?_
    intro r hr hid
    rw [hk.unique hr hm hid]
    rfl

theorem reset_rest_fate (hw : w.db.Fresh) (ht : w.db.committed.WellFormed g.unicode)
    (hp : PlainPassword.new g.unicode cmd.newPassword = .ok p)
    (hrow : lookup PasswordResetTokenModel.token (g.sha256 cmd.token)
      w.db.committed.passwordResetTokens = some row)
    (hc : row.toDomain.consume w.redis.now = .ok (consumed row).toDomain)
    (hm : m ∈ w.db.committed.users) (hid : m.id = row.userId) {user : User g.unicode}
    (hd : m.toDomain g.unicode = .ok user) (hft : faults .findByToken = none)
    (hfi : faults .findById = none) :
    Fate w.db.committed (ResetHarm g faults cmd d w)
      ((saveUser g faults (user.changePassword (g.hashpw cmd.newPassword d.salt)) >>= fun _ =>
        saveToken faults (consumed row).toDomain >>= fun _ =>
        revokeAllUserSessions faults user.id >>= fun _ => now >>= fun occurredAt =>
        tryRecord faults ⟨d.eventId, .passwordResetCompleted, occurredAt, some user.id, none,
          cmd.ipAddress, []⟩) w) := by
  rw [resetHarm_iff ht hp hrow hc hm hid]
  have hview : w.tables = w.db.committed := Session.view_fresh _ hw
  have hhash : (g.hashpw cmd.newPassword d.salt).length ≤ columnWidth := by
    rw [g.hashpw_length]
    decide
  have huid : user.id = row.userId := by rw [(toDomain_ok hd).1, hid]
  cases hsu : faults .saveUser with
  | some x => exact fate_port hw hsu (by simp)
  | none =>
    have h1 := WellFormed.saveUser_changePassword ht hm hd hhash
    have h2 := WellFormed.saveResetToken_consumed (ht.saveUser h1) (r := row) (lookup_some hrow).1
    have husers := update_users ht hm (g.hashpw cmd.newPassword d.salt)
    have htokens := update_resetTokens (ht.saveUser h1) (r := row) (lookup_some hrow).1
    have hkept : ((Statement.updateUser m (withPassword (g.hashpw cmd.newPassword d.salt) m)).apply
        w.db.committed).passwordResetTokens = w.db.committed.passwordResetTokens := rfl
    generalize Statement.updateUser m (withPassword (g.hashpw cmd.newPassword d.salt) m) = s₁
      at h1 h2 husers htokens hkept
    rw [saveUser, bind_ok (flush_ok hsu hw.2 (by rw [hview]; exact h1))]
    have htab : (World.tables { w with db := w.db.flush [s₁] }) = s₁.apply w.db.committed := by
      rw [tables_flush, hview]
    have halive : (World.db { w with db := w.db.flush [s₁] }).aborted = false := hw.2
    have hcommitted : (World.db { w with db := w.db.flush [s₁] }).committed = w.db.committed := rfl
    have hredis : (World.redis { w with db := w.db.flush [s₁] }) = w.redis := rfl
    have hcommands : (World.commands { w with db := w.db.flush [s₁] }) = w.commands := rfl
    generalize ({ w with db := w.db.flush [s₁] } : World) = w₁
      at htab halive hcommitted hredis hcommands
    cases hst : faults .saveToken with
    | some x =>
      cases x with
      | raises =>
        rw [saveToken, bind_error (flush_raises hst)]
        refine .failed ?_
        rw [leaves_alive halive, Tables.SameAccounts, htab, husers, hkept,
          amend_eq_self_iff ht.userIds hm]
        simp [hft, hfi]
      | rollsBack =>
        rw [saveToken, bind_error (flush_rollsBack hst)]
        exact fate_calm (leaves_aborted hcommitted rfl) (by simp)
    | none =>
      rw [saveToken, bind_ok (flush_ok hst halive (by rw [htab]; exact h2))]
      have htab₂ := tables_flush (w := w₁) (.updateResetToken row (consumed row))
      have halive₂ : (World.db { w₁ with
          db := w₁.db.flush [.updateResetToken row (consumed row)] }).aborted = false := halive
      have hredis₂ : (World.redis { w₁ with
          db := w₁.db.flush [.updateResetToken row (consumed row)] }) = w.redis := hredis
      have hcommands₂ : (World.commands { w₁ with
          db := w₁.db.flush [.updateResetToken row (consumed row)] }) = w.commands := hcommands
      generalize ({ w₁ with db := w₁.db.flush [.updateResetToken row (consumed row)] } : World) = w₂
        at htab₂ halive₂ hredis₂ hcommands₂
      have hsends := @sends_revokeAll faults w₂ user.id
      rw [hredis₂, huid] at hsends
      rw [huid]
      by_cases hun : Unfaulted faults w.commands (revokeAllCost row.userId w.redis)
      · rw [bind_ok (hsends.finishes (by rwa [hcommands₂])), bind_ok now_run, tryRecord_run]
        exact .succeeded (by simp [hun])
      · obtain ⟨w₃, hw₃, hdb⟩ := hsends.breaks (by rwa [hcommands₂])
        rw [bind_error hw₃]
        refine fate_harmed ?_ ⟨hft, hfi, rfl, .inr ⟨rfl, hun⟩⟩
        have htab₃ : w₃.tables = w₂.tables := by rw [World.tables, hdb]; rfl
        rw [leaves_alive (by rw [hdb]; exact halive₂), Tables.SameAccounts, htab₃, htab₂, htab,
          htokens, hkept]
        rintro ⟨-, hsame⟩
        exact consumed_ne ht (lookup_some hrow).1 (PasswordResetToken.consume_ok.1 hc).2.1 hsame

theorem resetPassword_fate (hw : w.db.Fresh) (ht : w.db.committed.WellFormed g.unicode)
    (cmd : ResetPasswordCommand) (d : ResetDraws) :
    Fate w.db.committed (ResetHarm g faults cmd d w) (resetPassword g faults cmd d w) := by
  have hview : w.tables = w.db.committed := Session.view_fresh _ hw
  unfold resetPassword
  cases hp : PlainPassword.new g.unicode cmd.newPassword with
  | error e =>
    refine fate_calm (leaves_fresh hw) ?_
    rintro ⟨p, _, _, hp', -⟩
    simp [hp] at hp'
  | ok p =>
    rw [bind_ok (ofExcept_run _ _)]
    cases hft : faults .findByToken with
    | some x =>
      refine fate_port hw hft ?_
      rintro ⟨_, _, _, -, -, -, -, -, hno, -⟩
      simp [hft] at hno
    | none =>
      have hrun : findByToken faults (g.sha256 cmd.token) w =
          (.ok (w.db.committed.findByToken (g.sha256 cmd.token)), w) := by
        rw [← hview]
        exact query_run hft hw.2
      rw [bind_ok hrun]
      cases hf : w.db.committed.findByToken (g.sha256 cmd.token) with
      | none =>
        refine fate_calm (leaves_fresh hw) ?_
        rintro ⟨_, row, _, -, hrow, -⟩
        rw [Tables.findByToken, hrow] at hf
        simp at hf
      | some stored =>
        obtain ⟨row, hrow, rfl⟩ := findByToken_some hf
        simp only
        rw [bind_ok now_run]
        cases hc : row.toDomain.consume w.redis.now with
        | error e =>
          refine fate_calm (leaves_fresh hw) ?_
          rintro ⟨_, row', _, -, hrow', hc', -⟩
          rw [hrow, Option.some.injEq] at hrow'
          subst hrow'
          simp [hc] at hc'
        | ok token =>
          obtain rfl := consume_consumed hc
          rw [bind_ok (ofExcept_run _ _)]
          cases hfi : faults .findById with
          | some x =>
            refine fate_port hw hfi ?_
            rintro ⟨_, _, _, -, -, -, -, -, -, hno, -⟩
            simp [hfi] at hno
          | none =>
            obtain ⟨m, hm, hid⟩ := ht.owners row (lookup_some hrow).1
            obtain ⟨user, hfu, hd⟩ := WellFormed.findById ht hm
            have hrun : findById g faults (consumed row).toDomain.userId w = (.ok (some user), w) := by
              rw [← hfu, ← hview, hid]
              exact query_run hfi hw.2
            rw [bind_ok hrun]
            exact reset_rest_fate hw ht hp hrow hc hm hid hd hft hfi

end Reset

section Register
variable {g : GlobalContainer} {faults : Faults} {w : World}

theorem registerUser_fate (hw : w.db.Fresh) (cmd : RegisterUserCommand) (d : RegisterDraws) :
    Fate w.db.committed False (registerUser g faults cmd d w) := by
  unfold registerUser
  cases he : Email.new g.unicode cmd.email with
  | error e => exact fate_calm (leaves_fresh hw) id
  | ok email =>
    rw [bind_ok (ofExcept_run _ _)]
    cases hp : PlainPassword.new g.unicode cmd.password with
    | error e => exact fate_calm (leaves_fresh hw) id
    | ok p =>
      rw [bind_ok (ofExcept_run _ _)]
      cases hfault : faults .findByEmail with
      | some x => exact fate_port hw hfault id
      | none =>
        have hf : findByEmail g faults email w = (w.tables.findByEmail g.unicode email.value, w) :=
          query_run hfault hw.2
        cases hfound : w.tables.findByEmail g.unicode email.value with
        | error e =>
          rw [bind_error (hf.trans (by rw [hfound]))]
          exact fate_calm (leaves_fresh hw) id
        | ok found =>
          rw [bind_ok (hf.trans (by rw [hfound]))]
          cases found with
          | some user => exact fate_calm (leaves_fresh hw) id
          | none =>
            simp only
            rw [bind_ok now_run]
            cases hsu : faults .saveUser with
            | some x =>
              obtain ⟨e, w', hr, hl⟩ := flush_fails hw hsu (Tables.saveUser
                (⟨d.userId, email, g.hashpw cmd.password d.salt, true, w.redis.now⟩ : User g.unicode))
              rw [saveUser, hr]
              exact fate_calm hl id
            | none =>
              cases hs : w.tables.saveUser (⟨d.userId, email, g.hashpw cmd.password d.salt, true,
                  w.redis.now⟩ : User g.unicode) with
              | error e =>
                rw [saveUser, flush_error hsu hw.2 hs]
                exact fate_calm (leaves_aborted rfl rfl) id
              | ok stmt =>
                rw [saveUser, flush_ok hsu hw.2 hs]
                exact .succeeded id

end Register

/-- The requests that a fault leaves half done. -/
def Harm (g : GlobalContainer) (faults : Faults) (r : Request) (w : World) : Prop :=
  match r with
  | .requestPasswordReset email ip d =>
    RequestHarm g faults ⟨email, ip⟩ d { w with commands := 0 }
  | .resetPassword token newPassword ip d =>
    ResetHarm g faults ⟨token, newPassword, ip⟩ d { w with commands := 0 }
  | _ => False

def FreshRow (r : Request) (w : World) : Prop :=
  match r with
  | .requestPasswordReset _ _ d => ∀ row ∈ w.db.committed.passwordResetTokens, row.id ≠ d.tokenId
  | _ => True

theorem Fate.request {g : GlobalContainer} {faults : Faults} {r : Request} {w : World} {harm : Prop}
    {out : Except Exn Unit × World} {a : Answer} (h : Fate w.db.committed harm out)
    (hafter : after g faults r w = { out.2 with db := out.2.db.commit Statement.apply })
    (hok : ∀ x, out.1 = .ok x → answer g faults r w = a) (ha : a.failed = false)
    (herr : ∀ e, out.1 = .error e → (answer g faults r w).failed = true) :
    ((answer g faults r w).failed = true →
      (after g faults r w).db.committed.SameAccounts w.db.committed) ↔ ¬ harm := by
  rw [hafter]
  cases h with
  | failed leaves =>
    rw [herr _ rfl, ← leaves]
    exact ⟨fun h => h rfl, fun h _ => h⟩
  | succeeded calm =>
    rw [hok () rfl, ha]
    exact iff_of_true (fun h => by simp at h) calm

/-- A failed request leaves the account tables as they were, unless a fault hit a reset
or a reset request after its first flush. -/
theorem failed_request_keeps_accounts_iff (g : GlobalContainer) (faults : Faults) (r : Request)
    {w : World} (hw : w.db.Fresh) (ht : w.db.committed.WellFormed g.unicode) (hr : FreshRow r w) :
    ((answer g faults r w).failed = true →
      (after g faults r w).db.committed.SameAccounts w.db.committed) ↔ ¬ Harm g faults r w := by
  have haudit : auditOnly r = true → (((answer g faults r w).failed = true →
      (after g faults r w).db.committed.SameAccounts w.db.committed) ↔ ¬ False) := fun h =>
    iff_of_true (fun _ => after_sameAccounts g faults h hw) id
  cases r with
  | register email password d =>
    obtain ⟨hafter, hok, herr⟩ := serve_register g faults w email password d
    have hfate : Fate w.db.committed _ _ := @registerUser_fate g faults { w with commands := 0 } hw
      ⟨email, password⟩ d
    generalize registerUser g faults ⟨email, password⟩ d { w with commands := 0 } = out
      at hafter hok herr hfate
    exact hfate.request hafter hok rfl herr
  | requestPasswordReset email ip d =>
    obtain ⟨hafter, hok, herr⟩ := serve_requestReset g faults w email ip d
    have hfate : Fate w.db.committed _ _ := @requestPasswordReset_fate g faults
      { w with commands := 0 } hw ht ⟨email, ip⟩ d hr
    generalize requestPasswordReset g faults ⟨email, ip⟩ d { w with commands := 0 } = out
      at hafter hok herr hfate
    exact hfate.request hafter hok rfl herr
  | resetPassword token newPassword ip d =>
    obtain ⟨hafter, hok, herr⟩ := serve_reset g faults w token newPassword ip d
    have hfate : Fate w.db.committed _ _ := @resetPassword_fate g faults { w with commands := 0 } hw ht
      ⟨token, newPassword, ip⟩ d
    generalize resetPassword g faults ⟨token, newPassword, ip⟩ d { w with commands := 0 } = out
      at hafter hok herr hfate
    exact hfate.request hafter hok rfl herr
  | login email password device ip d => exact haudit rfl
  | refreshToken token ip d => exact haudit rfl
  | revokeSession header text ip d => exact haudit rfl
  | me header => exact haudit rfl

section Sample
open SampleContainer

def mailerDown : Faults := fun c => if c = .sendResetEmail then some .raises else none

theorem sampleReset_freshRow : FreshRow sampleResetRequest initialWorld := by
  intro row hrow
  exact absurd hrow List.not_mem_nil

theorem mailerDown_row : (after sample mailerDown sampleResetRequest
    initialWorld).db.committed.passwordResetTokens ≠ [] := by
  decide +kernel

theorem failed_request_keeps_accounts_iff_mailer :
    (answer sample mailerDown sampleResetRequest initialWorld).failed = true ∧
      Harm sample mailerDown sampleResetRequest initialWorld := by
  have hfailed : (answer sample mailerDown sampleResetRequest initialWorld).failed = true := by
    decide +kernel
  refine ⟨hfailed, ?_⟩
  by_contra hno
  exact mailerDown_row ((failed_request_keeps_accounts_iff sample mailerDown sampleResetRequest
    initialWorld_fresh initialWorld_wellFormed sampleReset_freshRow).2 hno hfailed).2

/-- The mail cannot be sent, the client sees an error, and the new reset row is committed. -/
theorem mailer_failure_commits_row :
    (answer sample mailerDown sampleResetRequest initialWorld).failed = true ∧
      ¬ (after sample mailerDown sampleResetRequest initialWorld).db.committed.SameAccounts
        initialWorld.db.committed :=
  ⟨by decide +kernel, fun h => mailerDown_row h.2⟩

end Sample

end AuthService.RequestFaults
