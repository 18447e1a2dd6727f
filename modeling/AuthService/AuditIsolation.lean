import AuthService.AccountEffects
import AuthService.RequestFaults

set_option autoImplicit false

/-! A request whose audit record fails, next to the same request whose audit record succeeds. -/
namespace AuthService.AuditIsolation
open Uuids PythonText DomainModel KeyedRows AccountTables Transactions FallibleState Fallible
open RedisSessions RequestPorts RedisTokenStore CommandHandlers GraphqlResolvers HandlerRuns
open SessionDiscipline AccountEffects ServiceRuns RequestFaults

/-- The flush of `AuditLogRepository.record` fails. -/
def auditDown : Faults := fun c => if c = .record then some .rollsBack else none

theorem quiet_auditDown : Quiet auditDown := fun _ hc => if_neg hc

def shown (w : World) : Redis × List (String × String) × List Claims × String × ℕ :=
  (w.redis, w.sentEmails, w.signed, w.dummyHash, w.commands)

section Same
variable {f f' : Faults} (h : Quiet f) (h' : Quiet f')
include h h'

theorem same_port {α : Type} {c : PortCall} (hc : c ≠ .record) (m : AuthM α) :
    port f c m = port f' c m := by
  funext w
  simp only [port, h c hc, h' c hc]

theorem same_query {α : Type} {c : PortCall} (hc : c ≠ .record) (q : Tables → Except Exn α) :
    query f c q = query f' c q :=
  same_port h h' hc _

theorem same_flush {c : PortCall} (hc : c ≠ .record) (q : Tables → Except Exn Statement) :
    flush f c q = flush f' c q :=
  same_port h h' hc _

theorem same_command {α : Type} (q : Redis → α × Redis) : command f q = command f' q := by
  funext w
  simp only [command, h _ (by simp : PortCall.redis w.commands ≠ .record),
    h' _ (by simp : PortCall.redis w.commands ≠ .record)]

theorem same_sendResetEmail (email token : String) :
    sendResetEmail f email token = sendResetEmail f' email token := by
  funext w
  simp only [sendResetEmail, h _ (by simp : PortCall.sendResetEmail ≠ .record),
    h' _ (by simp : PortCall.sendResetEmail ≠ .record)]

theorem same_getSession (sid : UUID) : getSession f sid = getSession f' sid :=
  same_command h h' _

theorem same_getSessionByRefreshToken (token : String) :
    getSessionByRefreshToken f token = getSessionByRefreshToken f' token := by
  simp only [getSessionByRefreshToken, same_command h h']

theorem same_rotateSession (g : GlobalContainer) (sid : UUID) (old jti token : String) (a r : ℕ) :
    rotateSession g f sid old jti token a r = rotateSession g f' sid old jti token a r := by
  simp only [rotateSession, same_getSession h h', same_command h h']

theorem same_revokeSession (sid : UUID) :
    RedisTokenStore.revokeSession f sid = RedisTokenStore.revokeSession f' sid := by
  simp only [RedisTokenStore.revokeSession, same_getSession h h', same_command h h']

theorem same_revokeEach (ids : List UUID) : revokeEach f ids = revokeEach f' ids := by
  induction ids with
  | nil => rfl
  | cons sid rest ih => simp only [revokeEach, same_revokeSession h h', ih]

theorem same_revokeAll (uid : UUID) : revokeAllUserSessions f uid = revokeAllUserSessions f' uid := by
  simp only [revokeAllUserSessions, same_command h h', same_revokeEach h h']

end Same

section Handlers
variable {g : GlobalContainer} {f f' : Faults}

theorem agree_tryRecord (dto : AuditEventDTO) : Agree shown (tryRecord f dto) (tryRecord f' dto) := by
  intro w
  rw [tryRecord_run, tryRecord_run]
  simp [shown]

theorem agree_audited {α : Type} (dto : ℕ → AuditEventDTO) {k : AuthM α} (hk : Blind shown k) :
    Agree shown (now >>= fun t => tryRecord f (dto t) >>= fun _ => k)
      (now >>= fun t => tryRecord f' (dto t) >>= fun _ => k) :=
  Agree.after (fun t => (agree_tryRecord (dto t)).bind (fun _ => hk))

theorem agree_record (dto : ℕ → AuditEventDTO) :
    Agree shown (now >>= fun t => tryRecord f (dto t)) (now >>= fun t => tryRecord f' (dto t)) :=
  Agree.after (fun t => agree_tryRecord (dto t))

theorem agree_loginFailed {userId : Option UUID} {ip : Option String} {reason : String}
    {eventId : UUID} (e : Exn) :
    Agree shown
      (recordLoginFailed f userId ip reason eventId >>= fun _ => (raise e : AuthM TokenPairDTO))
      (recordLoginFailed f' userId ip reason eventId >>= fun _ => raise e) :=
  Agree.bind (agree_record _) (fun _ => Blind.raise e)

variable (h : Quiet f) (h' : Quiet f')
include h h'

theorem same_registerUser (cmd : RegisterUserCommand) (d : RegisterDraws) :
    registerUser g f cmd d = registerUser g f' cmd d := by
  simp only [registerUser, findByEmail, saveUser,
    same_query h h' (by simp : PortCall.findByEmail ≠ .record),
    same_flush h h' (by simp : PortCall.saveUser ≠ .record)]

theorem agree_authenticateUser (cmd : AuthenticateUserCommand) (d : LoginDraws) :
    Agree shown (authenticateUser g f cmd d) (authenticateUser g f' cmd d) := by
  unfold authenticateUser
  refine Agree.after (fun email => ?_)
  rw [findByEmail, same_query h h' (by simp)]
  refine Agree.after (fun found => ?_)
  cases found with
  | none => exact Agree.after (fun _ => agree_loginFailed _)
  | some user =>
    simp only
    split_ifs
    · exact agree_loginFailed _
    · exact agree_loginFailed _
    · refine Agree.after (fun pair => ?_)
      simp only [createSession, same_command h h']
      exact Agree.after (fun _ => agree_audited _ (Blind.pure _))

theorem agree_refreshToken (cmd : RefreshTokenCommand) (d : RefreshDraws) :
    Agree shown (refreshToken g f cmd d) (refreshToken g f' cmd d) := by
  unfold refreshToken
  rw [same_getSessionByRefreshToken h h']
  refine Agree.after (fun data => ?_)
  cases data with
  | none => exact Agree.refl _
  | some ids =>
    obtain ⟨a, b⟩ := ids
    simp only
    cases UUID.parse a with
    | none => exact Agree.refl _
    | some u =>
      cases UUID.parse b with
      | none => exact Agree.refl _
      | some s =>
        refine Agree.after (fun pair => ?_)
        simp only [same_rotateSession h h']
        exact Agree.after (fun _ => agree_audited _ (Blind.pure _))

theorem agree_revokeSessionHandler (cmd : RevokeSessionCommand) (d : RevokeDraws) :
    Agree shown (revokeSessionHandler f cmd d) (revokeSessionHandler f' cmd d) := by
  simp only [revokeSessionHandler, same_getSession h h', same_revokeSession h h']
  exact Agree.after (fun data => Agree.after (fun _ => agree_record _))

theorem agree_requestPasswordReset (cmd : RequestPasswordResetCommand) (d : RequestResetDraws) :
    Agree shown (requestPasswordReset g f cmd d) (requestPasswordReset g f' cmd d) := by
  unfold requestPasswordReset
  refine Agree.after (fun email => ?_)
  rw [findByEmail, same_query h h' (by simp)]
  refine Agree.after (fun found => ?_)
  cases found with
  | none => exact Agree.refl _
  | some user =>
    simp only [deleteAllByUserId, saveToken, same_sendResetEmail h h',
      same_flush h h' (by simp : PortCall.deleteAllByUserId ≠ .record),
      same_flush h h' (by simp : PortCall.saveToken ≠ .record)]
    refine Agree.after (fun _ => Agree.after (fun _ => Agree.after
      (fun _ => Agree.after (fun _ => ?_))))
    exact agree_record _

theorem agree_resetPassword (cmd : ResetPasswordCommand) (d : ResetDraws) :
    Agree shown (resetPassword g f cmd d) (resetPassword g f' cmd d) := by
  unfold resetPassword
  refine Agree.after (fun p => ?_)
  rw [findByToken, same_query h h' (by simp)]
  refine Agree.after (fun found => ?_)
  cases found with
  | none => exact Agree.refl _
  | some stored =>
    refine Agree.after (fun time => Agree.after (fun token => ?_))
    rw [findById, same_query h h' (by simp)]
    refine Agree.after (fun found => ?_)
    cases found with
    | none => exact Agree.refl _
    | some user =>
      simp only [saveUser, saveToken, same_revokeAll h h',
        same_flush h h' (by simp : PortCall.saveUser ≠ .record),
        same_flush h h' (by simp : PortCall.saveToken ≠ .record)]
      exact Agree.after (fun _ => Agree.after (fun _ => Agree.after (fun _ => agree_record _)))

end Handlers

section Resolvers
variable {g : GlobalContainer} {f f' : Faults}

theorem blind_loginExcept (e : Exn) : Blind shown (loginExcept e) := by
  cases e <;> exact Blind.raise _

theorem blind_refreshExcept (e : Exn) : Blind shown (refreshExcept e) := by
  cases e <;> exact Blind.raise _

theorem blind_requestResetExcept (e : Exn) : Blind shown (requestResetExcept e) := by
  cases e <;> first | exact Blind.pure _ | exact Blind.raise _

theorem blind_resetExcept (e : Exn) : Blind shown (resetExcept e) := by
  cases e <;> first | exact Blind.pure _ | exact Blind.raise _

variable (h : Quiet f) (h' : Quiet f')
include h h'

theorem agree_revoke (header text : String) (ip : Option String) (d : RevokeDraws) :
    Agree shown (revoke g f header text ip d) (revoke g f' header text ip d) := by
  unfold revoke
  cases bearerToken header with
  | none => exact Agree.refl _
  | some token =>
    refine Agree.after (fun decoded => ?_)
    cases decoded with
    | none => exact Agree.refl _
    | some claims =>
      simp only
      split_ifs
      · exact Agree.refl _
      · rw [isAccessJtiValid, same_command h h']
        refine Agree.after (fun valid => ?_)
        split_ifs
        · exact Agree.refl _
        · cases UUID.parse text with
          | none => exact Agree.refl _
          | some sid =>
            simp only [same_getSession h h']
            refine Agree.after (fun data => ?_)
            cases data with
            | none => exact Agree.refl _
            | some hash =>
              simp only
              split_ifs
              · exact Agree.refl _
              · exact ((agree_revokeSessionHandler h h' _ _).bind (fun _ => Blind.pure _)).handle
                  (fun _ => Blind.pure _)

theorem same_me (header : String) : me g f header = me g f' header := by
  simp only [me, isAccessJtiValid, findById, same_command h h',
    same_query h h' (by simp : PortCall.findById ≠ .record)]

theorem agree_resolve (r : Request) : Agree shown (resolve g f r) (resolve g f' r) := by
  cases r with
  | register email password d =>
    rw [resolve, resolve, register, register, same_registerUser h h']
    exact Agree.refl _
  | login email password device ip d =>
    rw [resolve, resolve, login, login]
    exact ((agree_authenticateUser h h' ⟨email, password, device, ip⟩ d).bind
      (fun _ => Blind.pure _)).handle blind_loginExcept
  | refreshToken token ip d =>
    rw [resolve, resolve, refresh, refresh]
    exact ((agree_refreshToken h h' ⟨token, ip⟩ d).bind (fun _ => Blind.pure _)).handle
      blind_refreshExcept
  | revokeSession header text ip d => exact agree_revoke h h' header text ip d
  | requestPasswordReset email ip d =>
    rw [resolve, resolve, requestReset, requestReset]
    exact ((agree_requestPasswordReset h h' ⟨email, ip⟩ d).bind (fun _ => Blind.pure _)).handle
      blind_requestResetExcept
  | resetPassword token password ip d =>
    rw [resolve, resolve, reset, reset]
    exact ((agree_resetPassword h h' ⟨token, password, ip⟩ d).bind (fun _ => Blind.pure _)).handle
      blind_resetExcept
  | me header =>
    rw [resolve, resolve, same_me h h']
    exact Agree.refl _

/-- The answer and all of the world but the database do not depend on the audit. -/
theorem agree_request (r : Request) (w : World) :
    answer g f r w = answer g f' r w ∧ shown (after g f r w) = shown (after g f' r w) := by
  have hagree := agree_resolve (g := g) h h' r { w with commands := 0 }
  rw [answer_eq, answer_eq, after_eq, after_eq]
  generalize resolve g f r { w with commands := 0 } = out at hagree ⊢
  generalize resolve g f' r { w with commands := 0 } = out' at hagree ⊢
  exact ⟨congrArg reported hagree.1, hagree.2⟩

end Resolvers

section Accounts
variable {g : GlobalContainer} {w : World}

theorem requestReset_auditDown (hw : w.db.Fresh) (cmd : RequestPasswordResetCommand)
    (d : RequestResetDraws) : Leaves w.db.committed (requestPasswordReset g auditDown cmd d w).2 := by
  have hout := requestPasswordReset_outcome (g := g) (w := w) quiet_auditDown hw.2 cmd d
  generalize requestPasswordReset g auditDown cmd d w = out at hout ⊢
  cases hout with
  | refused _ => exact leaves_fresh hw
  | rejected _ _ _ => exact leaves_aborted rfl rfl
  | issued _ _ _ =>
    rw [audited_of_rollback rfl]
    exact leaves_aborted rfl rfl

theorem reset_auditDown (hw : w.db.Fresh) (cmd : ResetPasswordCommand) (d : ResetDraws) :
    Leaves w.db.committed (resetPassword g auditDown cmd d w).2 := by
  have hout := resetPassword_outcome (g := g) (w := w) quiet_auditDown hw.2 cmd d
  generalize resetPassword g auditDown cmd d w = out at hout ⊢
  cases hout with
  | weak _ => exact leaves_fresh hw
  | missing _ _ => exact leaves_fresh hw
  | unusable _ _ _ => exact leaves_fresh hw
  | orphan _ _ _ _ => exact leaves_fresh hw
  | rejected _ _ _ _ _ committed aborted => exact leaves_aborted committed aborted
  | completed _ _ _ _ _ _ =>
    rw [audited_of_rollback rfl]
    exact leaves_aborted rfl rfl

/-- The password is acceptable and the token is stored, unexpired and unused. -/
def ResetWrites (g : GlobalContainer) (cmd : ResetPasswordCommand) (w : World) : Prop :=
  ∃ p row, PlainPassword.new g.unicode cmd.newPassword = .ok p ∧
    lookup PasswordResetTokenModel.token (g.sha256 cmd.token) w.db.committed.passwordResetTokens =
      some row ∧ (w.redis.now : ℤ) < row.expiresAt ∧ row.used = false

theorem requestReset_leaves_iff (hw : w.db.Fresh) (ht : w.db.committed.WellFormed g.unicode)
    (cmd : RequestPasswordResetCommand) (d : RequestResetDraws)
    (hid : ∀ row ∈ w.db.committed.passwordResetTokens, row.id ≠ d.tokenId) :
    Leaves w.db.committed (requestPasswordReset g noFaults cmd d w).2 ↔ ¬ RequestWrites g cmd d w := by
  have heff := requestPasswordReset_effect hw ht cmd d hid
  generalize requestPasswordReset g noFaults cmd d w = out at heff ⊢
  cases heff with
  | refused useless same =>
    refine iff_of_true ?_ useless
    rw [Leaves, same]
    exact Tables.SameAccounts.refl _
  | @issued _ m _ _ _ useful _ alive users tokens =>
    refine iff_of_false ?_ (not_not_intro useful)
    rw [leaves_alive alive, Tables.SameAccounts, tokens]
    rintro ⟨-, hsame⟩
    have hmem : toResetTokenModel (requestedToken g d m.id w.redis.now) ∈
        w.db.committed.passwordResetTokens := by
      rw [← hsame]
      exact List.mem_append_right _ (List.mem_singleton_self _)
    exact hid _ hmem rfl

theorem reset_leaves_iff (hw : w.db.Fresh) (ht : w.db.committed.WellFormed g.unicode)
    (cmd : ResetPasswordCommand) (d : ResetDraws) :
    Leaves w.db.committed (resetPassword g noFaults cmd d w).2 ↔ ¬ ResetWrites g cmd w := by
  have heff := resetPassword_effect hw ht cmd d
  generalize resetPassword g noFaults cmd d w = out at heff ⊢
  cases heff with
  | weak password =>
    refine iff_of_true (leaves_fresh hw) ?_
    rintro ⟨p, row, hp, -⟩
    simp [password] at hp
  | missing absent =>
    refine iff_of_true (leaves_fresh hw) ?_
    rintro ⟨p, row, -, hrow, -⟩
    simp [absent] at hrow
  | refused found unusable =>
    refine iff_of_true (leaves_fresh hw) ?_
    rintro ⟨p, row', -, hrow, hnow, hfree⟩
    rw [found, Option.some.injEq] at hrow
    subst hrow
    rw [PasswordResetToken.consume_ok.2 ⟨hnow, hfree, rfl⟩] at unusable
    simp at unusable
  | @done row _ p password found usable alive users tokens =>
    obtain ⟨hnow, hfree, -⟩ := PasswordResetToken.consume_ok.1 usable
    refine iff_of_false ?_ (not_not_intro ⟨p, row, password, found, hnow, hfree⟩)
    rw [leaves_alive alive, Tables.SameAccounts, tokens]
    rintro ⟨-, hsame⟩
    obtain ⟨hmem, -⟩ := lookup_some found
    exact consumed_ne ht hmem hfree hsame

end Accounts

def WritesBeforeAudit (g : GlobalContainer) (r : Request) (w : World) : Prop :=
  match r with
  | .requestPasswordReset email ip d => RequestWrites g ⟨email, ip⟩ d w
  | .resetPassword token newPassword ip _ => ResetWrites g ⟨token, newPassword, ip⟩ w
  | _ => False

/-- What a request leaves in the account tables is what its resolver leaves. -/
theorem after_leaves {g : GlobalContainer} {f : Faults} {r : Request} {w w' : World}
    (h : after g f r w = { w' with db := w'.db.commit Statement.apply }) :
    (after g f r w).db.committed.SameAccounts w.db.committed ↔ Leaves w.db.committed w' := by
  rw [h]
  rfl

/-- A failing audit record goes unnoticed, unless it takes a reset or a reset request with it. -/
theorem audit_failure_isolated_iff (g : GlobalContainer) (r : Request) {w : World} (hw : w.db.Fresh)
    (ht : w.db.committed.WellFormed g.unicode) (hr : FreshRow r w) :
    (answer g auditDown r w = answer g noFaults r w ∧
      (after g auditDown r w).redis = (after g noFaults r w).redis ∧
      (after g auditDown r w).db.committed.SameAccounts (after g noFaults r w).db.committed) ↔
    ¬ WritesBeforeAudit g r w := by
  obtain ⟨hanswer, hshown⟩ := agree_request (g := g) quiet_auditDown quiet_noFaults r w
  have hredis : (after g auditDown r w).redis = (after g noFaults r w).redis :=
    congrArg Prod.fst hshown
  rw [and_iff_right hanswer, and_iff_right hredis]
  have haudit : auditOnly r = true → ((after g auditDown r w).db.committed.SameAccounts
      (after g noFaults r w).db.committed ↔ ¬ False) := fun h =>
    iff_of_true ((after_sameAccounts g auditDown h hw).trans
      (after_sameAccounts g noFaults h hw).symm) id
  cases r with
  | register email password d =>
    obtain ⟨hdown, -⟩ := serve_register g auditDown w email password d
    obtain ⟨hok, -⟩ := serve_register g noFaults w email password d
    rw [hdown, hok, same_registerUser quiet_auditDown quiet_noFaults]
    exact iff_of_true (Tables.SameAccounts.refl _) id
  | requestPasswordReset email ip d =>
    obtain ⟨hdown, -⟩ := serve_requestReset g auditDown w email ip d
    obtain ⟨hok, -⟩ := serve_requestReset g noFaults w email ip d
    have hsame := (after_leaves hdown).2 (@requestReset_auditDown g { w with commands := 0 } hw _ d)
    have hiff := @requestReset_leaves_iff g { w with commands := 0 } hw ht ⟨email, ip⟩ d hr
    rw [hsame.iff, after_leaves hok]
    exact hiff
  | resetPassword token newPassword ip d =>
    obtain ⟨hdown, -⟩ := serve_reset g auditDown w token newPassword ip d
    obtain ⟨hok, -⟩ := serve_reset g noFaults w token newPassword ip d
    have hsame := (after_leaves hdown).2 (@reset_auditDown g { w with commands := 0 } hw _ d)
    have hiff := @reset_leaves_iff g { w with commands := 0 } hw ht ⟨token, newPassword, ip⟩ d
    rw [hsame.iff, after_leaves hok]
    exact hiff
  | login email password device ip d => exact haudit rfl
  | refreshToken token ip d => exact haudit rfl
  | revokeSession header text ip d => exact haudit rfl
  | me header => exact haudit rfl

section Sample
open SampleContainer

theorem auditDown_differs :
    ¬ (after sample auditDown sampleResetRequest initialWorld).db.committed.SameAccounts
      (after sample noFaults sampleResetRequest initialWorld).db.committed := by
  intro h
  have hdown : (after sample auditDown sampleResetRequest
      initialWorld).db.committed.passwordResetTokens = [] := by
    decide +kernel
  have hok : (after sample noFaults sampleResetRequest
      initialWorld).db.committed.passwordResetTokens ≠ [] := by
    decide +kernel
  exact hok (h.2.symm.trans hdown)

theorem audit_failure_isolated_iff_reset :
    WritesBeforeAudit sample sampleResetRequest initialWorld := by
  by_contra hno
  exact auditDown_differs ((audit_failure_isolated_iff sample sampleResetRequest initialWorld_fresh
    initialWorld_wellFormed sampleReset_freshRow).2 hno).2.2

/-- The failing audit record takes the reset row with it, and the client is told of success. -/
theorem audit_failure_loses_row :
    answer sample auditDown sampleResetRequest initialWorld =
        .operationResult true "If this email is registered, a reset link has been sent" ∧
      ¬ (after sample auditDown sampleResetRequest initialWorld).db.committed.SameAccounts
        (after sample noFaults sampleResetRequest initialWorld).db.committed :=
  ⟨by decide +kernel, auditDown_differs⟩

end Sample

end AuthService.AuditIsolation
