import AuthService.RequestTriples

set_option autoImplicit false

/-! A request that raises nothing leaves its transaction alive, unless its audit insert rolled
it back: no other failure is swallowed. -/
namespace AuthService.LiveTransactions
open Uuids PythonText DomainModel AccountTables Transactions FallibleState Fallible FallibleTriples
open RedisSessions RequestPorts RedisTokenStore CommandHandlers GraphqlResolvers RequestTriples

def Alive (w : World) : Prop := w.db.aborted = false

/-- The exceptions that resolvers turn into an answer. -/
def answered : Exn → Bool
  | .invalidEmailError _ => true
  | .weakPasswordError _ => true
  | .userAlreadyExistsError _ => true
  | .userNotFoundError _ => true
  | .tokenExpiredError _ => true
  | .tokenAlreadyUsedError _ => true
  | .tokenNotFoundError _ => true
  | .invalidTokenError _ => true
  | _ => false

/-- Only an exception that no resolver answers can leave a dead transaction behind. -/
abbrev Clean {α : Type} (m : AuthM α) : Prop :=
  Triple Alive m (fun _ => Alive) (fun e w => answered e = true → Alive w)

section Ports
variable {g : GlobalContainer} {faults : Faults} {α β : Type}

theorem clean_of_stays {m : AuthM α} (h : Stays Alive m) : Clean m :=
  h.consequence (fun _ => id) (fun _ _ => id) (fun _ _ hw _ => hw)

theorem stays_silent {m : AuthM α} (h : ∀ w, (m w).2.db = w.db) : Stays Alive m := by
  refine .intro (fun w a w' hw hm => ?_) (fun w e w' hw hm => ?_)
  all_goals
    have hdb := h w
    rw [hm] at hdb
    rw [Alive, hdb]
    exact hw

theorem stays_redis (f : Redis → α × Redis) : Stays Alive (command faults f) := by
  refine stays_silent fun w => ?_
  unfold command
  cases faults (.redis w.commands) <;> rfl

theorem clean_pure (a : α) : Clean (pure a : AuthM α) := clean_of_stays (stays_pure a)

theorem clean_raise (e : Exn) : Clean (raise e : AuthM α) := clean_of_stays (stays_raise e)

theorem clean_ofExcept (x : Except Exn α) : Clean (ofExcept x : AuthM α) :=
  clean_of_stays (stays_ofExcept x)

theorem clean_bind {m : AuthM α} {f : α → AuthM β} (hm : Clean m) (hf : ∀ a, Clean (f a)) :
    Clean (m >>= f) :=
  Triple.bind hm hf

/-- No exception that a resolver answers comes from a failed call. -/
theorem port_answered {I J : World → Prop} {Q : α → World → Prop} {c : PortCall} {m : AuthM α}
    (hm : Triple I m Q (fun e w => answered e = true → J w)) :
    Triple I (port faults c m) Q (fun e w => answered e = true → J w) := by
  refine ⟨fun w hw => ?_⟩
  unfold port
  cases faults c with
  | some f => cases f <;> exact fun h => nomatch h
  | none =>
    simp only
    split_ifs
    · exact fun h => nomatch h
    · exact hm.run w hw

theorem query_answered {I : World → Prop} {c : PortCall} {f : Tables → Except Exn α} :
    Triple I (query faults c f) (fun _ => I) (fun e w => answered e = true → I w) :=
  port_answered (.intro (fun _ _ _ hw hr => (Prod.mk.inj hr).2 ▸ hw)
    (fun _ _ _ hw hr _ => (Prod.mk.inj hr).2 ▸ hw))

theorem flush_answered {I J : World → Prop} {Q : World → Prop} {c : PortCall}
    {f : Tables → Except Exn Statement} (hf : ∀ t e, f t = .error e → answered e = false)
    (hQ : ∀ w stmt, I w → Q { w with db := w.db.flush [stmt] }) :
    Triple I (flush faults c f) (fun _ => Q) (fun e w => answered e = true → J w) := by
  refine port_answered ⟨fun w hw => ?_⟩
  cases h : f w.tables with
  | ok stmt => exact hQ w stmt hw
  | error e =>
    intro he
    rw [hf _ _ h] at he
    cases he

theorem clean_query {c : PortCall} {f : Tables → Except Exn α} : Clean (query faults c f) :=
  query_answered

theorem clean_flush {c : PortCall} {f : Tables → Except Exn Statement}
    (hf : ∀ t e, f t = .error e → answered e = false) : Clean (flush faults c f) :=
  flush_answered hf (fun _ _ hw => hw)

theorem saveUser_unanswered {u : Unicode} {user : User u} {t : Tables} {e : Exn}
    (h : t.saveUser user = .error e) : answered e = false := by
  unfold Tables.saveUser Tables.checkUser at h
  simp only at h
  split_ifs at h <;> cases h <;> rfl

theorem saveResetToken_unanswered {token : PasswordResetToken} {t : Tables} {e : Exn}
    (h : t.saveResetToken token = .error e) : answered e = false := by
  unfold Tables.saveResetToken Tables.checkResetToken at h
  simp only at h
  split_ifs at h <;> cases h <;> rfl

theorem audited_alive {w : World} {dto : AuditEventDTO} (h : Alive w)
    (hrecord : faults .record ≠ some .rollsBack) :
    Alive (w.audited faults dto) ∧
      (w.audited faults dto).tables.users = w.tables.users ∧
      (w.audited faults dto).tables.passwordResetTokens = w.tables.passwordResetTokens := by
  cases hc : faults .record with
  | none =>
    rw [audited_of_success hc h, HandlerRuns.tables_flush]
    exact ⟨h, rfl, rfl⟩
  | some x =>
    cases x with
    | rollsBack => exact absurd hc hrecord
    | raises =>
      rw [audited_of_raise hc]
      exact ⟨h, rfl, rfl⟩

theorem stays_revokes (sid : UUID) : Stays Alive (revokeSession faults sid) := by
  refine stays_bind (stays_redis _) (fun data => ?_)
  cases data with
  | none => exact stays_pure _
  | some h => exact stays_redis _

theorem stays_revokesEach (ids : List UUID) : Stays Alive (revokeEach faults ids) := by
  induction ids with
  | nil => exact stays_pure _
  | cons sid rest ih => exact stays_bind (stays_revokes sid) (fun _ => ih)

theorem stays_revokesAll (uid : UUID) : Stays Alive (revokeAllUserSessions faults uid) :=
  stays_bind (stays_redis _) (fun _ => stays_bind (stays_redis _) (fun _ => stays_revokesEach _))

end Ports

section Requests
variable {g : GlobalContainer} {faults : Faults} (hrecord : faults .record ≠ some .rollsBack)

section Audited
include hrecord

theorem stays_audit (dto : AuditEventDTO) : Stays Alive (tryRecord faults dto) :=
  ⟨fun w hw => by
    rw [tryRecord_run]
    exact (audited_alive hw hrecord).1⟩

theorem clean_recordLoginFailed {userId : Option UUID} {ip : Option String} {reason : String}
    {eventId : UUID} : Clean (recordLoginFailed faults userId ip reason eventId) :=
  clean_of_stays (stays_bind stays_now (fun _ => stays_audit hrecord _))

theorem clean_authenticateUser (cmd : AuthenticateUserCommand) (d : LoginDraws) :
    Clean (authenticateUser g faults cmd d) := by
  refine clean_bind (clean_ofExcept _) (fun email => ?_)
  refine clean_bind clean_query (fun found => ?_)
  cases found with
  | none =>
    refine clean_bind (clean_of_stays (stays_silent fun w => ?_)) (fun _ => ?_)
    · change (if w.dummyHash = "" then _ else w : World).db = w.db
      split_ifs <;> rfl
    · exact clean_bind (clean_recordLoginFailed hrecord) (fun _ => clean_raise _)
  | some user =>
    simp only
    split_ifs
    · exact clean_bind (clean_recordLoginFailed hrecord) (fun _ => clean_raise _)
    · exact clean_bind (clean_recordLoginFailed hrecord) (fun _ => clean_raise _)
    · refine clean_bind (clean_of_stays (stays_silent fun _ => rfl)) (fun _ => ?_)
      refine clean_of_stays (stays_bind (stays_redis _) (fun _ => ?_))
      exact stays_bind stays_now (fun _ => stays_bind (stays_audit hrecord _) (fun _ => stays_pure _))

theorem clean_login (email password : String) (device ip : Option String) (d : LoginDraws) :
    Clean (login g faults email password device ip d) := by
  refine .handle (clean_bind (clean_authenticateUser hrecord _ _) (fun _ => clean_pure _))
    (fun e => ?_)
  cases e <;> first
    | exact .raise _ (fun _ h => h)
    | exact .raise _ (fun _ _ h => nomatch h)

theorem stays_refreshes (token : String) (ip : Option String) (d : RefreshDraws) :
    Stays Alive (refresh g faults token ip d) := by
  refine stays_handle (stays_bind (stays_bind ?_ (fun data => ?_)) (fun _ => stays_pure _))
    (fun e => ?_)
  · refine stays_bind (stays_redis _) (fun raw => ?_)
    cases raw with
    | none => exact stays_pure _
    | some raw =>
      cases hp : splitColon raw with
      | none => simp only [hp]; exact stays_raise _
      | some parts => simp only [hp]; exact stays_pure _
  · cases data with
    | none => exact stays_raise _
    | some ids =>
      obtain ⟨u, s⟩ := ids
      simp only
      cases UUID.parse u with
      | none => exact stays_raise _
      | some uid =>
        cases UUID.parse s with
        | none => exact stays_raise _
        | some sid =>
          refine stays_bind (stays_silent fun _ => rfl) (fun _ => stays_bind ?_ (fun _ => ?_))
          · refine stays_bind (stays_redis _) (fun data => ?_)
            cases data with
            | none => exact stays_raise _
            | some h =>
              cases hu : h.userId with
              | none => simp only [hu]; exact stays_raise _
              | some uid => simp only [hu]; exact stays_redis _
          · exact stays_bind stays_now
              (fun _ => stays_bind (stays_audit hrecord _) (fun _ => stays_pure _))
  · cases e <;> exact stays_raise _

theorem stays_revokesOwn (header sessionId : String) (ip : Option String) (d : RevokeDraws) :
    Stays Alive (revoke g faults header sessionId ip d) := by
  unfold revoke
  cases bearerToken header with
  | none => exact stays_pure _
  | some token =>
    refine stays_bind stays_tryDecode (fun decoded => ?_)
    cases decoded with
    | none => exact stays_pure _
    | some claims =>
      simp only
      split_ifs
      · exact stays_pure _
      · refine stays_bind (stays_redis _) (fun valid => ?_)
        split_ifs
        · exact stays_pure _
        · cases UUID.parse sessionId with
          | none => exact stays_raise _
          | some sid =>
            refine stays_bind (stays_redis _) (fun data => ?_)
            cases data with
            | none => exact stays_pure _
            | some h =>
              simp only
              split_ifs
              · exact stays_pure _
              · refine stays_handle (stays_bind ?_ (fun _ => stays_pure _)) (fun _ => stays_pure _)
                refine stays_bind (stays_redis _) (fun _ => stays_bind (stays_revokes _) (fun _ => ?_))
                exact stays_bind stays_now (fun _ => stays_audit hrecord _)

theorem clean_requestReset (email : String) (ip : Option String) (d : RequestResetDraws) :
    Clean (requestReset g faults email ip d) := by
  refine .handle (clean_bind ?_ (fun _ => clean_pure _)) (fun e => ?_)
  · refine clean_bind (clean_ofExcept _) (fun address => clean_bind clean_query (fun found => ?_))
    cases found with
    | none => exact clean_raise _
    | some user =>
      refine clean_bind (clean_flush fun _ _ h => nomatch h) (fun _ => ?_)
      refine clean_bind (clean_of_stays stays_now) (fun _ => ?_)
      refine clean_bind (clean_flush fun _ _ => saveResetToken_unanswered) (fun _ => ?_)
      refine clean_of_stays (stays_bind (stays_silent fun w => ?_) (fun _ => ?_))
      · unfold sendResetEmail
        cases faults .sendResetEmail <;> rfl
      · exact stays_bind stays_now (fun _ => stays_audit hrecord _)
  · cases e <;> first
      | exact .pure _ (fun _ h => h rfl)
      | exact .raise _ (fun _ h => h)

theorem clean_reset (token newPassword : String) (ip : Option String) (d : ResetDraws) :
    Clean (reset g faults token newPassword ip d) := by
  refine .handle (clean_bind ?_ (fun _ => clean_pure _)) (fun e => ?_)
  · refine clean_bind (clean_ofExcept _) (fun _ => clean_bind clean_query (fun found => ?_))
    cases found with
    | none => exact clean_raise _
    | some stored =>
      refine clean_bind (clean_of_stays stays_now) (fun _ => ?_)
      refine clean_bind (clean_ofExcept _) (fun _ => clean_bind clean_query (fun found => ?_))
      cases found with
      | none => exact clean_raise _
      | some user =>
        refine clean_bind (clean_flush fun _ _ => saveUser_unanswered) (fun _ => ?_)
        refine clean_bind (clean_flush fun _ _ => saveResetToken_unanswered) (fun _ => ?_)
        refine clean_of_stays (stays_bind (stays_revokesAll _) (fun _ => ?_))
        exact stays_bind stays_now (fun _ => stays_audit hrecord _)
  · cases e <;> first
      | exact .pure _ (fun _ h => h rfl)
      | exact .raise _ (fun _ h => h)

end Audited

theorem clean_register (email password : String) (d : RegisterDraws) :
    Clean (register g faults email password d) := by
  refine .handle (clean_bind ?_ (fun _ => clean_pure _)) (fun e => ?_)
  · refine clean_bind (clean_ofExcept _) (fun _ => clean_bind (clean_ofExcept _) (fun _ => ?_))
    refine clean_bind clean_query (fun existing => ?_)
    cases existing with
    | some _ => exact clean_raise _
    | none =>
      exact clean_bind (clean_of_stays stays_now)
        (fun _ => clean_flush fun _ _ => saveUser_unanswered)
  · cases e <;> first
      | exact .pure _ (fun _ h => h rfl)
      | exact .raise _ (fun _ h => h)

include hrecord in
/-- A resolver that returns leaves the transaction alive. -/
theorem resolve_alive {r : Request} {w w' : World} {a : Answer} (hw : Alive w)
    (h : resolve g faults r w = (.ok a, w')) (hme : ∀ header, r ≠ .me header) : Alive w' := by
  have hclean : Clean (resolve g faults r) := by
    cases r with
    | register email password d => exact clean_register _ _ _
    | login email password device ip d => exact clean_login hrecord _ _ _ _ _
    | refreshToken token ip d => exact clean_of_stays (stays_refreshes hrecord _ _ _)
    | revokeSession header sessionId ip d => exact clean_of_stays (stays_revokesOwn hrecord _ _ _ _)
    | requestPasswordReset email ip d => exact clean_requestReset hrecord _ _ _
    | resetPassword token newPassword ip d => exact clean_reset hrecord _ _ _ _
    | me header => exact absurd rfl (hme header)
  exact hclean.ok hw h

end Requests

end AuthService.LiveTransactions
