import AuthService.FallibleTriples
import AuthService.HandlerRuns
import AuthService.GraphqlResolvers

set_option autoImplicit false

/-! Pre- and postconditions of the port calls, and what the requests that write audit events
only keep, whichever calls fail. -/
namespace AuthService.RequestTriples
open Uuids PythonText DomainModel AccountTables Transactions FallibleState Fallible FallibleTriples
open RedisSessions RequestPorts RedisTokenStore CommandHandlers GraphqlResolvers HandlerRuns

/-- The clock is the same, and no credential or session is there that was not there before. -/
structure Sheds (r r' : Redis) : Prop where
  now : r'.now = r.now
  access : ∀ j e, r'.access j = some e → r.access j = some e
  refresh : ∀ t e, r'.refresh t = some e → r.refresh t = some e
  session : ∀ sid e, r'.session sid = some e → r.session sid = some e

theorem Sheds.refl (r : Redis) : Sheds r r := ⟨rfl, fun _ _ => id, fun _ _ => id, fun _ _ => id⟩

theorem remove_le {κ β : Type} [DecidableEq κ] {m : ExpiringMaps.ExpiringMap κ β} {k j : κ}
    {e : ExpiringMaps.Entry β} (h : m.remove k j = some e) : m j = some e := by
  rw [ExpiringMaps.ExpiringMap.remove_apply] at h
  split_ifs at h
  exact h

theorem revokePipeline_sheds (sid : UUID) (data : SessionHash) (r : Redis) :
    Sheds r (revokePipeline sid data r) := by
  refine ⟨rfl, fun _ _ => removeUnlessEmpty_le, fun _ _ => removeUnlessEmpty_le, fun s e he => ?_⟩
  rw [RedisSessions.revoke_session] at he
  split_ifs at he
  exact he

theorem getdel_sheds (token : String) (r : Redis) : Sheds r (getdel token r).2 :=
  ⟨rfl, fun _ _ => id, fun _ _ => remove_le, fun _ _ => id⟩

structure Readable (I : World → Prop) : Prop where
  rollback : ∀ w, I w → I { w with db := w.db.rollback }
  counted : ∀ w n, I w → I { w with commands := n }

theorem Readable.and {I J : World → Prop} (hI : Readable I) (hJ : Readable J) :
    Readable (fun w => I w ∧ J w) where
  rollback := fun w h => ⟨hI.rollback w h.1, hJ.rollback w h.2⟩
  counted := fun w n h => ⟨hI.counted w n h.1, hJ.counted w n h.2⟩

/-- What failed calls, audit events, the dummy hash and Redis commands that open nothing keep. -/
structure Settled (I : World → Prop) : Prop where
  rollback : ∀ w, I w → I { w with db := w.db.rollback }
  event : ∀ w row, I w → I { w with db := w.db.flush [.insertEvent row] }
  sheds : ∀ w r n, I w → Sheds w.redis r → I { w with redis := r, commands := n }
  dummy : ∀ w hash, I w → I { w with dummyHash := hash }

theorem Settled.readable {I : World → Prop} (h : Settled I) : Readable I :=
  ⟨h.rollback, fun w n hw => h.sheds w w.redis n hw (.refl _)⟩

structure Steady (I : World → Prop) : Prop where
  rollback : ∀ w, I w → I { w with db := w.db.rollback }
  event : ∀ w row, I w → I { w with db := w.db.flush [.insertEvent row] }
  redis : ∀ w r n, I w → r.now = w.redis.now → I { w with redis := r, commands := n }
  signed : ∀ w signed, I w → I { w with signed := signed }
  dummy : ∀ w hash, I w → I { w with dummyHash := hash }

theorem Steady.settled {I : World → Prop} (h : Steady I) : Settled I :=
  ⟨h.rollback, h.event, fun w r n hw hr => h.redis w r n hw hr.now, h.dummy⟩

/-- The assertion is kept, also by an exception. -/
abbrev Stays {α : Type} (I : World → Prop) (m : AuthM α) : Prop :=
  Triple I m (fun _ => I) (fun _ => I)

section Ports
variable {g : GlobalContainer} {faults : Faults} {I J : World → Prop} {α : Type}

theorem triple_port {Q : α → World → Prop} {c : PortCall} {m : AuthM α} (hJ : Readable J)
    (hIJ : ∀ w, I w → J w) (hm : Triple I m Q (fun _ => J)) :
    Triple I (port faults c m) Q (fun _ => J) := by
  refine ⟨fun w hw => ?_⟩
  unfold port
  cases faults c with
  | some f =>
    cases f with
    | raises => exact hIJ w hw
    | rollsBack => exact hJ.rollback w (hIJ w hw)
  | none =>
    by_cases hdb : w.db.aborted = true
    · simp only [hdb, if_true]
      exact hIJ w hw
    · simp only [hdb]
      exact hm.run w hw

theorem triple_query {c : PortCall} {f : Tables → Except Exn α} (hJ : Readable J)
    (hIJ : ∀ w, I w → J w) :
    Triple I (query faults c f) (fun a w => I w ∧ f w.tables = .ok a) (fun _ => J) := by
  refine triple_port hJ hIJ (.intro (fun w a w' hw hf => ?_) (fun w e w' hw hf => ?_))
  · obtain ⟨hread, rfl⟩ := Prod.mk.inj hf
    exact ⟨hw, hread⟩
  · rw [← (Prod.mk.inj hf).2]
    exact hIJ w hw

theorem triple_flush {Q : World → Prop} {c : PortCall} {f : Tables → Except Exn Statement}
    (hJ : Settled J) (hIJ : ∀ w, I w → J w)
    (hf : ∀ w stmt, I w → f w.tables = .ok stmt → Q { w with db := w.db.flush [stmt] }) :
    Triple I (flush faults c f) (fun _ => Q) (fun _ => J) := by
  refine triple_port hJ.readable hIJ ⟨fun w hw => ?_⟩
  cases h : f w.tables with
  | ok stmt => exact hf w stmt hw h
  | error e => exact hJ.rollback w (hIJ w hw)

theorem triple_now {Q : ℕ → World → Prop} {E : Exn → World → Prop}
    (h : ∀ w, I w → Q w.redis.now w) : Triple I now Q E :=
  ⟨h⟩

theorem triple_checked (hIJ : ∀ w, I w → J w) (x : Except Exn α) :
    Triple I (ofExcept x : AuthM α) (fun a w => x = .ok a ∧ I w) (fun _ => J) :=
  .ofExcept (fun _ _ hx hw => ⟨hx, hw⟩) (fun _ w _ hw => hIJ w hw)

theorem stays_pure (a : α) : Stays I (pure a : AuthM α) := .pure a (fun _ => id)

theorem stays_raise (e : Exn) : Stays I (raise e : AuthM α) := .raise e (fun _ => id)

theorem stays_ofExcept (x : Except Exn α) : Stays I (ofExcept x : AuthM α) :=
  .ofExcept (fun _ _ _ => id) (fun _ _ _ => id)

theorem stays_bind {β : Type} {m : AuthM α} {f : α → AuthM β} (hm : Stays I m)
    (hf : ∀ a, Stays I (f a)) :
    Stays I (m >>= f) :=
  Triple.bind hm hf

theorem stays_handle {m : AuthM α} {h : Exn → AuthM α} (hm : Stays I m) (hh : ∀ e, Stays I (h e)) :
    Stays I (handle m h) :=
  Triple.handle hm hh

theorem stays_now : Stays I now := triple_now (fun _ => id)

section Readable
variable (hI : Readable I)
include hI

theorem stays_query {c : PortCall} {f : Tables → Except Exn α} : Stays I (query faults c f) :=
  (triple_query hI (fun _ => id)).post (fun _ _ h => h.1)

theorem stays_read (f : Redis → α) : Stays I (command faults (fun r => (f r, r))) := by
  refine ⟨fun w hw => ?_⟩
  unfold command
  cases faults (.redis w.commands) <;> exact hI.counted w _ hw

theorem stays_getSession {sid : UUID} : Stays I (getSession faults sid) := stays_read hI _

end Readable

section Settled
variable (hI : Settled I)
include hI

theorem stays_command {f : Redis → α × Redis} (hf : ∀ r, Sheds r (f r).2) :
    Stays I (command faults f) := by
  refine ⟨fun w hw => ?_⟩
  unfold command
  cases faults (.redis w.commands) with
  | some x => exact hI.sheds w w.redis _ hw (.refl _)
  | none => exact hI.sheds w _ _ hw (hf _)

theorem stays_tryRecord (dto : AuditEventDTO) : Stays I (tryRecord faults dto) := by
  refine stays_handle (triple_flush hI (fun _ => id) ?_) (fun _ => stays_pure _)
  intro w stmt hw hf
  rw [← Except.ok.inj hf]
  exact hI.event w _ hw

theorem stays_revokeSession {sid : UUID} : Stays I (revokeSession faults sid) := by
  refine stays_bind (stays_getSession hI.readable) (fun data => ?_)
  cases data with
  | none => exact stays_pure _
  | some h => exact stays_command hI (revokePipeline_sheds sid h)

theorem stays_revokeEach (ids : List UUID) : Stays I (revokeEach faults ids) := by
  induction ids with
  | nil => exact stays_pure _
  | cons sid rest ih => exact stays_bind (stays_revokeSession hI) (fun _ => ih)

theorem stays_revokeAll {uid : UUID} : Stays I (revokeAllUserSessions faults uid) :=
  stays_bind (stays_read hI.readable _) (fun _ =>
    stays_bind (stays_command hI (fun _ => ⟨rfl, fun _ _ => id, fun _ _ => id, fun _ _ => id⟩))
      (fun _ => stays_revokeEach hI _))

theorem stays_getByRefreshToken {token : String} :
    Stays I (getSessionByRefreshToken faults token) := by
  refine stays_bind (stays_command hI (getdel_sheds token)) (fun raw => ?_)
  cases raw with
  | none => exact stays_pure _
  | some raw =>
    cases hp : splitColon raw with
    | none =>
      simp only [hp]
      exact stays_raise _
    | some parts =>
      simp only [hp]
      exact stays_pure _

omit hI in
theorem stays_tryDecode {token : String} : Stays I (tryDecode g token) := by
  refine stays_handle (stays_bind ?_ (fun _ => stays_pure _)) ?_
  · refine ⟨fun w hw => ?_⟩
    unfold decodeAccessToken
    cases w.signed.find? (fun c => g.encode c = token) with
    | none => exact hw
    | some c =>
      simp only
      split_ifs <;> exact hw
  · intro e
    split
    · exact stays_pure _
    · exact stays_pure _
    · exact stays_raise _

end Settled

section Steady
variable (hI : Steady I)
include hI

theorem stays_generate {u s j : UUID} : Stays I (generateAccessToken g u s j) :=
  ⟨fun w hw => hI.signed w _ hw⟩

theorem stays_write {f : Redis → α × Redis} (hf : ∀ r, (f r).2.now = r.now) :
    Stays I (command faults f) := by
  refine ⟨fun w hw => ?_⟩
  unfold command
  cases faults (.redis w.commands) with
  | some x => exact hI.redis w w.redis _ hw rfl
  | none => exact hI.redis w _ _ hw (hf _)

end Steady

end Ports

section Requests
variable {g : GlobalContainer} {faults : Faults} {I J : World → Prop}

section Settled
variable (hI : Settled I)
include hI

theorem stays_recordLoginFailed {userId : Option UUID} {ip : Option String} {reason : String}
    {eventId : UUID} : Stays I (recordLoginFailed faults userId ip reason eventId) :=
  stays_bind stays_now (fun _ => stays_tryRecord hI _)

theorem stays_verifyDummy {password salt : String} : Stays I (verifyDummy g password salt) := by
  refine stays_bind ?_ (fun _ => stays_bind ⟨fun _ => id⟩ (fun _ => stays_pure _))
  refine ⟨fun w hw => ?_⟩
  rw [update_run]
  simp only
  split_ifs
  · exact hI.dummy w _ hw
  · exact hw

theorem stays_revoke (header sessionId : String) (ip : Option String) (d : RevokeDraws) :
    Stays I (revoke g faults header sessionId ip d) := by
  unfold revoke
  cases bearerToken header with
  | none => exact stays_pure _
  | some token =>
    refine stays_bind stays_tryDecode (fun decoded => ?_)
    cases decoded with
    | none => exact stays_pure _
    | some claims =>
      simp only
      split_ifs
      · exact stays_pure _
      · refine stays_bind (stays_read hI.readable _) (fun valid => ?_)
        split_ifs
        · exact stays_pure _
        · cases UUID.parse sessionId with
          | none => exact stays_raise _
          | some sid =>
            refine stays_bind (stays_getSession hI.readable) (fun data => ?_)
            cases data with
            | none => exact stays_pure _
            | some h =>
              simp only
              split_ifs
              · exact stays_pure _
              · refine stays_handle (stays_bind ?_ (fun _ => stays_pure _)) (fun _ => stays_pure _)
                refine stays_bind (stays_getSession hI.readable)
                  (fun _ => stays_bind (stays_revokeSession hI) (fun _ => ?_))
                exact stays_bind stays_now (fun _ => stays_tryRecord hI _)

end Settled

theorem stays_me (hI : Readable I) (header : String) : Stays I (me g faults header) := by
  unfold me
  cases bearerToken header with
  | none => exact stays_pure _
  | some token =>
    simp only
    split_ifs
    · exact stays_pure _
    · refine stays_bind stays_tryDecode (fun decoded => ?_)
      cases decoded with
      | none => exact stays_pure _
      | some claims =>
        simp only
        split_ifs
        · exact stays_pure _
        · refine stays_bind (stays_read hI _) (fun valid => ?_)
          split_ifs
          · exact stays_pure _
          · cases UUID.parse claims.sub with
            | none => exact stays_raise _
            | some userId =>
              refine stays_bind (stays_query hI) (fun found => ?_)
              cases found with
              | none => exact stays_pure _
              | some user =>
                simp only
                split_ifs <;> exact stays_pure _

theorem triple_login (hJ : Settled J) (hIJ : ∀ w, I w → J w) {email password : String}
    {device ip : Option String} {d : LoginDraws} {M : UUID → String → World → Prop}
    (hsign : ∀ address user, Email.new g.unicode email = .ok address → user.isActive = true →
      verify g password user.hashedPassword = true →
      Triple (fun w => I w ∧ w.tables.findByEmail g.unicode address.value = .ok (some user))
        (generateAccessToken g user.id d.sessionId d.jti) (fun x => M user.id x.2) (fun _ => J))
    (hopen : ∀ uid jti, Triple (M uid jti) (createSession g faults d.sessionId uid jti
      d.refreshToken.text (trimDeviceInfo device) g.accessTokenTtlSeconds g.refreshTokenTtlSeconds)
      (fun _ => J) (fun _ => J)) :
    Triple I (login g faults email password device ip d) (fun _ => J) (fun _ => J) := by
  refine .handle (.bind ?_ (fun _ => stays_pure _)) (fun e => ?_)
  · unfold authenticateUser
    refine .bind (triple_checked hIJ _) (fun address => .of_fact fun haddress => ?_)
    refine .bind (triple_query hJ.readable hIJ) (fun found => ?_)
    cases found with
    | none =>
      refine Triple.pre (stays_bind (stays_verifyDummy hJ) (fun _ => ?_)) (fun w h => hIJ w h.1)
      exact stays_bind (stays_recordLoginFailed hJ) (fun _ => stays_raise _)
    | some user =>
      simp only
      split_ifs with hactive hverify
      · exact Triple.pre (stays_bind (stays_recordLoginFailed hJ) (fun _ => stays_raise _))
          (fun w h => hIJ w h.1)
      · exact Triple.pre (stays_bind (stays_recordLoginFailed hJ) (fun _ => stays_raise _))
          (fun w h => hIJ w h.1)
      · refine .bind (hsign address user haddress (by simpa using hactive) (by simpa using hverify))
          (fun x => ?_)
        refine .bind (hopen user.id x.2) (fun _ => ?_)
        exact .bind stays_now (fun _ => .bind (stays_tryRecord hJ _) (fun _ => stays_pure _))
  · cases e <;> exact stays_raise _

theorem triple_refresh (hJ : Settled J) {token : String} {ip : Option String} {d : RefreshDraws}
    {G : Option (String × String) → World → Prop} {M : UUID → UUID → String → World → Prop}
    (hget : Triple I (getSessionByRefreshToken faults token) G (fun _ => J))
    (hG : ∀ x w, G x w → J w)
    (hsign : ∀ u s uid sid, UUID.parse u = some uid → UUID.parse s = some sid →
      Triple (G (some (u, s))) (generateAccessToken g uid sid d.jti) (fun x => M uid sid x.2)
        (fun _ => J))
    (hrotate : ∀ uid sid jti, Triple (M uid sid jti) (rotateSession g faults sid token jti
      d.refreshToken.text g.accessTokenTtlSeconds g.refreshTokenTtlSeconds) (fun _ => J) (fun _ => J)) :
    Triple I (refresh g faults token ip d) (fun _ => J) (fun _ => J) := by
  refine .handle (.bind (.bind hget (fun data => ?_)) (fun _ => stays_pure _)) (fun e => ?_)
  · cases data with
    | none => exact .raise _ (hG _)
    | some ids =>
      obtain ⟨u, s⟩ := ids
      simp only
      cases hu : UUID.parse u with
      | none => exact .raise _ (hG _)
      | some uid =>
        cases hs : UUID.parse s with
        | none => exact .raise _ (hG _)
        | some sid =>
          refine .bind (hsign u s uid sid hu hs) (fun x => .bind (hrotate uid sid x.2) (fun _ => ?_))
          exact .bind stays_now (fun _ => .bind (stays_tryRecord hJ _) (fun _ => stays_pure _))
  · cases e <;> exact stays_raise _

section Steady
variable (hI : Steady I)
include hI

theorem stays_login (email password : String) (device ip : Option String) (d : LoginDraws) :
    Stays I (login g faults email password device ip d) :=
  triple_login hI.settled (fun _ => id) (M := fun _ _ => I)
    (fun _ _ _ _ _ => (stays_generate hI).pre (fun _ h => h.1))
    (fun _ _ => stays_write hI (fun _ => create_now _ _ _ _ _ _ _ _ _))

theorem stays_rotateSession {sid : UUID} {old jti token : String} {a r : ℕ} :
    Stays I (rotateSession g faults sid old jti token a r) := by
  refine stays_bind (stays_getSession hI.settled.readable) (fun data => ?_)
  cases data with
  | none => exact stays_raise _
  | some h =>
    cases hu : h.userId with
    | none =>
      simp only [hu]
      exact stays_raise _
    | some uid =>
      simp only [hu]
      exact stays_write hI (fun _ => rotate_now _ _ _ _ _ _ _ _ _ _)

theorem stays_refresh (token : String) (ip : Option String) (d : RefreshDraws) :
    Stays I (refresh g faults token ip d) :=
  triple_refresh hI.settled (G := fun _ => I) (M := fun _ _ _ => I) (stays_getByRefreshToken hI.settled)
    (fun _ _ => id) (fun _ _ _ _ _ _ => stays_generate hI) (fun _ _ _ => stays_rotateSession hI)

end Steady

end Requests

structure Unwritten (I : World → Prop) : Prop extends Settled I where
  flush : ∀ w stmts, I w → I { w with db := w.db.flush stmts }

section Unwritten
variable {g : GlobalContainer} {faults : Faults} {I : World → Prop} (hI : Unwritten I)
include hI

theorem stays_flush {c : PortCall} {f : Tables → Except Exn Statement} : Stays I (flush faults c f) :=
  triple_flush hI.toSettled (fun _ => id) (fun w _ hw _ => hI.flush w _ hw)

theorem stays_register (email password : String) (d : RegisterDraws) :
    Stays I (register g faults email password d) := by
  refine stays_handle (stays_bind ?_ (fun _ => stays_pure _)) (fun e => ?_)
  · unfold registerUser
    refine stays_bind (stays_ofExcept _) (fun address => ?_)
    refine stays_bind (stays_ofExcept _) (fun _ => ?_)
    refine stays_bind (stays_query hI.toSettled.readable) (fun existing => ?_)
    cases existing with
    | some _ => exact stays_raise _
    | none => exact stays_bind stays_now (fun _ => stays_flush hI)
  · cases e <;> first | exact stays_pure _ | exact stays_raise _

theorem stays_reset (token newPassword : String) (ip : Option String) (d : ResetDraws) :
    Stays I (reset g faults token newPassword ip d) := by
  refine stays_handle (stays_bind ?_ (fun _ => stays_pure _)) (fun e => ?_)
  · unfold resetPassword
    refine stays_bind (stays_ofExcept _) (fun _ => ?_)
    refine stays_bind (stays_query hI.toSettled.readable) (fun found => ?_)
    cases found with
    | none => exact stays_raise _
    | some stored =>
      refine stays_bind stays_now (fun _ => ?_)
      refine stays_bind (stays_ofExcept _) (fun resetToken => ?_)
      refine stays_bind (stays_query hI.toSettled.readable) (fun found => ?_)
      cases found with
      | none => exact stays_raise _
      | some user =>
        refine stays_bind (stays_flush hI) (fun _ => ?_)
        refine stays_bind (stays_flush hI) (fun _ => ?_)
        refine stays_bind (stays_revokeAll hI.toSettled) (fun _ => ?_)
        exact stays_bind stays_now (fun _ => stays_tryRecord hI.toSettled _)
  · cases e <;> first | exact stays_pure _ | exact stays_raise _

theorem triple_requestReset {J : World → Prop} (hJ : Unwritten J) (hIJ : ∀ w, I w → J w)
    {email : String}
    {ip : Option String} {d : RequestResetDraws}
    (hsend : ∀ address, Email.new g.unicode email = .ok address →
      Triple I (sendResetEmail faults address.value d.rawToken.text) (fun _ => J) (fun _ => J)) :
    Triple I (requestReset g faults email ip d) (fun _ => J) (fun _ => J) := by
  refine .handle (.bind ?_ (fun _ => stays_pure _)) (fun e => ?_)
  · unfold requestPasswordReset
    refine .bind (triple_checked hIJ _) (fun address => .of_fact fun haddress => ?_)
    refine .bind (triple_query hJ.toSettled.readable hIJ) (fun found => ?_)
    cases found with
    | none => exact .raise _ (fun w h => hIJ w h.1)
    | some user =>
      refine .bind (Q := fun _ => I)
        (triple_flush hJ.toSettled (fun w h => hIJ w h.1) (fun w _ h _ => hI.flush w _ h.1))
          (fun _ => ?_)
      refine .bind (triple_now (Q := fun _ => I) (fun _ h => h)) (fun _ => ?_)
      refine .bind (Q := fun _ => I)
        (triple_flush hJ.toSettled hIJ (fun w _ h _ => hI.flush w _ h)) (fun _ => ?_)
      refine .bind (hsend address haddress) (fun _ => ?_)
      exact .bind stays_now (fun _ => stays_tryRecord hJ.toSettled _)
  · cases e <;> first | exact stays_pure _ | exact stays_raise _

end Unwritten

end AuthService.RequestTriples
