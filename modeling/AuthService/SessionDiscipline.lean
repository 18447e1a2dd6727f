import AuthService.GraphqlResolvers

set_option autoImplicit false

/-! What a request does to its database session, whichever port calls fail: every
handler is a sequence of flushes, rollbacks and steps that leave the session alone. -/
namespace AuthService.SessionDiscipline
open Uuids PythonText DomainModel AccountTables Transactions FallibleState Fallible RedisSessions
open RequestPorts RedisTokenStore CommandHandlers GraphqlResolvers

/-- A relation between a session and a later one that rolling back respects. -/
structure Discipline (S : Session Tables Statement → Session Tables Statement → Prop) : Prop where
  refl : ∀ s, S s s
  trans : ∀ s t u, S s t → S t u → S s u
  rollback : ∀ s : Session Tables Statement, S s s.rollback

def Allows (S : Session Tables Statement → Session Tables Statement → Prop)
    (f : Tables → Except Exn Statement) : Prop :=
  ∀ s stmt, f (s.view Statement.apply) = .ok stmt → S s (s.flush [stmt])

def overDb (S : Session Tables Statement → Session Tables Statement → Prop) (w w' : World) : Prop :=
  S w.db w'.db

section Ports
variable {S : Session Tables Statement → Session Tables Statement → Prop} (hS : Discipline S)
variable {g : GlobalContainer} {faults : Faults}
include hS

theorem keeps_of_same_db {α : Type} {m : AuthM α} (h : ∀ w, (m w).2.db = w.db) :
    Keeps (overDb S) m := by
  intro w
  unfold overDb
  rw [h w]
  exact hS.refl _

theorem keeps_pure {α : Type} (a : α) : Keeps (overDb S) (pure a : AuthM α) :=
  Keeps.pure (fun w => hS.refl w.db) a

theorem keeps_raise {α : Type} (e : Exn) : Keeps (overDb S) (raise e : AuthM α) :=
  Keeps.raise (fun w => hS.refl w.db) e

theorem keeps_ofExcept {α : Type} (x : Except Exn α) : Keeps (overDb S) (ofExcept x : AuthM α) :=
  Keeps.ofExcept (fun w => hS.refl w.db) x

theorem keeps_bind {α β : Type} {m : AuthM α} {f : α → AuthM β} (hm : Keeps (overDb S) m)
    (hf : ∀ a, Keeps (overDb S) (f a)) : Keeps (overDb S) (m >>= f) :=
  Keeps.bind (fun s t u h h' => hS.trans s.db t.db u.db h h') hm hf

theorem keeps_handle {α : Type} {m : AuthM α} {f : Exn → AuthM α} (hm : Keeps (overDb S) m)
    (hf : ∀ e, Keeps (overDb S) (f e)) : Keeps (overDb S) (handle m f) :=
  Keeps.handle (fun s t u h h' => hS.trans s.db t.db u.db h h') hm hf

theorem keeps_now : Keeps (overDb S) now := keeps_of_same_db hS (fun _ => rfl)

theorem keeps_port {α : Type} {c : PortCall} {m : AuthM α} (hm : Keeps (overDb S) m) :
    Keeps (overDb S) (port faults c m) := by
  intro w
  unfold port
  cases faults c with
  | none =>
    simp only
    split_ifs
    · exact hS.refl _
    · exact hm w
  | some f =>
    cases f with
    | raises => exact hS.refl _
    | rollsBack => exact hS.rollback _

theorem keeps_query {α : Type} {c : PortCall} {f : Tables → Except Exn α} :
    Keeps (overDb S) (query faults c f) :=
  keeps_port hS (keeps_of_same_db hS (fun _ => rfl))

theorem keeps_flush {c : PortCall} {f : Tables → Except Exn Statement} (hf : Allows S f) :
    Keeps (overDb S) (flush faults c f) := by
  refine keeps_port hS ?_
  intro w
  simp only
  cases h : f w.tables with
  | ok s => exact hf w.db s h
  | error e => exact hS.rollback _

theorem keeps_command {α : Type} {f : Redis → α × Redis} : Keeps (overDb S) (command faults f) := by
  refine keeps_of_same_db hS ?_
  intro w
  unfold command
  cases faults (.redis w.commands) <;> rfl

theorem keeps_sendResetEmail {email token : String} :
    Keeps (overDb S) (sendResetEmail faults email token) := by
  refine keeps_of_same_db hS ?_
  intro w
  unfold sendResetEmail
  cases faults .sendResetEmail <;> rfl

theorem keeps_tryRecord (hev : ∀ row, Allows S (fun _ => .ok (.insertEvent row)))
    (dto : AuditEventDTO) : Keeps (overDb S) (tryRecord faults dto) :=
  keeps_handle hS (keeps_flush hS (hev _)) (fun _ => keeps_pure hS _)

theorem keeps_getSession {sid : UUID} : Keeps (overDb S) (getSession faults sid) := keeps_command hS

theorem keeps_revokeSession {sid : UUID} : Keeps (overDb S) (revokeSession faults sid) := by
  refine keeps_bind hS (keeps_getSession hS) (fun data => ?_)
  cases data with
  | none => exact keeps_pure hS _
  | some h => exact keeps_command hS

theorem keeps_revokeEach (ids : List UUID) : Keeps (overDb S) (revokeEach faults ids) := by
  induction ids with
  | nil => exact keeps_pure hS _
  | cons sid rest ih => exact keeps_bind hS (keeps_revokeSession hS) (fun _ => ih)

theorem keeps_revokeAll {uid : UUID} : Keeps (overDb S) (revokeAllUserSessions faults uid) :=
  keeps_bind hS (keeps_command hS) (fun _ =>
    keeps_bind hS (keeps_command hS) (fun _ => keeps_revokeEach hS _))

theorem keeps_tryDecode {token : String} : Keeps (overDb S) (tryDecode g token) := by
  refine keeps_handle hS (keeps_bind hS (keeps_of_same_db hS ?_) (fun _ => keeps_pure hS _)) ?_
  · intro w
    unfold decodeAccessToken
    cases w.signed.find? (fun c => g.encode c = token) with
    | none => rfl
    | some c =>
      simp only
      split_ifs <;> rfl
  · intro e
    split
    · exact keeps_pure hS _
    · exact keeps_pure hS _
    · exact keeps_raise hS _

end Ports

section Handlers
variable {S : Session Tables Statement → Session Tables Statement → Prop} (hS : Discipline S)
variable {g : GlobalContainer} {faults : Faults}
include hS

theorem keeps_registerUser (hu : ∀ user : User g.unicode, Allows S (Tables.saveUser user))
    (cmd : RegisterUserCommand) (d : RegisterDraws) :
    Keeps (overDb S) (registerUser g faults cmd d) := by
  refine keeps_bind hS (keeps_ofExcept hS _) (fun email => ?_)
  refine keeps_bind hS (keeps_ofExcept hS _) (fun _ => ?_)
  refine keeps_bind hS (keeps_query hS) (fun existing => ?_)
  cases existing with
  | some _ => exact keeps_raise hS _
  | none => exact keeps_bind hS (keeps_now hS) (fun _ => keeps_flush hS (hu _))

theorem keeps_recordLoginFailed (hev : ∀ row, Allows S (fun _ => .ok (.insertEvent row)))
    {userId : Option UUID} {ip : Option String} {reason : String} {eventId : UUID} :
    Keeps (overDb S) (recordLoginFailed faults userId ip reason eventId) :=
  keeps_bind hS (keeps_now hS) (fun _ => keeps_tryRecord hS hev _)

theorem keeps_verifyDummy {password salt : String} : Keeps (overDb S)
    (verifyDummy g password salt) := by
  refine keeps_of_same_db hS ?_
  intro w
  change (if w.dummyHash = "" then _ else w : World).db = w.db
  split_ifs <;> rfl

theorem keeps_authenticateUser (hev : ∀ row, Allows S (fun _ => .ok (.insertEvent row)))
    (cmd : AuthenticateUserCommand) (d : LoginDraws) :
    Keeps (overDb S) (authenticateUser g faults cmd d) := by
  refine keeps_bind hS (keeps_ofExcept hS _) (fun email => ?_)
  refine keeps_bind hS (keeps_query hS) (fun found => ?_)
  cases found with
  | none =>
    refine keeps_bind hS (keeps_verifyDummy hS) (fun _ => ?_)
    exact keeps_bind hS (keeps_recordLoginFailed hS hev) (fun _ => keeps_raise hS _)
  | some user =>
    simp only
    split_ifs
    · exact keeps_bind hS (keeps_recordLoginFailed hS hev) (fun _ => keeps_raise hS _)
    · exact keeps_bind hS (keeps_recordLoginFailed hS hev) (fun _ => keeps_raise hS _)
    · refine keeps_bind hS (keeps_of_same_db hS (fun _ => rfl)) (fun _ => ?_)
      refine keeps_bind hS (keeps_command hS) (fun _ => ?_)
      refine keeps_bind hS (keeps_now hS) (fun _ => ?_)
      exact keeps_bind hS (keeps_tryRecord hS hev _) (fun _ => keeps_pure hS _)

theorem keeps_rotateSession {sid : UUID} {old jti token : String} {a r : ℕ} :
    Keeps (overDb S) (rotateSession g faults sid old jti token a r) := by
  refine keeps_bind hS (keeps_getSession hS) (fun data => ?_)
  cases data with
  | none => exact keeps_raise hS _
  | some h =>
    cases hu : h.userId with
    | none => simp only [hu]; exact keeps_raise hS _
    | some uid => simp only [hu]; exact keeps_command hS

theorem keeps_refreshToken (hev : ∀ row, Allows S (fun _ => .ok (.insertEvent row)))
    (cmd : RefreshTokenCommand) (d : RefreshDraws) :
    Keeps (overDb S) (refreshToken g faults cmd d) := by
  refine keeps_bind hS ?_ (fun data => ?_)
  · refine keeps_bind hS (keeps_command hS) (fun raw => ?_)
    cases raw with
    | none => exact keeps_pure hS _
    | some raw =>
      cases hp : splitColon raw with
      | none => simp only [hp]; exact keeps_raise hS _
      | some parts => simp only [hp]; exact keeps_pure hS _
  · cases data with
    | none => exact keeps_raise hS _
    | some ids =>
      obtain ⟨u, s⟩ := ids
      simp only
      cases UUID.parse u with
      | none => exact keeps_raise hS _
      | some uid =>
        cases UUID.parse s with
        | none => exact keeps_raise hS _
        | some sid =>
          refine keeps_bind hS (keeps_of_same_db hS (fun _ => rfl)) (fun _ => ?_)
          refine keeps_bind hS (keeps_rotateSession hS) (fun _ => ?_)
          refine keeps_bind hS (keeps_now hS) (fun _ => ?_)
          exact keeps_bind hS (keeps_tryRecord hS hev _) (fun _ => keeps_pure hS _)

theorem keeps_revokeSessionHandler (hev : ∀ row, Allows S (fun _ => .ok (.insertEvent row)))
    (cmd : RevokeSessionCommand) (d : RevokeDraws) :
    Keeps (overDb S) (revokeSessionHandler faults cmd d) := by
  refine keeps_bind hS (keeps_getSession hS) (fun _ => ?_)
  refine keeps_bind hS (keeps_revokeSession hS) (fun _ => ?_)
  exact keeps_bind hS (keeps_now hS) (fun _ => keeps_tryRecord hS hev _)

theorem keeps_requestPasswordReset (hev : ∀ row, Allows S (fun _ => .ok (.insertEvent row)))
    (hd : ∀ uid, Allows S (fun t => .ok (t.deleteAllByUserId uid)))
    (ht : ∀ token, Allows S (Tables.saveResetToken token))
    (cmd : RequestPasswordResetCommand) (d : RequestResetDraws) :
    Keeps (overDb S) (requestPasswordReset g faults cmd d) := by
  refine keeps_bind hS (keeps_ofExcept hS _) (fun email => ?_)
  refine keeps_bind hS (keeps_query hS) (fun found => ?_)
  cases found with
  | none => exact keeps_raise hS _
  | some user =>
    refine keeps_bind hS (keeps_flush hS (hd _)) (fun _ => ?_)
    refine keeps_bind hS (keeps_now hS) (fun _ => ?_)
    refine keeps_bind hS (keeps_flush hS (ht _)) (fun _ => ?_)
    refine keeps_bind hS (keeps_sendResetEmail hS) (fun _ => ?_)
    exact keeps_bind hS (keeps_now hS) (fun _ => keeps_tryRecord hS hev _)

theorem keeps_resetPassword (hev : ∀ row, Allows S (fun _ => .ok (.insertEvent row)))
    (hu : ∀ user : User g.unicode, Allows S (Tables.saveUser user))
    (ht : ∀ token, Allows S (Tables.saveResetToken token))
    (cmd : ResetPasswordCommand) (d : ResetDraws) :
    Keeps (overDb S) (resetPassword g faults cmd d) := by
  refine keeps_bind hS (keeps_ofExcept hS _) (fun _ => ?_)
  refine keeps_bind hS (keeps_query hS) (fun found => ?_)
  cases found with
  | none => exact keeps_raise hS _
  | some stored =>
    refine keeps_bind hS (keeps_now hS) (fun time => ?_)
    refine keeps_bind hS (keeps_ofExcept hS _) (fun resetToken => ?_)
    refine keeps_bind hS (keeps_query hS) (fun found => ?_)
    cases found with
    | none => exact keeps_raise hS _
    | some user =>
      refine keeps_bind hS (keeps_flush hS (hu _)) (fun _ => ?_)
      refine keeps_bind hS (keeps_flush hS (ht _)) (fun _ => ?_)
      refine keeps_bind hS (keeps_revokeAll hS) (fun _ => ?_)
      exact keeps_bind hS (keeps_now hS) (fun _ => keeps_tryRecord hS hev _)

theorem keeps_register (hu : ∀ user : User g.unicode, Allows S (Tables.saveUser user))
    (email password : String) (d : RegisterDraws) :
    Keeps (overDb S) (register g faults email password d) := by
  refine keeps_handle hS (keeps_bind hS (keeps_registerUser hS hu _ _) (fun _ => keeps_pure hS _)) ?_
  intro e
  cases e <;> first | exact keeps_pure hS _ | exact keeps_raise hS _

theorem keeps_login (hev : ∀ row, Allows S (fun _ => .ok (.insertEvent row)))
    (email password : String) (device ip : Option String) (d : LoginDraws) :
    Keeps (overDb S) (login g faults email password device ip d) := by
  refine keeps_handle hS
    (keeps_bind hS (keeps_authenticateUser hS hev _ _) (fun _ => keeps_pure hS _)) ?_
  intro e
  cases e <;> exact keeps_raise hS _

theorem keeps_refresh (hev : ∀ row, Allows S (fun _ => .ok (.insertEvent row)))
    (token : String) (ip : Option String) (d : RefreshDraws) :
    Keeps (overDb S) (refresh g faults token ip d) := by
  refine keeps_handle hS
    (keeps_bind hS (keeps_refreshToken hS hev _ _) (fun _ => keeps_pure hS _)) ?_
  intro e
  cases e <;> exact keeps_raise hS _

theorem keeps_revoke (hev : ∀ row, Allows S (fun _ => .ok (.insertEvent row)))
    (header sessionId : String) (ip : Option String) (d : RevokeDraws) :
    Keeps (overDb S) (revoke g faults header sessionId ip d) := by
  unfold revoke
  cases bearerToken header with
  | none => exact keeps_pure hS _
  | some token =>
    refine keeps_bind hS (keeps_tryDecode hS) (fun decoded => ?_)
    cases decoded with
    | none => exact keeps_pure hS _
    | some claims =>
      simp only
      split_ifs
      · exact keeps_pure hS _
      · refine keeps_bind hS (keeps_command hS) (fun valid => ?_)
        split_ifs
        · exact keeps_pure hS _
        · cases UUID.parse sessionId with
          | none => exact keeps_raise hS _
          | some sid =>
            refine keeps_bind hS (keeps_getSession hS) (fun data => ?_)
            cases data with
            | none => exact keeps_pure hS _
            | some h =>
              simp only
              split_ifs
              · exact keeps_pure hS _
              · exact keeps_handle hS
                  (keeps_bind hS (keeps_revokeSessionHandler hS hev _ _) (fun _ => keeps_pure hS _))
                  (fun _ => keeps_pure hS _)

theorem keeps_requestReset (hev : ∀ row, Allows S (fun _ => .ok (.insertEvent row)))
    (hd : ∀ uid, Allows S (fun t => .ok (t.deleteAllByUserId uid)))
    (ht : ∀ token, Allows S (Tables.saveResetToken token))
    (email : String) (ip : Option String) (d : RequestResetDraws) :
    Keeps (overDb S) (requestReset g faults email ip d) := by
  refine keeps_handle hS
    (keeps_bind hS (keeps_requestPasswordReset hS hev hd ht _ _) (fun _ => keeps_pure hS _)) ?_
  intro e
  cases e <;> first | exact keeps_pure hS _ | exact keeps_raise hS _

theorem keeps_reset (hev : ∀ row, Allows S (fun _ => .ok (.insertEvent row)))
    (hu : ∀ user : User g.unicode, Allows S (Tables.saveUser user))
    (ht : ∀ token, Allows S (Tables.saveResetToken token))
    (token newPassword : String) (ip : Option String) (d : ResetDraws) :
    Keeps (overDb S) (reset g faults token newPassword ip d) := by
  refine keeps_handle hS
    (keeps_bind hS (keeps_resetPassword hS hev hu ht _ _) (fun _ => keeps_pure hS _)) ?_
  intro e
  cases e <;> first | exact keeps_pure hS _ | exact keeps_raise hS _

theorem keeps_me (header : String) : Keeps (overDb S) (me g faults header) := by
  unfold me
  cases bearerToken header with
  | none => exact keeps_pure hS _
  | some token =>
    simp only
    split_ifs
    · exact keeps_pure hS _
    · refine keeps_bind hS (keeps_tryDecode hS) (fun decoded => ?_)
      cases decoded with
      | none => exact keeps_pure hS _
      | some claims =>
        simp only
        split_ifs
        · exact keeps_pure hS _
        · refine keeps_bind hS (keeps_command hS) (fun valid => ?_)
          split_ifs
          · exact keeps_pure hS _
          · cases UUID.parse claims.sub with
            | none => exact keeps_raise hS _
            | some userId =>
              refine keeps_bind hS (keeps_query hS) (fun found => ?_)
              cases found with
              | none => exact keeps_pure hS _
              | some user =>
                simp only
                split_ifs <;> exact keeps_pure hS _

theorem keeps_resolve (hev : ∀ row, Allows S (fun _ => .ok (.insertEvent row)))
    (hu : ∀ user : User g.unicode, Allows S (Tables.saveUser user))
    (hd : ∀ uid, Allows S (fun t => .ok (t.deleteAllByUserId uid)))
    (ht : ∀ token, Allows S (Tables.saveResetToken token)) (r : Request) :
    Keeps (overDb S) (resolve g faults r) := by
  cases r with
  | register email password d => exact keeps_register hS hu _ _ _
  | login email password device ip d => exact keeps_login hS hev _ _ _ _ _
  | refreshToken token ip d => exact keeps_refresh hS hev _ _ _
  | revokeSession header sessionId ip d => exact keeps_revoke hS hev _ _ _ _
  | requestPasswordReset email ip d => exact keeps_requestReset hS hev hd ht _ _ _
  | resetPassword token newPassword ip d => exact keeps_reset hS hev hu ht _ _ _ _
  | me header => exact keeps_bind hS (keeps_me hS _) (fun _ => keeps_pure hS _)

end Handlers

theorem extends_discipline (P : Statement → Prop) : Discipline (Session.Extends P) :=
  ⟨Session.Extends.refl P, fun _ _ _ h h' => h.trans h', Session.Extends.rollback P⟩

/-- A property stays true of what is committed and of what the session sees. -/
def Preserving (Q : Tables → Prop) (s s' : Session Tables Statement) : Prop :=
  Q s.committed → Q (s.view Statement.apply) → Q s'.committed ∧ Q (s'.view Statement.apply)

theorem preserving_discipline (Q : Tables → Prop) : Discipline (Preserving Q) := by
  refine ⟨fun s hc hv => ⟨hc, hv⟩, ?_, fun s hc _ => ⟨hc, hc⟩⟩
  intro s t v h h' hc hv
  obtain ⟨hc', hv'⟩ := h hc hv
  exact h' hc' hv'

theorem allows_preserving {Q : Tables → Prop} {f : Tables → Except Exn Statement}
    (hf : ∀ t stmt, Q t → f t = .ok stmt → Q (stmt.apply t)) : Allows (Preserving Q) f := by
  intro s stmt h hc hv
  refine ⟨hc, ?_⟩
  rw [Session.view_flush]
  exact hf _ _ hv h

/-- What every flush of a scope preserves holds of the tables it leaves. -/
theorem requestScope_preserving {α : Type} {Q : Tables → Prop} {m : AuthM α}
    (hm : Keeps (overDb (Preserving Q)) m) {w : World} (hw : w.db.Fresh) (h : Q w.db.committed) :
    Q (requestScope m w).2.db.committed := by
  have hk := hm { w with commands := 0 } h (by rw [Session.view_fresh _ hw]; exact h)
  unfold requestScope
  cases hr : m { w with commands := 0 } with
  | mk x w' =>
    rw [hr] at hk
    cases x with
    | error e => exact hk.1
    | ok a =>
      change Q (if _ then _ else _)
      split_ifs
      · exact hk.1
      · exact hk.2

theorem requestScope_fresh {α : Type} (m : AuthM α) (w : World) : (requestScope m w).2.db.Fresh := by
  unfold requestScope
  cases m { w with commands := 0 } with
  | mk x w' => cases x <;> exact ⟨rfl, rfl⟩

theorem after_preserving {Q : Tables → Prop} (g : GlobalContainer) (faults : Faults)
    (hev : ∀ t row, Q t → Q ((Statement.insertEvent row).apply t))
    (hu : ∀ t (user : User g.unicode) stmt, Q t → Tables.saveUser user t = .ok stmt → Q (stmt.apply t))
    (hd : ∀ t uid, Q t → Q ((t.deleteAllByUserId uid).apply t))
    (ht : ∀ t token stmt, Q t → Tables.saveResetToken token t = .ok stmt → Q (stmt.apply t))
    (r : Request) {w : World} (hw : w.db.Fresh) (h : Q w.db.committed) :
    Q (after g faults r w).db.committed := by
  have hS := preserving_discipline Q
  have hr : Keeps (overDb (Preserving Q)) (resolve g faults r) := keeps_resolve hS
    (fun row => allows_preserving fun t stmt hq hs => Except.ok.inj hs ▸ hev t row hq)
    (fun user => allows_preserving fun t stmt hq hs => hu t user stmt hq hs)
    (fun uid => allows_preserving fun t stmt hq hs => Except.ok.inj hs ▸ hd t uid hq)
    (fun token => allows_preserving fun t stmt hq hs => ht t token stmt hq hs) r
  exact requestScope_preserving (keeps_handle hS hr (fun e => keeps_pure hS _)) hw h

theorem after_wellFormed (g : GlobalContainer) (faults : Faults) (r : Request) {w : World}
    (hw : w.db.Fresh) (h : w.db.committed.WellFormed g.unicode) :
    (after g faults r w).db.committed.WellFormed g.unicode :=
  after_preserving g faults (fun _ row ht => ht.insertEvent row) (fun _ _ _ ht hs => ht.saveUser hs)
    (fun _ uid ht => ht.deleteAll uid) (fun _ _ _ ht hs => ht.saveResetToken hs) r hw h

theorem after_fresh (g : GlobalContainer) (faults : Faults) (r : Request) (w : World) :
    (after g faults r w).db.Fresh := by
  rw [after_eq]
  exact Session.commit_fresh _ _

/-- Login, refresh, revocation and `me` write audit events only. -/
def auditOnly : Request → Bool
  | .login _ _ _ _ _ => true
  | .refreshToken _ _ _ => true
  | .revokeSession _ _ _ _ => true
  | .me _ => true
  | _ => false

theorem allows_event (row : AuthEventModel) :
    Allows (Session.Extends (fun stmt => ∃ row, stmt = .insertEvent row))
      (fun _ => .ok (.insertEvent row)) := by
  intro s stmt h
  rw [← Except.ok.inj h]
  exact Session.Extends.flush ⟨row, rfl⟩ s

theorem after_sameAccounts (g : GlobalContainer) (faults : Faults) {r : Request}
    (hr : auditOnly r = true) {w : World} (hw : w.db.Fresh) :
    (after g faults r w).db.committed.SameAccounts w.db.committed := by
  have hS := extends_discipline (fun stmt => ∃ row, stmt = Statement.insertEvent row)
  have hk : Keeps (overDb (Session.Extends (fun stmt => ∃ row, stmt = Statement.insertEvent row)))
      (resolve g faults r) := by
    cases r with
    | login => exact keeps_login hS allows_event _ _ _ _ _
    | refreshToken => exact keeps_refresh hS allows_event _ _ _
    | revokeSession => exact keeps_revoke hS allows_event _ _ _ _
    | me => exact keeps_bind hS (keeps_me hS _) (fun _ => keeps_pure hS _)
    | register => simp [auditOnly] at hr
    | requestPasswordReset => simp [auditOnly] at hr
    | resetPassword => simp [auditOnly] at hr
  rw [after_eq]
  refine Session.Extends.after_commit Statement.apply Tables.SameAccounts.refl
    (fun _ _ _ h h' => h.trans h') ?_ hw (hk { w with commands := 0 })
  rintro stmt t ⟨row, rfl⟩
  exact ⟨rfl, rfl⟩

end AuthService.SessionDiscipline
