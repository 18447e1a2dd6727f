import AuthService.CredentialOrigins
import AuthService.RequestThreads

set_option autoImplicit false

/-! Where the keys of the token store come from when requests of every kind run next to each
other. -/
namespace AuthService.ThreadOrigins
open Uuids PythonText DomainModel KeyedRows AccountTables Transactions ExpiringMaps RedisSessions
open RequestPorts RedisTokenStore CommandHandlers LabelledRuns ThreadPools ReadCommitted RequestTriples
open CredentialOrigins SessionThreads PasswordThreads RegistrationThreads RequestThreads

/-- What the thread is about to write, or has written, is of a pair that `P` relates. -/
def Backed (P : UUID → UUID → Prop) : SessionThread → Prop
  | .login userId _ d => P userId d.sessionId
  | .claimed _ _ sid => ∃ uid, P uid sid
  | .rotating _ _ sid userId _ => P userId sid
  | .refreshed _ _ sid => ∃ uid, P uid sid
  | _ => True

section Session
variable {g : GlobalContainer} {P P' : UUID → UUID → Prop} {r r' : Redis} {t t' : SessionThread}

theorem Backed.mono (hP : ∀ uid sid, P uid sid → P' uid sid) (h : Backed P t) : Backed P' t := by
  cases t with
  | login userId device d => exact hP _ _ h
  | claimed token d sid =>
    obtain ⟨uid, hp⟩ := h
    exact ⟨uid, hP _ _ hp⟩
  | rotating token d sid userId data => exact hP _ _ h
  | refreshed token d sid =>
    obtain ⟨uid, hp⟩ := h
    exact ⟨uid, hP _ _ hp⟩
  | _ => trivial

theorem loop_backed (gone ids : List UUID) : Backed P (SessionThread.loop gone ids) := by
  cases ids <;> trivial

theorem afterGetdel_backed (h : Filed P r) (token : String) (d : RefreshDraws) :
    Backed P (SessionThread.afterGetdel token d (r.refresh.value token)) := by
  unfold SessionThread.afterGetdel
  cases hx : r.refresh.value token with
  | none => trivial
  | some x =>
    obtain ⟨uid, sid, rfl, hp⟩ := h.getdel hx
    simp only [Option.bind_some, splitColon_payload, parse_str]
    exact ⟨uid, hp⟩

theorem afterHgetall_backed (h : Filed P r) (token : String) (d : RefreshDraws) (sid : UUID) :
    Backed P (SessionThread.afterHgetall token d sid (r.session.value sid)) := by
  unfold SessionThread.afterHgetall
  cases hd : r.session.value sid with
  | none => trivial
  | some data =>
    cases hu : data.userId with
    | none =>
      simp only [hu]
      trivial
    | some uid =>
      simp only [hu]
      exact h.owner hd hu

theorem session_filed (hr : Filed P r) (ht : Backed P t) (h : t.step g r = some (r', t')) :
    Filed P r' ∧ Backed P t' := by
  cases t with
  | login userId device d =>
    cases h
    exact ⟨hr.create ht, trivial⟩
  | refresh token d =>
    cases h
    exact ⟨hr.shed (getdel_sheds token r), afterGetdel_backed hr token d⟩
  | claimed token d sid =>
    cases h
    exact ⟨hr, afterHgetall_backed hr token d sid⟩
  | rotating token d sid userId data =>
    cases h
    exact ⟨hr.rotate ht, userId, ht⟩
  | bearer userId jti sid =>
    cases h
    refine ⟨hr, ?_⟩
    unfold SessionThread.afterExists
    split_ifs <;> trivial
  | ownership userId sid =>
    cases h
    refine ⟨hr, ?_⟩
    unfold SessionThread.afterOwnership
    split
    · trivial
    · split_ifs <;> trivial
  | revokeHandler sid =>
    cases h
    exact ⟨hr, trivial⟩
  | revoke sid =>
    cases h
    refine ⟨hr, ?_⟩
    unfold SessionThread.afterRevokeRead
    split <;> trivial
  | revoking sid data =>
    cases h
    exact ⟨hr.shed (revokePipeline_sheds sid data r), trivial⟩
  | revokeAll userId =>
    cases h
    exact ⟨hr, trivial⟩
  | clearing userId ids =>
    cases h
    exact ⟨hr.shed ⟨rfl, fun _ _ => id, fun _ _ => id, fun _ _ => id⟩, loop_backed [] ids⟩
  | revokeEach gone ids =>
    cases ids with
    | nil => cases h
    | cons sid rest =>
      cases h
      refine ⟨hr, ?_⟩
      unfold SessionThread.afterEachRead
      split
      · exact loop_backed gone rest
      · trivial
  | revokingEach gone sid data rest =>
    cases h
    exact ⟨hr.shed (revokePipeline_sheds sid data r), loop_backed (sid :: gone) rest⟩
  | loggedIn _ => cases h
  | refreshed _ _ _ => cases h
  | refreshFailed => cases h
  | declined => cases h
  | returned _ => cases h

end Session

def Stay (t t' : Tables) : Prop := ∀ m ∈ t.users, ∃ m' ∈ t'.users, m'.id = m.id

theorem Stay.refl (t : Tables) : Stay t t := fun m hm => ⟨m, hm, rfl⟩

theorem Stay.trans {t t' t'' : Tables} (h : Stay t t') (h' : Stay t' t'') : Stay t t'' := by
  intro m hm
  obtain ⟨m', hm', hid⟩ := h m hm
  obtain ⟨m'', hm'', hid'⟩ := h' m' hm'
  exact ⟨m'', hm'', hid'.trans hid⟩

theorem statement_stay (stmt : Statement) (t : Tables) : Stay t (stmt.apply t) := by
  intro m hm
  cases stmt with
  | insertUser row => exact ⟨m, List.mem_append_left _ hm, rfl⟩
  | updateUser old new =>
    refine ⟨_, mem_amend.2 ⟨m, hm, rfl⟩, ?_⟩
    split_ifs <;> rfl
  | insertResetToken | updateResetToken | deleteResetTokens | insertEvent => exact ⟨m, hm, rfl⟩

theorem replay_stay (log : List Statement) (t : Tables) : Stay t (replay Statement.apply log t) := by
  induction log generalizing t with
  | nil => exact .refl t
  | cons stmt log ih => exact (statement_stay stmt t).trans (ih _)

section Statements
variable {g : GlobalContainer} {ι : Type} [DecidableEq ι] {i : ι}

theorem register_stay {db db' : Database ι} {t t' : RegisterThread g}
    (h : t.step i db = some (db', t')) :
    Stay db.tables db'.tables := by
  cases t with
  | request command d createdAt =>
    cases h
    exact .refl _
  | saving command user =>
    simp only [RegisterThread.step, RegisterThread.insert] at h
    split_ifs at h
    split at h <;> cases h <;> exact .refl _
  | saved command stmt =>
    cases h
    exact replay_stay _ _
  | answered command answer => cases h

theorem password_stay {σ σ' : Stores ι} {t t' : PasswordThread g} (h : t.step i σ = some (σ', t')) :
    Stay σ.db.tables σ'.db.tables := by
  cases t with
  | opening command d row t =>
    simp only [PasswordThread.step] at h
    split at h <;> cases h
    · exact .refl _
    · exact replay_stay _ _
  | refusing event =>
    cases h
    exact replay_stay _ _
  | owned command d stored token owner user =>
    obtain ⟨⟨db', th⟩, hx, heq⟩ := Option.map_eq_some_iff.1 h
    cases heq
    simp only [(ResetThreads.updateUser_cases hx).1]
    exact .refl _
  | userSaved command d stored token owner s₁ =>
    obtain ⟨⟨db', th⟩, hx, heq⟩ := Option.map_eq_some_iff.1 h
    cases heq
    simp only [(ResetThreads.updateToken_cases hx).1]
    exact .refl _
  | revoking command d owner s₁ s₂ t =>
    simp only [PasswordThread.step] at h
    split at h <;> cases h
    · exact .refl _
    · exact replay_stay _ _
  | login | reset | consumed =>
    cases h
    exact .refl _
  | loggedIn | loginFailed | resetDone | resetFailed => cases h

theorem request_stay {σ σ' : Stores ι} {t t' : RequestThread g} (h : t.step i σ = some (σ', t')) :
    Stay σ.db.tables σ'.db.tables := by
  cases t with
  | register t =>
    obtain ⟨⟨db', t'⟩, hx, heq⟩ := Option.map_eq_some_iff.1 h
    cases heq
    exact register_stay hx
  | password t =>
    obtain ⟨⟨σ', t'⟩, hx, heq⟩ := Option.map_eq_some_iff.1 h
    cases heq
    exact password_stay hx
  | session t =>
    obtain ⟨x, -, heq⟩ := Option.map_eq_some_iff.1 h
    cases heq
    exact .refl _

end Statements

def running {g : GlobalContainer} : RequestThread g → Option SessionThread
  | .password (.opening _ _ _ t) => some t
  | .password (.revoking _ _ _ _ _ t) => some t
  | .session t => some t
  | _ => none

structure RequestBacked {g : GlobalContainer} (P : UUID → UUID → Prop) (t : RequestThread g) :
    Prop where
  backed : ∀ s, running t = some s → Backed P s

def Verifies {g : GlobalContainer} (t : Tables) (uid sid : UUID) (thread : RequestThread g) : Prop :=
  ∃ command d row email, thread = .password (.login command d) ∧ d.sessionId = sid ∧
    Email.new g.unicode command.email = .ok email ∧ row ∈ t.users ∧ row.id = uid ∧
    row.email = email.value ∧ row.isActive = true ∧ verify g command.password row.hashedPassword = true

section Requests
variable {g : GlobalContainer} {ι : Type} [DecidableEq ι] {i : ι} {P P' : UUID → UUID → Prop}

theorem RequestBacked.mono (hP : ∀ uid sid, P uid sid → P' uid sid) {t : RequestThread g}
    (h : RequestBacked P t) : RequestBacked P' t :=
  ⟨fun s hs => Backed.mono hP (h.backed s hs)⟩

theorem RequestBacked.idle {t : RequestThread g} (h : running t = none) : RequestBacked P t := by
  refine ⟨fun s hs => ?_⟩
  rw [h] at hs
  cases hs

theorem RequestBacked.run {t : RequestThread g} {s : SessionThread} (h : running t = some s)
    (hs : Backed P s) : RequestBacked P t := by
  refine ⟨fun s' hs' => ?_⟩
  obtain rfl := Option.some.inj (h.symm.trans hs')
  exact hs

theorem selectUser_backed {t : Tables} (now : ℕ) {command : AuthenticateUserCommand} {d : LoginDraws}
    (hP : ∀ uid sid, Verifies t uid sid (RequestThread.password (.login command d : PasswordThread g)) →
      P uid sid) :
    RequestBacked P (.password (PasswordThread.selectUser t now command d : PasswordThread g)) := by
  unfold PasswordThread.selectUser
  cases hemail : Email.new g.unicode command.email with
  | error e => exact .idle rfl
  | ok email =>
    cases hrow : lookup UserModel.email email.value t.users with
    | none =>
      simp only [hrow]
      exact .idle rfl
    | some row =>
      obtain ⟨hmem, hname⟩ := lookup_some hrow
      cases huser : row.toDomain g.unicode with
      | error e =>
        simp only [hrow, huser]
        exact .idle rfl
      | ok user =>
        obtain ⟨hid, hhash, hactive, -, -⟩ := toDomain_ok huser
        simp only [hrow, huser]
        split_ifs with hinactive hwrong
        · exact .idle rfl
        · exact .idle rfl
        · refine .run rfl (hP user.id d.sessionId
            ⟨command, d, row, email, rfl, rfl, hemail, hmem, hid.symm, hname, ?_, ?_⟩)
          · rw [← hactive]
            simpa using hinactive
          · rw [← hhash]
            simpa using hwrong

theorem password_filed (hP : ∀ uid sid, P uid sid → P' uid sid) {σ σ' : Stores ι}
    {t t' : PasswordThread g} (hr : Filed P σ.redis) (ht : RequestBacked P (.password t))
    (hverified : ∀ uid sid, Verifies σ.db.tables uid sid (.password t) → P' uid sid)
    (h : t.step i σ = some (σ', t')) : Filed P' σ'.redis ∧ RequestBacked P' (.password t') := by
  have hr' := hr.mono hP
  cases t with
  | login command d =>
    cases h
    exact ⟨hr', selectUser_backed σ.redis.now hverified⟩
  | opening command d row t =>
    simp only [PasswordThread.step] at h
    split at h <;> cases h
    · rename_i hstep
      obtain ⟨hfiled, hbacked⟩ := session_filed hr' (Backed.mono hP (ht.backed _ rfl)) hstep
      exact ⟨hfiled, .run rfl hbacked⟩
    · exact ⟨hr', .idle rfl⟩
  | refusing event =>
    cases h
    exact ⟨hr', .idle rfl⟩
  | reset command d =>
    cases h
    refine ⟨hr', ?_⟩
    rcases ResetThreads.selectToken_cases (g := g) σ.db.tables σ.redis.now command d with
      hnext | ⟨-, stored, -, -, hnext⟩
    all_goals
      rw [hnext]
      exact .idle rfl
  | consumed command d stored token =>
    cases h
    refine ⟨hr', ?_⟩
    rcases ResetThreads.selectOwner_cases (g := g) σ.db.tables command d stored token with
      hnext | ⟨owner, user, -, -, hnext⟩
    all_goals
      rw [hnext]
      exact .idle rfl
  | owned command d stored token owner user =>
    obtain ⟨⟨db', th⟩, hx, heq⟩ := Option.map_eq_some_iff.1 h
    cases heq
    refine ⟨hr', ?_⟩
    rcases (ResetThreads.updateUser_cases hx).2 with rfl | rfl <;> exact .idle rfl
  | userSaved command d stored token owner s₁ =>
    obtain ⟨⟨db', th⟩, hx, heq⟩ := Option.map_eq_some_iff.1 h
    cases heq
    refine ⟨hr', ?_⟩
    rcases (ResetThreads.updateToken_cases hx).2 with rfl | rfl
    · exact .idle rfl
    · exact .run rfl trivial
  | revoking command d owner s₁ s₂ t =>
    simp only [PasswordThread.step] at h
    split at h <;> cases h
    · rename_i hstep
      obtain ⟨hfiled, hbacked⟩ := session_filed hr' (Backed.mono hP (ht.backed _ rfl)) hstep
      exact ⟨hfiled, .run rfl hbacked⟩
    · exact ⟨hr', .idle rfl⟩
  | loggedIn | loginFailed | resetDone | resetFailed => cases h

theorem request_filed (hP : ∀ uid sid, P uid sid → P' uid sid) {σ σ' : Stores ι}
    {t t' : RequestThread g} (hr : Filed P σ.redis) (ht : RequestBacked P t)
    (hverified : ∀ uid sid, Verifies σ.db.tables uid sid t → P' uid sid)
    (h : t.step i σ = some (σ', t')) : Filed P' σ'.redis ∧ RequestBacked P' t' := by
  cases t with
  | register t =>
    obtain ⟨x, -, heq⟩ := Option.map_eq_some_iff.1 h
    cases heq
    exact ⟨hr.mono hP, .idle rfl⟩
  | password t =>
    obtain ⟨⟨σ', t'⟩, hx, heq⟩ := Option.map_eq_some_iff.1 h
    cases heq
    exact password_filed hP hr ht hverified hx
  | session t =>
    obtain ⟨⟨r', t'⟩, hx, heq⟩ := Option.map_eq_some_iff.1 h
    cases heq
    obtain ⟨hfiled, hbacked⟩ := session_filed (hr.mono hP) (Backed.mono hP (ht.backed _ rfl)) hx
    exact ⟨hfiled, .run rfl hbacked⟩

end Requests

section Runs
variable {g : GlobalContainer} {ι : Type}

/-- The step is the SELECT of a login to the account that opens the session. -/
def SignsIn (uid sid : UUID) (x : Pool ι (Stores ι) (RequestThread g) × Turn ι) : Prop :=
  ∃ i, x.2 = .run i ∧ Verifies x.1.shared.db.tables uid sid (x.1.thread i)

def SignedIn (p : List (Pool ι (Stores ι) (RequestThread g) × Turn ι)) (uid sid : UUID) : Prop :=
  ∃ x ∈ p, SignsIn uid sid x

theorem SignedIn.cons {p : List (Pool ι (Stores ι) (RequestThread g) × Turn ι)} {uid sid : UUID}
    (h : SignedIn p uid sid) (x : Pool ι (Stores ι) (RequestThread g) × Turn ι) :
    SignedIn (x :: p) uid sid := by
  obtain ⟨y, hy, hsigns⟩ := h
  exact ⟨y, List.mem_cons_of_mem _ hy, hsigns⟩

variable [DecidableEq ι]

/-- The keys and the threads go back to logins, whose accounts are still there. -/
structure Originated (p : List (Pool ι (Stores ι) (RequestThread g) × Turn ι))
    (c : Pool ι (Stores ι) (RequestThread g)) : Prop where
  filed : Filed (SignedIn p) c.shared.redis
  backed : ∀ i, RequestBacked (SignedIn p) (c.thread i)
  accounts : ∀ uid sid, SignedIn p uid sid → ∃ m ∈ c.shared.db.tables.users, m.id = uid

theorem evict_sheds (k : Key) (r : Redis) : Sheds r (r.evict k) := by
  cases k with
  | access jti => exact ⟨rfl, fun _ _ => remove_le, fun _ _ => id, fun _ _ => id⟩
  | refresh token => exact ⟨rfl, fun _ _ => id, fun _ _ => remove_le, fun _ _ => id⟩
  | session sid => exact ⟨rfl, fun _ _ => id, fun _ _ => id, fun _ _ => remove_le⟩
  | sessions uid => exact ⟨rfl, fun _ _ => id, fun _ _ => id, fun _ _ => id⟩

theorem filed_vanishing {P : UUID → UUID → Prop} {r r' : Redis} (h : Filed P r) (hr : vanishing r r') :
    Filed P r' := by
  rcases hr with ⟨d, rfl⟩ | ⟨k, rfl⟩
  · exact h.elapse d
  · exact h.shed (evict_sheds k r)

theorem originated_step {p : List (Pool ι (Stores ι) (RequestThread g) × Turn ι)}
    {c d : Pool ι (Stores ι) (RequestThread g)} {l : Turn ι} (h : Originated p c)
    (hs : (requestPool g ι).step c l d) : Originated ((c, l) :: p) d := by
  have hmono : ∀ uid sid, SignedIn p uid sid → SignedIn ((c, l) :: p) uid sid := fun _ _ hp => hp.cons _
  cases hs with
  | @env σ henv =>
    obtain ⟨hdb, hredis⟩ := henv
    refine ⟨filed_vanishing (h.filed.mono hmono) hredis, fun i => (h.backed i).mono hmono, ?_⟩
    rintro uid sid ⟨x, hx, i, hi, hverifies⟩
    rcases List.mem_cons.1 hx with rfl | hx
    · cases hi
    · simp only [hdb]
      exact h.accounts uid sid ⟨x, hx, i, hi, hverifies⟩
  | @run σ t i hrun =>
    have hstay := request_stay hrun
    obtain ⟨hfiled, hbacked⟩ := request_filed hmono h.filed (h.backed i)
      (fun uid sid hv => ⟨_, List.mem_cons_self, i, rfl, hv⟩) hrun
    refine ⟨hfiled, fun j => ?_, ?_⟩
    · by_cases hj : j = i
      · subst hj
        simpa only [Function.update_self] using hbacked
      · simpa only [Function.update_of_ne hj] using (h.backed j).mono hmono
    · rintro uid sid ⟨x, hx, j, hj, hverifies⟩
      have hbefore : ∃ m ∈ c.shared.db.tables.users, m.id = uid := by
        rcases List.mem_cons.1 hx with rfl | hx
        · obtain ⟨_, _, row, _, -, -, -, hmem, hid, -⟩ := hverifies
          exact ⟨row, hmem, hid⟩
        · exact h.accounts uid sid ⟨x, hx, j, hj, hverifies⟩
      obtain ⟨m, hm, rfl⟩ := hbefore
      exact hstay m hm

/-- Whatever the order of the statements and Redis commands of all requests: every key of the
token store, and every session that a refresh has renewed, goes back to a login that has read the
account with a password that matches, and the account is still there. -/
theorem keys_signed_in {c d : Pool ι (Stores ι) (RequestThread g)}
    {p : List (Pool ι (Stores ι) (RequestThread g) × Turn ι)} (hc : Launch c)
    (hblank : ∃ now, c.shared.redis = Redis.blank now)
    (hlogins : ∀ i userId device dr, c.thread i ≠ .session (.login userId device dr))
    (h : Runs (requestPool g ι) c p d) :
    Filed (SignedIn p) d.shared.redis ∧
      (∀ i token dr sid, d.thread i = .session (.refreshed token dr sid) → ∃ uid, SignedIn p uid sid) ∧
      ∀ uid sid, SignedIn p uid sid → ∃ m ∈ d.shared.db.tables.users, m.id = uid := by
  have hstart : Originated [] c := by
    refine ⟨?_, fun i => ?_, ?_⟩
    · obtain ⟨now, hnow⟩ := hblank
      rw [hnow]
      exact .blank _ now
    · have hi := hc.start i
      have hlogin := hlogins i
      refine ⟨fun s hs => ?_⟩
      generalize c.thread i = t at hi hlogin hs
      cases t with
      | register t => cases hs
      | password t => cases t <;> cases hi <;> cases hs
      | session t =>
        obtain rfl := Option.some.inj hs
        cases t <;> first | exact absurd rfl (hlogin _ _ _) | trivial
    · rintro uid sid ⟨x, hx, -⟩
      exact absurd hx List.not_mem_nil
  obtain ⟨hfiled, hbacked, haccounts⟩ :=
    h.history Originated (fun _ _ _ _ hI hs => originated_step hI hs) hstart
  refine ⟨hfiled, fun i token dr sid hi => ?_, haccounts⟩
  have hthread := hbacked i
  rw [hi] at hthread
  exact hthread.backed _ rfl

end Runs

section Sample
open SampleContainer

def loginFirst : List (Move Bool (Stores Bool)) :=
  [.run false, .run true, .run true, .run true, .run false]

theorem keys_signed_in_login : ∃ p d, Runs (requestPool sample Bool) twoRequests p d ∧
    (d.shared.redis.session loginDraws.sessionId).isSome = true ∧
    Filed (SignedIn p) d.shared.redis := by
  have hplay : (play (fun i σ t => RequestThread.step i σ t) loginFirst twoRequests).any
      (fun d => (d.shared.redis.session loginDraws.sessionId).isSome) = true := by decide +kernel
  obtain ⟨d, hd, hopened⟩ := (Option.any_eq_true _ _).1 hplay
  obtain ⟨p, hp⟩ : ∃ p, Runs (requestPool sample Bool) twoRequests p d :=
    play_runs (fun _ _ _ _ _ h => h) (by simp [loginFirst]) hd
  refine ⟨p, d, hp, hopened,
    (keys_signed_in ⟨fun _ => rfl, fun i => by cases i <;> rfl⟩ ⟨_, rfl⟩ ?_ hp).1⟩
  intro i userId device dr hi
  cases i <;> cases hi

end Sample

end AuthService.ThreadOrigins
