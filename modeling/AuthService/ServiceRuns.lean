import AuthService.SessionDiscipline
import AuthService.SessionStoreRuns

set_option autoImplicit false

/-! Runs of the whole service: requests handled one after the other, with time passing
between them, and what one request does to the sessions and answers. -/
namespace AuthService.ServiceRuns
open Uuids PythonText DomainModel KeyedRows AccountTables Transactions FallibleState Fallible
open LabelledRuns ExpiringMaps RedisSessions RequestPorts RedisTokenStore CommandHandlers
open GraphqlResolvers HandlerRuns SessionDiscipline CredentialLedgers SessionCoupling SessionStoreRuns

/-- The world between requests, and what was drawn at random so far. -/
structure ServiceState where
  world : World
  drawn : Drawn
  rawTokens : List String
  tokenIds : List UUID

inductive Event where
  | wait (d : ℕ)
  | request (r : Request)

def ServiceState.advance (d : ℕ) (s : ServiceState) : ServiceState :=
  { s with world := { s.world with redis := s.world.redis.advance d } }

def FreshDraws (r : Request) (s : ServiceState) : Prop :=
  match r with
  | .login _ _ _ _ d => d.sessionId ∉ s.drawn.sessions.map Prod.fst ∧ d.jti.str ∉ s.drawn.jtis ∧
      d.refreshToken.text ∉ s.drawn.refreshTokens
  | .refreshToken _ _ d => d.jti.str ∉ s.drawn.jtis ∧ d.refreshToken.text ∉ s.drawn.refreshTokens
  | .requestPasswordReset _ _ d => d.rawToken.text ∉ s.rawTokens ∧ d.tokenId ∉ s.tokenIds
  | _ => True

def recordDraws (r : Request) (w' : World) (s : ServiceState) : ServiceState :=
  match r with
  | .login _ _ _ _ d =>
    ⟨w', s.drawn.opened d.sessionId d.jti.str d.refreshToken.text w'.redis, s.rawTokens, s.tokenIds⟩
  | .refreshToken _ _ d => ⟨w', s.drawn.renewed d.jti.str d.refreshToken.text, s.rawTokens, s.tokenIds⟩
  | .requestPasswordReset _ _ d =>
    ⟨w', s.drawn, d.rawToken.text :: s.rawTokens, d.tokenId :: s.tokenIds⟩
  | _ => ⟨w', s.drawn, s.rawTokens, s.tokenIds⟩

theorem recordDraws_world (r : Request) (w' : World) (s : ServiceState) :
    (recordDraws r w' s).world = w' := by
  cases r <;> rfl

/-- The service starts with an empty Redis, any well-formed users and no reset tokens. -/
structure Starts (g : GlobalContainer) (s : ServiceState) : Prop where
  redis : ∃ now, s.world.redis = Redis.blank now
  session : s.world.db.Fresh
  tables : s.world.db.committed.WellFormed g.unicode
  noTokens : s.world.db.committed.passwordResetTokens = []
  unsigned : s.world.signed = []
  undrawn : s.drawn = Drawn.none
  noRaw : s.rawTokens = []

inductive ServiceStep (g : GlobalContainer) : ServiceState → Event → ServiceState → Prop where
  | wait (s : ServiceState) (d : ℕ) : ServiceStep g s (.wait d) (s.advance d)
  | request (s : ServiceState) (r : Request) (fresh : FreshDraws r s) :
      ServiceStep g s (.request r) (recordDraws r (after g noFaults r s.world) s)

def service (g : GlobalContainer) : System ServiceState Event where
  init := Starts g
  step := ServiceStep g

def accessTokenOf : Answer → Option String
  | .authPayload token _ _ _ => some token
  | _ => none

def tokenIssued (g : GlobalContainer) (x : ServiceState × Event) : Option String :=
  match x.2 with
  | .request (.login email password device ip d) =>
    accessTokenOf (answer g noFaults (.login email password device ip d) x.1.world)
  | .request (.refreshToken token ip d) =>
    accessTokenOf (answer g noFaults (.refreshToken token ip d) x.1.world)
  | _ => none

theorem tokenIssued_login (g : GlobalContainer) (s : ServiceState) (email password : String)
    (device ip : Option String) (d : LoginDraws) :
    tokenIssued g (s, .request (.login email password device ip d)) =
      accessTokenOf (answer g noFaults (.login email password device ip d) s.world) := rfl

theorem tokenIssued_refresh (g : GlobalContainer) (s : ServiceState) (token : String)
    (ip : Option String) (d : RefreshDraws) :
    tokenIssued g (s, .request (.refreshToken token ip d)) =
      accessTokenOf (answer g noFaults (.refreshToken token ip d) s.world) := rfl

/-- The access token with the payload `c` was issued. -/
def Issues (g : GlobalContainer) (c : Claims) (x : ServiceState × Event) : Prop :=
  tokenIssued g x = some (g.encode c)

def IssuesIn (g : GlobalContainer) (s : UUID) (x : ServiceState × Event) : Prop :=
  ∃ c : Claims, c.sid = s.str ∧ Issues g c x

def Revokes (g : GlobalContainer) (s : UUID) (x : ServiceState × Event) : Prop :=
  ∃ header text ip d message, x.2 = .request (.revokeSession header text ip d) ∧
    UUID.parse text = some s ∧
    answer g noFaults (.revokeSession header text ip d) x.1.world = .operationResult true message

def ResetsUser (g : GlobalContainer) (u : UUID) (x : ServiceState × Event) : Prop :=
  ∃ token password ip d message row, x.2 = .request (.resetPassword token password ip d) ∧
    answer g noFaults (.resetPassword token password ip d) x.1.world = .operationResult true message ∧
    row ∈ x.1.world.db.committed.passwordResetTokens ∧ row.token = g.sha256 token ∧ row.userId = u

/-- Nothing that ends the current access token of the session. -/
def Spares (g : GlobalContainer) (s u : UUID) (x : ServiceState × Event) : Prop :=
  ¬ IssuesIn g s x ∧ ¬ Revokes g s x ∧ ¬ ResetsUser g u x

/-- A handler of exceptions that only builds an answer without success. -/
def Declines (h : Exn → AuthM Answer) : Prop :=
  ∀ e w, ∃ x, h e w = (x, w) ∧ (reported x).failed = true

section Wrapped
variable {g : GlobalContainer} {faults : Faults} {r : Request} {α : Type} {m : AuthM α}
  {f : α → Answer} {h : Exn → AuthM Answer}

theorem wrapped_run (hh : Declines h) (w : World) :
    (handle (m >>= fun a => pure (f a)) h w).2 = (m w).2 ∧
      (∀ a, (m w).1 = .ok a → (handle (m >>= fun a => pure (f a)) h w).1 = .ok (f a)) ∧
      ∀ e, (m w).1 = .error e →
        (reported (handle (m >>= fun a => pure (f a)) h w).1).failed = true := by
  cases hm : m w with
  | mk x w' =>
    cases x with
    | ok a =>
      have hr : handle (m >>= fun a => pure (f a)) h w = (.ok (f a), w') :=
        handle_ok ((bind_ok hm).trans (pure_run _ _))
      rw [hr]
      refine ⟨rfl, ?_, ?_⟩
      · rintro b hb
        rw [Except.ok.inj hb]
      · rintro e he
        simp at he
    | error e =>
      have hr : handle (m >>= fun a => pure (f a)) h w = h e w' := handle_error (bind_error hm)
      obtain ⟨x, hx, hfail⟩ := hh e w'
      rw [hr, hx]
      refine ⟨rfl, ?_, fun _ _ => hfail⟩
      rintro b hb
      simp at hb

theorem serve_wrapped (hres : resolve g faults r = handle (m >>= fun a => pure (f a)) h)
    (hh : Declines h) (w : World) :
    after g faults r w = { (m { w with commands := 0 }).2 with
        db := (m { w with commands := 0 }).2.db.commit Statement.apply } ∧
      (∀ a, (m { w with commands := 0 }).1 = .ok a → answer g faults r w = f a) ∧
      ∀ e, (m { w with commands := 0 }).1 = .error e → (answer g faults r w).failed = true := by
  obtain ⟨h1, h2, h3⟩ := wrapped_run (m := m) (f := f) hh { w with commands := 0 }
  rw [after_eq, answer_eq, hres, h1]
  exact ⟨rfl, fun a ha => by rw [h2 a ha]; rfl, h3⟩

end Wrapped

section Catches
variable (g : GlobalContainer) (faults : Faults) (w : World)

theorem registerExcept_declines : Declines registerExcept := by
  intro e w
  cases e <;> exact ⟨_, rfl, rfl⟩

theorem loginExcept_declines : Declines loginExcept := by
  intro e w
  cases e <;> exact ⟨_, rfl, rfl⟩

theorem refreshExcept_declines : Declines refreshExcept := by
  intro e w
  cases e <;> exact ⟨_, rfl, rfl⟩

theorem requestResetExcept_declines : Declines requestResetExcept := by
  intro e w
  cases e <;> exact ⟨_, rfl, rfl⟩

theorem resetExcept_declines : Declines resetExcept := by
  intro e w
  cases e <;> exact ⟨_, rfl, rfl⟩

theorem serve_register (email password : String) (d : RegisterDraws) :
    let out := registerUser g faults ⟨email, password⟩ d { w with commands := 0 }
    after g faults (.register email password d) w =
        { out.2 with db := out.2.db.commit Statement.apply } ∧
      (∀ a, out.1 = .ok a → answer g faults (.register email password d) w =
        .operationResult true "User registered successfully") ∧
      ∀ e, out.1 = .error e → (answer g faults (.register email password d) w).failed = true :=
  serve_wrapped (h := registerExcept) rfl registerExcept_declines w

theorem serve_login (email password : String) (device ip : Option String) (d : LoginDraws) :
    let out := authenticateUser g faults ⟨email, password, device, ip⟩ d { w with commands := 0 }
    after g faults (.login email password device ip d) w =
        { out.2 with db := out.2.db.commit Statement.apply } ∧
      (∀ a, out.1 = .ok a →
        answer g faults (.login email password device ip d) w = TokenPairDTO.toPayload a) ∧
      ∀ e, out.1 = .error e →
        (answer g faults (.login email password device ip d) w).failed = true :=
  serve_wrapped (h := loginExcept) rfl loginExcept_declines w

theorem serve_refresh (token : String) (ip : Option String) (d : RefreshDraws) :
    let out := refreshToken g faults ⟨token, ip⟩ d { w with commands := 0 }
    after g faults (.refreshToken token ip d) w =
        { out.2 with db := out.2.db.commit Statement.apply } ∧
      (∀ a, out.1 = .ok a →
        answer g faults (.refreshToken token ip d) w = TokenPairDTO.toPayload a) ∧
      ∀ e, out.1 = .error e → (answer g faults (.refreshToken token ip d) w).failed = true :=
  serve_wrapped (h := refreshExcept) rfl refreshExcept_declines w

theorem serve_requestReset (email : String) (ip : Option String) (d : RequestResetDraws) :
    let out := requestPasswordReset g faults ⟨email, ip⟩ d { w with commands := 0 }
    after g faults (.requestPasswordReset email ip d) w =
        { out.2 with db := out.2.db.commit Statement.apply } ∧
      (∀ a, out.1 = .ok a → answer g faults (.requestPasswordReset email ip d) w =
        .operationResult true "If this email is registered, a reset link has been sent") ∧
      ∀ e, out.1 = .error e →
        (answer g faults (.requestPasswordReset email ip d) w).failed = true :=
  serve_wrapped (h := requestResetExcept) rfl requestResetExcept_declines w

theorem serve_reset (token password : String) (ip : Option String) (d : ResetDraws) :
    let out := resetPassword g faults ⟨token, password, ip⟩ d { w with commands := 0 }
    after g faults (.resetPassword token password ip d) w =
        { out.2 with db := out.2.db.commit Statement.apply } ∧
      (∀ a, out.1 = .ok a → answer g faults (.resetPassword token password ip d) w =
        .operationResult true "Password reset successfully") ∧
      ∀ e, out.1 = .error e →
        (answer g faults (.resetPassword token password ip d) w).failed = true :=
  serve_wrapped (h := resetExcept) rfl resetExcept_declines w

end Catches

def SameStore (w w' : World) : Prop := w'.redis = w.redis ∧ w'.signed = w.signed

section SameStore
variable {g : GlobalContainer} {faults : Faults}

theorem sameStore_refl (w : World) : SameStore w w := ⟨rfl, rfl⟩

theorem sameStore_bind {α β : Type} {m : AuthM α} {f : α → AuthM β} (hm : Keeps SameStore m)
    (hf : ∀ a, Keeps SameStore (f a)) : Keeps SameStore (m >>= f) :=
  Keeps.bind (fun _ _ _ h h' => ⟨h'.1.trans h.1, h'.2.trans h.2⟩) hm hf

theorem sameStore_pure {α : Type} (a : α) : Keeps SameStore (pure a : AuthM α) :=
  Keeps.pure sameStore_refl a

theorem sameStore_raise {α : Type} (e : Exn) : Keeps SameStore (raise e : AuthM α) :=
  Keeps.raise sameStore_refl e

theorem sameStore_ofExcept {α : Type} (x : Except Exn α) : Keeps SameStore (ofExcept x : AuthM α) :=
  Keeps.ofExcept sameStore_refl x

theorem sameStore_now : Keeps SameStore now := sameStore_refl

theorem sameStore_port {α : Type} {c : PortCall} {m : AuthM α} (hm : Keeps SameStore m) :
    Keeps SameStore (port faults c m) := by
  intro w
  unfold port
  cases faults c with
  | none =>
    simp only
    split_ifs
    · exact sameStore_refl w
    · exact hm w
  | some f => cases f <;> exact ⟨rfl, rfl⟩

theorem sameStore_query {α : Type} {c : PortCall} {f : Tables → Except Exn α} :
    Keeps SameStore (query faults c f) :=
  sameStore_port sameStore_refl

theorem sameStore_flush {c : PortCall} {f : Tables → Except Exn Statement} :
    Keeps SameStore (flush faults c f) := by
  refine sameStore_port ?_
  intro w
  simp only
  cases f w.tables <;> exact ⟨rfl, rfl⟩

theorem sameStore_registerUser (cmd : RegisterUserCommand) (d : RegisterDraws) :
    Keeps SameStore (registerUser g faults cmd d) := by
  refine sameStore_bind (sameStore_ofExcept _) (fun email => ?_)
  refine sameStore_bind (sameStore_ofExcept _) (fun _ => ?_)
  refine sameStore_bind sameStore_query (fun existing => ?_)
  cases existing with
  | some _ => exact sameStore_raise _
  | none => exact sameStore_bind sameStore_now (fun _ => sameStore_flush)

theorem sameStore_requestPasswordReset (cmd : RequestPasswordResetCommand) (d : RequestResetDraws) :
    Keeps SameStore (requestPasswordReset g faults cmd d) := by
  refine sameStore_bind (sameStore_ofExcept _) (fun email => ?_)
  refine sameStore_bind sameStore_query (fun found => ?_)
  cases found with
  | none => exact sameStore_raise _
  | some user =>
    refine sameStore_bind sameStore_flush (fun _ => ?_)
    refine sameStore_bind sameStore_now (fun _ => ?_)
    refine sameStore_bind sameStore_flush (fun _ => ?_)
    refine sameStore_bind ?_ (fun _ => ?_)
    · intro w
      unfold sendResetEmail
      cases faults .sendResetEmail <;> exact ⟨rfl, rfl⟩
    · refine sameStore_bind sameStore_now (fun _ => ?_)
      intro w
      rw [tryRecord_run]
      exact ⟨audited_redis _, audited_signed _⟩

def decoded (g : GlobalContainer) (token : String) (w : World) : Option Claims :=
  (w.signed.find? (fun c => g.encode c = token)).filter (fun c => w.redis.now < seconds c.exp)

theorem tryDecode_run (token : String) (w : World) :
    tryDecode g token w = (.ok (decoded g token w), w) := by
  unfold tryDecode decoded
  cases hf : w.signed.find? (fun c => g.encode c = token) with
  | none =>
    have hd : decodeAccessToken g token w = (.error (.invalidTokenError "Invalid access token"),
      w) := by
      simp only [decodeAccessToken, hf]
    rw [handle_error (bind_error hd)]
    rfl
  | some c =>
    by_cases hc : w.redis.now < seconds c.exp
    · have hd : decodeAccessToken g token w = (.ok c, w) := by
        simp only [decodeAccessToken, hf, hc, ↓reduceIte]
      have hr : (decodeAccessToken g token >>= fun claims => pure (some claims)) w =
          (.ok (some c), w) :=
        (bind_ok hd).trans (pure_run _ _)
      rw [handle_ok hr]
      simp [Option.filter, hc]
    · have hd : decodeAccessToken g token w =
          (.error (.tokenExpiredError "Access token has expired"), w) := by
        simp only [decodeAccessToken, hf, hc, ↓reduceIte]
      rw [handle_error (bind_error hd)]
      simp [Option.filter, hc]

theorem decoded_eq_some {token : String} {w : World} {c : Claims} :
    decoded g token w = some c ↔ c ∈ w.signed ∧ g.encode c = token ∧ w.redis.now < seconds c.exp := by
  rw [decoded, Option.filter_eq_some_iff]
  constructor
  · rintro ⟨hf, hn⟩
    exact ⟨List.mem_of_find?_eq_some hf, by simpa using List.find?_some hf, by simpa using hn⟩
  · rintro ⟨hm, rfl, hn⟩
    refine ⟨?_, by simpa using hn⟩
    cases hf : w.signed.find? (fun c' => g.encode c' = g.encode c) with
    | none => exact absurd (List.find?_eq_none.1 hf c hm) (by simp)
    | some c' =>
      have he := List.find?_some hf
      rw [decide_eq_true_eq] at he
      rw [g.encode_injective he]

end SameStore

section Bearer
variable {g : GlobalContainer} {faults : Faults}

theorem isAccessJtiValid_run (hq : Quiet faults) (jti : String) (w : World) :
    isAccessJtiValid faults jti w = (.ok (w.redis.access jti).isSome, commanded w.redis 1 w) :=
  command_run hq

def meInfo (g : GlobalContainer) (header : String) (w : World) : Option UserInfo :=
  match (bearerToken header).bind (fun token => decoded g token w) with
  | none => none
  | some claims =>
    if (w.redis.access claims.jti).isSome = true then
      match (UUID.parse claims.sub).bind (fun id => lookup UserModel.id id w.tables.users) with
      | none => none
      | some m => if m.isActive = true then some ⟨m.id.str, m.email, m.isActive⟩ else none
    else none

theorem me_run (hq : Quiet faults) {w : World} (hdb : w.db.aborted = false)
    (ht : w.tables.WellFormed g.unicode) (hc : ∀ c ∈ w.signed, c.jti ≠ "" ∧ ∃ u : UUID, c.sub = u.str)
    (header : String) :
    ∃ n, me g faults header w = (.ok (meInfo g header w), commanded w.redis n w) := by
  unfold me meInfo
  cases hb : bearerToken header with
  | none => exact ⟨0, rfl⟩
  | some token =>
    simp only [Option.bind_some]
    by_cases hempty : token = ""
    · have hd : decoded g token w = none := by
        cases hd : decoded g token w with
        | none => rfl
        | some c => exact absurd ((decoded_eq_some.1 hd).2.1.trans hempty) (g.encode_ne_empty c)
      rw [if_pos hempty, hd]
      exact ⟨0, rfl⟩
    · rw [if_neg hempty, bind_ok (tryDecode_run token w)]
      cases hd : decoded g token w with
      | none => exact ⟨0, rfl⟩
      | some c =>
        obtain ⟨hjti, u, hsub⟩ := hc c (decoded_eq_some.1 hd).1
        have hne : ¬ (c.jti = "" ∨ c.sub = "") := by
          rintro (h | h)
          · exact hjti h
          · exact str_ne_empty u (hsub.symm.trans h)
        simp only [hne, ↓reduceIte]
        rw [bind_ok (isAccessJtiValid_run hq _ _)]
        cases ha : w.redis.access c.jti with
        | none =>
          refine ⟨1, ?_⟩
          simp
        | some e =>
          have hdb' : (commanded w.redis 1 w).db.aborted = false := hdb
          have hfind : findById g faults u (commanded w.redis 1 w) =
              ((commanded w.redis 1 w).tables.findById g.unicode u, commanded w.redis 1 w) :=
            query_run (hq .findById (by simp)) hdb'
          have htab : (commanded w.redis 1 w).tables = w.tables := rfl
          refine ⟨1, ?_⟩
          simp only [Option.isSome_some, Bool.true_eq_false, ↓reduceIte, hsub, parse_str,
            Option.bind_some]
          rw [bind_run, hfind, htab, Tables.findById]
          cases hl : lookup UserModel.id u w.tables.users with
          | none => rfl
          | some m =>
            obtain ⟨e', he', hdom⟩ := ht.toDomain (lookup_some hl).1
            simp only [hdom, Except.map]
            cases hact : m.isActive with
            | false => simp
            | true => simp [he']

/-- The header authenticates a user, and `text` names a live session of that user. -/
def Authorised (g : GlobalContainer) (header text : String) (w : World) (sid : UUID)
    (data : SessionHash) : Prop :=
  ∃ token claims, bearerToken header = some token ∧ decoded g token w = some claims ∧
    claims.sub ≠ "" ∧ claims.jti ≠ "" ∧ w.redis.access claims.jti ≠ none ∧
    UUID.parse text = some sid ∧ w.redis.session.value sid = some data ∧
    data.userId.map UUID.str = some claims.sub

/-- Without authorisation the store keeps everything and success is not reported; with it
the one session goes. -/
theorem revoke_run (hq : Quiet faults) (header text : String) (ip : Option String)
    (d : RevokeDraws) (w : World) :
    ((¬ ∃ sid data, Authorised g header text w sid data) ∧
      SameStore w (revoke g faults header text ip d w).2 ∧
      ∀ m, reported (revoke g faults header text ip d w).1 ≠ .operationResult true m) ∨
    ∃ sid data, Authorised g header text w sid data ∧
      (revoke g faults header text ip d w).1 = .ok (.operationResult true "Session revoked") ∧
      (revoke g faults header text ip d w).2.redis = revokeOne sid w.redis ∧
      (revoke g faults header text ip d w).2.signed = w.signed := by
  have hstop : ∀ (w' : World) (message : String), w'.redis = w.redis → w'.signed = w.signed →
      SameStore w ((pure (.operationResult false message) : AuthM Answer) w').2 ∧
        ∀ m, reported ((pure (.operationResult false message) : AuthM Answer) w').1 ≠
          .operationResult true m := by
    intro w' message hr hs
    exact ⟨⟨hr, hs⟩, by simp [reported]⟩
  unfold revoke
  cases hb : bearerToken header with
  | none =>
    refine .inl ⟨?_, hstop w _ rfl rfl⟩
    rintro ⟨_, _, _, _, hb', -⟩
    simp [hb] at hb'
  | some token =>
    simp only
    rw [bind_ok (tryDecode_run token w)]
    cases hd : decoded g token w with
    | none =>
      refine .inl ⟨?_, hstop w _ rfl rfl⟩
      rintro ⟨_, _, _, _, hb', hd', -⟩
      rw [hb, Option.some.injEq] at hb'
      simp [← hb', hd] at hd'
    | some c =>
      -- what an authorised request knows about the token is what was decoded here
      have hclaims : ∀ sid data, Authorised g header text w sid data → c.sub ≠ "" ∧ c.jti ≠ "" ∧
          w.redis.access c.jti ≠ none ∧ UUID.parse text = some sid ∧
          w.redis.session.value sid = some data ∧ data.userId.map UUID.str = some c.sub := by
        rintro sid data ⟨token', c', hb', hd', h⟩
        rw [hb, Option.some.injEq] at hb'
        rw [← hb', hd, Option.some.injEq] at hd'
        exact hd' ▸ h
      simp only
      split_ifs with hempty
      · refine .inl ⟨?_, hstop w _ rfl rfl⟩
        rintro ⟨sid, data, h⟩
        obtain ⟨hsub, hjti, -⟩ := hclaims sid data h
        exact hempty.elim hsub hjti
      · rw [bind_ok (isAccessJtiValid_run hq _ _)]
        split_ifs with hdead
        · refine .inl ⟨?_, hstop _ _ rfl rfl⟩
          rintro ⟨sid, data, h⟩
          obtain ⟨-, -, hlive, -⟩ := hclaims sid data h
          rw [Option.isSome_eq_false_iff, Option.isNone_iff_eq_none] at hdead
          exact hlive hdead
        · cases hp : UUID.parse text with
          | none =>
            refine .inl ⟨?_, ⟨rfl, rfl⟩, by simp [reported]⟩
            rintro ⟨sid, data, h⟩
            obtain ⟨-, -, -, hp', -⟩ := hclaims sid data h
            simp [hp] at hp'
          | some sid =>
            simp only
            rw [bind_ok (getSession_run hq _)]
            cases hs : (commanded w.redis 1 w).redis.session.value sid with
            | none =>
              refine .inl ⟨?_, hstop _ _ rfl rfl⟩
              rintro ⟨sid', data, h⟩
              obtain ⟨-, -, -, hp', hs', -⟩ := hclaims sid' data h
              rw [hp, Option.some.injEq] at hp'
              rw [← hp'] at hs'
              exact Option.some_ne_none _ (hs'.symm.trans hs)
            | some data =>
              simp only
              split_ifs with howner
              · refine .inl ⟨?_, hstop _ _ rfl rfl⟩
                rintro ⟨sid', data', h⟩
                obtain ⟨-, -, -, hp', hs', ho'⟩ := hclaims sid' data' h
                rw [hp, Option.some.injEq] at hp'
                rw [← hp'] at hs'
                rw [Option.some.inj (hs'.symm.trans hs)] at ho'
                exact howner ho'
              · obtain ⟨w', hw', hr, hsig⟩ := @revokeSessionHandler_run faults
                  (commanded (commanded w.redis 1 w).redis 1 (commanded w.redis 1 w)) hq ⟨sid, ip⟩ d
                have hbody : (revokeSessionHandler faults ⟨sid, ip⟩ d >>=
                    fun _ => pure (Answer.operationResult true "Session revoked"))
                      (commanded (commanded w.redis 1 w).redis 1 (commanded w.redis 1 w)) =
                    (.ok (Answer.operationResult true "Session revoked"), w') :=
                  (bind_ok hw').trans (pure_run _ _)
                rw [handle_ok hbody]
                rw [not_or] at hempty
                have hlive : w.redis.access c.jti ≠ none := by
                  intro hn
                  simp [hn] at hdead
                exact .inr ⟨sid, data, ⟨token, c, hb, hd, hempty.1, hempty.2, hlive, hp, hs,
                  not_not.1 howner⟩, rfl, hr, hsig⟩

/-- Either the store keeps everything and success is not reported, or one live session goes. -/
theorem revoke_effect (hq : Quiet faults) (header text : String) (ip : Option String)
    (d : RevokeDraws) (w : World) :
    (SameStore w (revoke g faults header text ip d w).2 ∧
      ∀ m, reported (revoke g faults header text ip d w).1 ≠ .operationResult true m) ∨
    ∃ sid data, UUID.parse text = some sid ∧ w.redis.session.value sid = some data ∧
      (revoke g faults header text ip d w).1 = .ok (.operationResult true "Session revoked") ∧
      (revoke g faults header text ip d w).2.redis = revokeOne sid w.redis ∧
      (revoke g faults header text ip d w).2.signed = w.signed := by
  rcases revoke_run (g := g) hq header text ip d w with ⟨-, h⟩ | ⟨sid, data, hauth, h⟩
  · exact .inl h
  · obtain ⟨_, _, -, -, -, -, -, hp, hs, -⟩ := hauth
    exact .inr ⟨sid, data, hp, hs, h⟩

end Bearer

/-! ## One event and the ledger of sessions -/

structure ServiceInvariant (g : GlobalContainer) (s : ServiceState) (l : SessionLedger) : Prop where
  store : Consistent (seconds g.refreshTokenTtlSeconds) s.drawn s.world.redis l
  session : s.world.db.Fresh
  tables : s.world.db.committed.WellFormed g.unicode
  signedOnce : (s.world.signed.map Claims.jti).Nodup
  signedDrawn : ∀ c ∈ s.world.signed, c.jti ∈ s.drawn.jtis
  signedBy : ∀ c ∈ s.world.signed, c.jti ≠ "" ∧ ∃ u : UUID, c.sub = u.str

inductive Effect (g : GlobalContainer) (x : ServiceState × Event) (s' : ServiceState)
    (l : SessionLedger) : SessionLedger → Prop where
  | quiet (now : s'.world.redis.now = x.1.world.redis.now) (silent : tokenIssued g x = none)
      (keeps : ∀ s, ¬ Revokes g s x) (spares : ∀ u, ¬ ResetsUser g u x) : Effect g x s' l l
  | issued {s u j : UUID} {k : String} (now : s'.world.redis.now = x.1.world.redis.now)
      (token : tokenIssued g x = some (g.encode (g.accessClaims x.1.world.redis.now u s j)))
      (signed : g.accessClaims x.1.world.redis.now u s j ∈ s'.world.signed)
      (keeps : ∀ s, ¬ Revokes g s x) (spares : ∀ u, ¬ ResetsUser g u x) :
      Effect g x s' l (l.issue s (freshTicket u j.str k g.accessTokenTtlSeconds
        g.refreshTokenTtlSeconds x.1.world.redis.now))
  | closed {s : UUID} (now : s'.world.redis.now = x.1.world.redis.now)
      (silent : tokenIssued g x = none) (revoked : ∀ s', Revokes g s' x ↔ s' = s)
      (spares : ∀ u, ¬ ResetsUser g u x) : Effect g x s' l (l.close s)
  | closedOwned {u : UUID} (now : s'.world.redis.now = x.1.world.redis.now)
      (silent : tokenIssued g x = none) (keeps : ∀ s, ¬ Revokes g s x)
      (reset : ∀ u', ResetsUser g u' x ↔ u' = u) : Effect g x s' l (l.closeOwned u)
  | elapsed {d : ℕ} (waited : x.2 = .wait d) (now : s'.world.redis.now = x.1.world.redis.now + d) :
      Effect g x s' l (l.elapse s'.world.redis.now)

theorem accessTokenOf_failed {a : Answer} (h : a.failed = true) : accessTokenOf a = none := by
  cases a <;> simp [Answer.failed, accessTokenOf] at h ⊢

theorem reset_owner {u : Unicode} {t : Tables} {sha : String} {stored token : PasswordResetToken}
    {now : ℕ} {user : User u} (found : t.findByToken sha = some stored)
    (consumed : stored.consume now = .ok token) (owner : t.findById u token.userId = .ok (some user)) :
    ∃ row ∈ t.passwordResetTokens, row.token = sha ∧ row.userId = user.id ∧
      row.toDomain = stored := by
  obtain ⟨row, hrow, rfl⟩ := Option.map_eq_some_iff.1 found
  obtain ⟨-, -, rfl⟩ := PasswordResetToken.consume_ok.1 consumed
  obtain ⟨m, hm, hd⟩ := findById_stored owner
  obtain ⟨hid, -⟩ := toDomain_ok hd
  exact ⟨row, (lookup_some hrow).1, (lookup_some hrow).2, by rw [hid, (lookup_some hm).2]; rfl, rfl⟩

section Steps
variable {g : GlobalContainer} {s : ServiceState} {l : SessionLedger}

theorem ServiceInvariant.usable (h : ServiceInvariant g s l) :
    (World.db { s.world with commands := 0 }).aborted = false :=
  h.session.2

theorem ServiceInvariant.view (h : ServiceInvariant g s l) :
    s.world.tables = s.world.db.committed :=
  Session.view_fresh _ h.session

theorem ServiceInvariant.after (h : ServiceInvariant g s l) (r : Request) :
    (GraphqlResolvers.after g noFaults r s.world).db.Fresh ∧
      (GraphqlResolvers.after g noFaults r s.world).db.committed.WellFormed g.unicode :=
  ⟨after_fresh _ _ _ _, after_wellFormed _ _ _ h.session h.tables⟩

theorem ServiceInvariant.sameStore (h : ServiceInvariant g s l) {w' : World}
    (hw : SameStore s.world w') (hdb : w'.db.Fresh) (ht : w'.db.committed.WellFormed g.unicode)
    {drawn : Drawn} (hd : drawn.sessions = s.drawn.sessions) (hj : s.drawn.jtis ⊆ drawn.jtis)
    (hk : s.drawn.refreshTokens ⊆ drawn.refreshTokens) (raw : List String) (ids : List UUID) :
    ServiceInvariant g ⟨w', drawn, raw, ids⟩ l where
  store := by
    rw [hw.1]
    exact h.store.mono hd hj hk
  session := hdb
  tables := ht
  signedOnce := by
    rw [hw.2]
    exact h.signedOnce
  signedDrawn := by
    rw [hw.2]
    exact fun c hc => hj (h.signedDrawn c hc)
  signedBy := by
    rw [hw.2]
    exact h.signedBy

theorem ServiceInvariant.sign (h : ServiceInvariant g s l) {w' : World} {drawn : Drawn}
    {l' : SessionLedger} {u sid j : UUID} (raw : List String) (ids : List UUID)
    (hstore : Consistent (seconds g.refreshTokenTtlSeconds) drawn w'.redis l')
    (hdb : w'.db.Fresh) (ht : w'.db.committed.WellFormed g.unicode)
    (hsigned : w'.signed = g.accessClaims s.world.redis.now u sid j :: s.world.signed)
    (hj : j.str ∉ s.drawn.jtis) (hdrawn : drawn.jtis = j.str :: s.drawn.jtis) :
    ServiceInvariant g ⟨w', drawn, raw, ids⟩ l' where
  store := hstore
  session := hdb
  tables := ht
  signedOnce := by
    rw [hsigned, List.map_cons, List.nodup_cons]
    refine ⟨?_, h.signedOnce⟩
    intro hm
    obtain ⟨c, hc, heq⟩ := List.mem_map.1 hm
    exact hj ((show c.jti = j.str from heq) ▸ h.signedDrawn c hc)
  signedDrawn := by
    rw [hsigned, hdrawn]
    intro c hc
    rcases List.mem_cons.1 hc with rfl | hc
    · exact List.mem_cons_self
    · exact List.mem_cons_of_mem _ (h.signedDrawn c hc)
  signedBy := by
    rw [hsigned]
    intro c hc
    rcases List.mem_cons.1 hc with rfl | hc
    · exact ⟨str_ne_empty j, u, rfl⟩
    · exact h.signedBy c hc

def Advances (g : GlobalContainer) (s : ServiceState) (e : Event) (s' : ServiceState)
    (l : SessionLedger) : Prop :=
  ∃ l', ServiceInvariant g s' l' ∧ Effect g (s, e) s' l l' ∧
    s.world.signed ⊆ s'.world.signed

section Requests
variable (hpos : 0 < g.accessTokenTtlSeconds)
  (hle : g.accessTokenTtlSeconds ≤ g.refreshTokenTtlSeconds) (h : ServiceInvariant g s l)
include h

include hpos hle in
theorem login_advances (email password : String) (device ip : Option String) (d : LoginDraws)
    (hf : FreshDraws (.login email password device ip d) s) :
    Advances g s (.request (.login email password device ip d))
      (recordDraws (.login email password device ip d)
        (GraphqlResolvers.after g noFaults (.login email password device ip d) s.world) s) l := by
  obtain ⟨hsid, hj, ht⟩ := hf
  obtain ⟨hdb, htab⟩ := h.after (.login email password device ip d)
  obtain ⟨hafter, hok, herr⟩ := serve_login g noFaults s.world email password device ip d
  have hlog := login_consistent (w := { s.world with commands := 0 }) quiet_noFaults hpos hle
    h.usable h.store ⟨email, password, device, ip⟩ hsid hj ht
  have hkeeps : ∀ sid, ¬ Revokes g sid (s, .request (.login email password device ip d)) := by
    rintro sid ⟨_, _, _, _, _, he, -⟩
    simp at he
  have hspares : ∀ u, ¬ ResetsUser g u (s, .request (.login email password device ip d)) := by
    rintro u ⟨_, _, _, _, _, _, he, -⟩
    simp at he
  generalize authenticateUser g noFaults ⟨email, password, device, ip⟩ d
    { s.world with commands := 0 } = out at hafter hok herr hlog
  have hr : (GraphqlResolvers.after g noFaults (.login email password device ip d) s.world).redis =
      out.2.redis := by rw [hafter]
  have hs : (GraphqlResolvers.after g noFaults (.login email password device ip d) s.world).signed =
      out.2.signed := by rw [hafter]
  generalize GraphqlResolvers.after g noFaults (.login email password device ip d) s.world = w'
    at hr hs hdb htab ⊢
  rw [← hr, ← hs] at hlog
  simp only [recordDraws]
  rcases hlog with ⟨⟨e, he⟩, hsame, hsig⟩ | ⟨uid, hout, hsig, hnow, hnew⟩
  · have hd := h.store.opened_sessions d.jti.str d.refreshToken.text hsid
    rw [← hsame] at hd
    refine ⟨l, h.sameStore ⟨hsame, hsig⟩ hdb htab hd (List.subset_cons_self _ _)
      (List.subset_cons_self _ _) _ _, .quiet ?_ ?_ hkeeps hspares, ?_⟩
    · simp only [hsame]
    · rw [tokenIssued_login, accessTokenOf_failed (herr e he)]
    · simp only [hsig]
      exact List.Subset.refl _
  · refine ⟨_, h.sign _ _ hnew hdb htab hsig hj rfl, .issued ?_ ?_ ?_ hkeeps hspares, ?_⟩
    · exact hnow
    · rw [tokenIssued_login, hok _ hout]
      rfl
    · simp only [hsig]
      exact List.mem_cons_self
    · simp only [hsig]
      exact List.subset_cons_self _ _

include hpos hle in
theorem refresh_advances (token : String) (ip : Option String) (d : RefreshDraws)
    (hf : FreshDraws (.refreshToken token ip d) s) :
    Advances g s (.request (.refreshToken token ip d))
      (recordDraws (.refreshToken token ip d)
        (GraphqlResolvers.after g noFaults (.refreshToken token ip d) s.world) s) l := by
  obtain ⟨hj, ht⟩ := hf
  obtain ⟨hdb, htab⟩ := h.after (.refreshToken token ip d)
  obtain ⟨hafter, hok, herr⟩ := serve_refresh g noFaults s.world token ip d
  have href := refresh_consistent (w := { s.world with commands := 0 }) quiet_noFaults hpos hle
    h.store ⟨token, ip⟩ hj ht
  have hkeeps : ∀ sid, ¬ Revokes g sid (s, .request (.refreshToken token ip d)) := by
    rintro sid ⟨_, _, _, _, _, he, -⟩
    simp at he
  have hspares : ∀ u, ¬ ResetsUser g u (s, .request (.refreshToken token ip d)) := by
    rintro u ⟨_, _, _, _, _, _, he, -⟩
    simp at he
  generalize refreshToken g noFaults ⟨token, ip⟩ d { s.world with commands := 0 } = out
    at hafter hok herr href
  have hr : (GraphqlResolvers.after g noFaults (.refreshToken token ip d) s.world).redis =
      out.2.redis := by rw [hafter]
  have hs : (GraphqlResolvers.after g noFaults (.refreshToken token ip d) s.world).signed =
      out.2.signed := by rw [hafter]
  generalize GraphqlResolvers.after g noFaults (.refreshToken token ip d) s.world = w'
    at hr hs hdb htab ⊢
  rw [← hr, ← hs] at href
  simp only [recordDraws]
  rcases href with ⟨⟨e, he⟩, hsame, hsig⟩ | ⟨sid, t, -, -, hout, hsig, hnow, hnew⟩
  · have hst : Consistent (seconds g.refreshTokenTtlSeconds)
        (s.drawn.renewed d.jti.str d.refreshToken.text) w'.redis l := by
      rw [hsame]
      exact h.store.mono rfl (List.subset_cons_self _ _) (List.subset_cons_self _ _)
    have hsilent : tokenIssued g (s, .request (.refreshToken token ip d)) = none := by
      rw [tokenIssued_refresh, accessTokenOf_failed (herr e he)]
    have hd : (s.drawn.renewed d.jti.str d.refreshToken.text).sessions = s.drawn.sessions := rfl
    rcases hsig with hsig | ⟨u, sid, hsig⟩
    · refine ⟨l, h.sameStore ⟨hsame, hsig⟩ hdb htab hd (List.subset_cons_self _ _)
        (List.subset_cons_self _ _) _ _, .quiet ?_ hsilent hkeeps hspares, ?_⟩
      · simp only [hsame]
      · simp only [hsig]
        exact List.Subset.refl _
    · refine ⟨l, h.sign _ _ hst hdb htab hsig hj rfl, .quiet ?_ hsilent hkeeps hspares, ?_⟩
      · simp only [hsame]
      · simp only [hsig]
        exact List.subset_cons_self _ _
  · refine ⟨_, h.sign _ _ hnew hdb htab hsig hj rfl, .issued ?_ ?_ ?_ hkeeps hspares, ?_⟩
    · exact hnow
    · rw [tokenIssued_refresh, hok _ hout]
      rfl
    · simp only [hsig]
      exact List.mem_cons_self
    · simp only [hsig]
      exact List.subset_cons_self _ _

theorem revokeSession_advances (header text : String) (ip : Option String) (d : RevokeDraws) :
    Advances g s (.request (.revokeSession header text ip d))
      (recordDraws (.revokeSession header text ip d)
        (GraphqlResolvers.after g noFaults (.revokeSession header text ip d) s.world) s) l := by
  obtain ⟨hdb, htab⟩ := h.after (.revokeSession header text ip d)
  have hans := answer_eq g noFaults (.revokeSession header text ip d) s.world
  have hafter := after_eq g noFaults (.revokeSession header text ip d) s.world
  have heff := revoke_effect (g := g) quiet_noFaults header text ip d { s.world with commands := 0 }
  rw [resolve] at hans hafter
  have hsilent : tokenIssued g (s, .request (.revokeSession header text ip d)) = none := rfl
  have hspares : ∀ u, ¬ ResetsUser g u (s, .request (.revokeSession header text ip d)) := by
    rintro u ⟨_, _, _, _, _, _, he, -⟩
    simp at he
  generalize revoke g noFaults header text ip d { s.world with commands := 0 } = out
    at hans hafter heff
  have hr : (GraphqlResolvers.after g noFaults (.revokeSession header text ip d) s.world).redis =
      out.2.redis := by rw [hafter]
  have hs : (GraphqlResolvers.after g noFaults (.revokeSession header text ip d) s.world).signed =
      out.2.signed := by rw [hafter]
  generalize GraphqlResolvers.after g noFaults (.revokeSession header text ip d) s.world = w'
    at hr hs hdb htab ⊢
  simp only [recordDraws]
  rcases heff with ⟨⟨hred, hsig⟩, hfail⟩ | ⟨sid, data, hp, hdata, hout, hred, hsig⟩
  · refine ⟨l, h.sameStore ⟨hr.trans hred, hs.trans hsig⟩ hdb htab rfl (List.Subset.refl _)
      (List.Subset.refl _) _ _, .quiet (by simp only [hr, hred]) hsilent ?_ hspares, ?_⟩
    · rintro sid ⟨_, _, _, _, m, he, -, hm⟩
      simp only [Event.request.injEq, Request.revokeSession.injEq] at he
      obtain ⟨rfl, rfl, rfl, rfl⟩ := he
      exact hfail m (hans ▸ hm)
    · simp only [hs, hsig]
      exact List.Subset.refl _
  · have hsame := hs.trans hsig
    have hst : Consistent (seconds g.refreshTokenTtlSeconds) s.drawn w'.redis (l.close sid) := by
      rw [hr, hred]
      exact consistent_revokeOne h.store sid
    have hnow : w'.redis.now = s.world.redis.now := by
      rw [hr, hred]
      exact revokeOne_now _ _
    refine ⟨l.close sid, ⟨hst, hdb, htab, ?_, ?_, ?_⟩, .closed hnow hsilent ?_ hspares, ?_⟩
    · simp only [hsame]
      exact h.signedOnce
    · simp only [hsame]
      exact h.signedDrawn
    · simp only [hsame]
      exact h.signedBy
    · intro sid'
      constructor
      · rintro ⟨_, _, _, _, m, he, hp', -⟩
        simp only [Event.request.injEq, Request.revokeSession.injEq] at he
        obtain ⟨rfl, rfl, rfl, rfl⟩ := he
        rw [hp, Option.some.injEq] at hp'
        exact hp'.symm
      · rintro rfl
        exact ⟨header, text, ip, d, "Session revoked", rfl, hp, by rw [hans, hout]; rfl⟩
    · simp only [hsame]
      exact List.Subset.refl _

theorem reset_advances (token password : String) (ip : Option String) (d : ResetDraws) :
    Advances g s (.request (.resetPassword token password ip d))
      (recordDraws (.resetPassword token password ip d)
        (GraphqlResolvers.after g noFaults (.resetPassword token password ip d) s.world) s) l := by
  obtain ⟨hdb, htab⟩ := h.after (.resetPassword token password ip d)
  obtain ⟨hafter, hok, herr⟩ := serve_reset g noFaults s.world token password ip d
  have hout := resetPassword_outcome (g := g) (w := { s.world with commands := 0 }) quiet_noFaults
    h.usable ⟨token, password, ip⟩ d
  have hview : World.tables { s.world with commands := 0 } = s.world.db.committed := h.view
  have hsilent : tokenIssued g (s, .request (.resetPassword token password ip d)) = none := rfl
  have hkeeps : ∀ sid, ¬ Revokes g sid (s, .request (.resetPassword token password ip d)) := by
    rintro sid ⟨_, _, _, _, _, he, -⟩
    simp at he
  have hquiet : ∀ e, (resetPassword g noFaults ⟨token, password, ip⟩ d
      { s.world with commands := 0 }).1 = .error e →
      ∀ u, ¬ ResetsUser g u (s, .request (.resetPassword token password ip d)) := by
    rintro e he u ⟨_, _, _, _, m, _, hx, hm, -⟩
    simp only [Event.request.injEq, Request.resetPassword.injEq] at hx
    obtain ⟨rfl, rfl, rfl, rfl⟩ := hx
    have hf := herr e he
    rw [hm] at hf
    simp [Answer.failed] at hf
  generalize resetPassword g noFaults ⟨token, password, ip⟩ d { s.world with commands := 0 } = out
    at hafter hok herr hout hquiet
  have hr : (GraphqlResolvers.after g noFaults (.resetPassword token password ip d) s.world).redis =
      out.2.redis := by rw [hafter]
  have hs : (GraphqlResolvers.after g noFaults (.resetPassword token password ip d) s.world).signed =
      out.2.signed := by rw [hafter]
  generalize GraphqlResolvers.after g noFaults (.resetPassword token password ip d) s.world = w'
    at hr hs hdb htab ⊢
  simp only [recordDraws]
  have hstop : ∀ e, out.1 = .error e → out.2.redis = s.world.redis → out.2.signed = s.world.signed →
      Advances g s (.request (.resetPassword token password ip d))
        ⟨w', s.drawn, s.rawTokens, s.tokenIds⟩ l := by
    intro e he hred hsig
    refine ⟨l, h.sameStore ⟨hr.trans hred, hs.trans hsig⟩ hdb htab rfl (List.Subset.refl _)
      (List.Subset.refl _) _ _, .quiet (by simp only [hr, hred]) hsilent hkeeps (hquiet e he), ?_⟩
    simp only [hs, hsig]
    exact List.Subset.refl _
  cases hout with
  | weak _ => exact hstop _ rfl rfl rfl
  | missing _ _ => exact hstop _ rfl rfl rfl
  | unusable _ _ _ => exact hstop _ rfl rfl rfl
  | orphan _ _ _ _ => exact hstop _ rfl rfl rfl
  | rejected _ _ _ _ _ _ _ => exact hstop _ rfl rfl rfl
  | @completed _ _ _ user _ _ _ found consumed owner _ _ =>
    rw [hview] at found owner
    obtain ⟨row, hrow, htok, huid, -⟩ := reset_owner found consumed owner
    rw [audited_redis] at hr
    rw [audited_signed] at hs
    have hst : Consistent (seconds g.refreshTokenTtlSeconds) s.drawn w'.redis
        (l.closeOwned user.id) := by
      rw [hr]
      exact consistent_revokeAll h.store user.id
    have hnow : w'.redis.now = s.world.redis.now := by
      rw [hr]
      exact revokeAll_now _ _
    refine ⟨_, ⟨hst, hdb, htab, ?_, ?_, ?_⟩, .closedOwned hnow hsilent hkeeps ?_, ?_⟩
    · simp only [hs]
      exact h.signedOnce
    · simp only [hs]
      exact h.signedDrawn
    · simp only [hs]
      exact h.signedBy
    · intro u'
      constructor
      · rintro ⟨_, _, _, _, _, row', hx, -, hmem, htok', rfl⟩
        simp only [Event.request.injEq, Request.resetPassword.injEq] at hx
        obtain ⟨rfl, rfl, rfl, rfl⟩ := hx
        rw [← huid, h.tables.tokens.unique hmem hrow (htok'.trans htok.symm)]
      · rintro rfl
        exact ⟨_, _, _, _, _, row, rfl, hok () rfl, hrow, htok, huid⟩
    · simp only [hs]
      exact List.Subset.refl _

theorem unrelated_advances {r : Request} (hr : ∀ header text ip d, r ≠ .revokeSession header text ip d)
    (hp : ∀ token password ip d, r ≠ .resetPassword token password ip d)
    (hsilent : tokenIssued g (s, .request r) = none)
    (hsame : SameStore s.world (GraphqlResolvers.after g noFaults r s.world)) {raw : List String}
    {ids : List UUID} (hrec : ∀ w', recordDraws r w' s = ⟨w', s.drawn, raw, ids⟩) :
    Advances g s (.request r) (recordDraws r (GraphqlResolvers.after g noFaults r s.world) s) l := by
  obtain ⟨hdb, htab⟩ := h.after r
  generalize GraphqlResolvers.after g noFaults r s.world = w' at hsame hdb htab ⊢
  rw [hrec]
  refine ⟨l, h.sameStore hsame hdb htab rfl (List.Subset.refl _) (List.Subset.refl _) _ _,
    .quiet ?_ hsilent ?_ ?_, ?_⟩
  · simp only [hsame.1]
  · rintro sid ⟨header, text, ip, d, _, he, -⟩
    exact hr header text ip d (Event.request.inj he)
  · rintro u ⟨token, password, ip, d, _, _, he, -⟩
    exact hp token password ip d (Event.request.inj he)
  · simp only [hsame.2]
    exact List.Subset.refl _

theorem register_advances (email password : String) (d : RegisterDraws) :
    Advances g s (.request (.register email password d))
      (recordDraws (.register email password d)
        (GraphqlResolvers.after g noFaults (.register email password d) s.world) s) l := by
  refine unrelated_advances h (by simp) (by simp) rfl ?_ (fun _ => rfl)
  obtain ⟨hafter, -⟩ := serve_register g noFaults s.world email password d
  have hsame := @sameStore_registerUser g noFaults ⟨email, password⟩ d { s.world with commands := 0 }
  generalize registerUser g noFaults ⟨email, password⟩ d { s.world with commands := 0 } = out
    at hafter hsame
  rw [hafter]
  exact hsame

theorem requestReset_advances (email : String) (ip : Option String) (d : RequestResetDraws) :
    Advances g s (.request (.requestPasswordReset email ip d))
      (recordDraws (.requestPasswordReset email ip d)
        (GraphqlResolvers.after g noFaults (.requestPasswordReset email ip d) s.world) s) l := by
  refine unrelated_advances h (by simp) (by simp) rfl ?_ (fun _ => rfl)
  obtain ⟨hafter, -⟩ := serve_requestReset g noFaults s.world email ip d
  have hsame := @sameStore_requestPasswordReset g noFaults ⟨email, ip⟩ d
    { s.world with commands := 0 }
  generalize requestPasswordReset g noFaults ⟨email, ip⟩ d { s.world with commands := 0 } = out
    at hafter hsame
  rw [hafter]
  exact hsame

theorem me_advances (header : String) :
    Advances g s (.request (.me header))
      (recordDraws (.me header) (GraphqlResolvers.after g noFaults (.me header) s.world) s) l := by
  refine unrelated_advances h (by simp) (by simp) rfl ?_ (fun _ => rfl)
  obtain ⟨n, hme⟩ := me_run (w := { s.world with commands := 0 }) quiet_noFaults h.usable
    (by rw [show World.tables { s.world with commands := 0 } = _ from h.view]; exact h.tables)
    h.signedBy header
  have hrun : resolve g noFaults (.me header) { s.world with commands := 0 } =
      (.ok (.userInfo (meInfo g header { s.world with commands := 0 })),
        commanded s.world.redis n { s.world with commands := 0 }) := by
    rw [resolve, bind_ok hme]
    rfl
  rw [after_eq, hrun]
  exact ⟨rfl, rfl⟩

theorem wait_advances (d : ℕ) : Advances g s (.wait d) (s.advance d) l :=
  ⟨l.elapse (s.world.redis.now + d),
    ⟨consistent_advance h.store d, h.session, h.tables, h.signedOnce, h.signedDrawn, h.signedBy⟩,
    .elapsed rfl rfl, List.Subset.refl _⟩

end Requests

/-- Every event of the service is an operation on the ledger of sessions. -/
theorem service_advances (hpos : 0 < g.accessTokenTtlSeconds)
    (hle : g.accessTokenTtlSeconds ≤ g.refreshTokenTtlSeconds) (h : ServiceInvariant g s l)
    {e : Event} {s' : ServiceState} (hstep : ServiceStep g s e s') : Advances g s e s' l := by
  cases hstep with
  | wait d => exact wait_advances h d
  | request r fresh =>
    cases r with
    | register email password d => exact register_advances h email password d
    | login email password device ip d =>
      exact login_advances hpos hle h email password device ip d fresh
    | refreshToken token ip d => exact refresh_advances hpos hle h token ip d fresh
    | revokeSession header text ip d => exact revokeSession_advances h header text ip d
    | requestPasswordReset email ip d => exact requestReset_advances h email ip d
    | resetPassword token password ip d => exact reset_advances h token password ip d
    | me header => exact me_advances h header

end Steps

theorem starts_invariant {g : GlobalContainer} {s : ServiceState} (h : Starts g s) :
    ServiceInvariant g s Ledger.empty where
  store := by
    obtain ⟨now, hnow⟩ := h.redis
    rw [hnow, h.undrawn]
    exact consistent_blank _ now
  session := h.session
  tables := h.tables
  signedOnce := by simp [h.unsigned]
  signedDrawn := by simp [h.unsigned]
  signedBy := by simp [h.unsigned]

section Sample
open SampleContainer

def sampleStart : ServiceState := ⟨initialWorld, Drawn.none, [], []⟩

theorem sampleStart_starts : Starts sample sampleStart where
  redis := ⟨startTime, rfl⟩
  session := initialWorld_fresh
  tables := initialWorld_wellFormed
  noTokens := rfl
  unsigned := rfl
  undrawn := rfl
  noRaw := rfl

def sampleLoginRequest : Request := .login "alice@example.com" "Passw0rd1" none none loginDraws

def sampleResetRequest : Request := .requestPasswordReset "alice@example.com" none resetDraws

theorem sampleStart_fresh_login : FreshDraws sampleLoginRequest sampleStart := by
  refine ⟨?_, ?_, ?_⟩ <;> simp [sampleStart, Drawn.none]

theorem sampleStart_fresh_reset : FreshDraws sampleResetRequest sampleStart := by
  refine ⟨?_, ?_⟩ <;> simp [sampleStart]

end Sample

end AuthService.ServiceRuns
