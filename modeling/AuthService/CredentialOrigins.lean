import AuthService.AccountIntegrity
import AuthService.ServiceRuns

set_option autoImplicit false

/-! Where access tokens, refresh tokens and sessions come from. -/
namespace AuthService.CredentialOrigins
open Uuids PythonText DomainModel AccountTables Transactions FallibleState Fallible FallibleTriples
open ExpiringMaps JsonText GraphqlDocuments RedisSessions RequestPorts RedisTokenStore CommandHandlers
open GraphqlResolvers HandlerRuns RateLimitMiddleware IdempotencyExtension EmailCounters RequestTriples
open HttpService VisitTriples AccountIntegrity LabelledRuns

/-- Every key of the token store belongs to an account and a session that `P` relates; a session
hash that was written again after its end names no account. -/
structure Filed (P : UUID → UUID → Prop) (r : Redis) : Prop where
  access : ∀ jti e, r.access jti = some e → ∃ uid sid, e.value = payload uid sid ∧ P uid sid
  refresh : ∀ token e, r.refresh token = some e → ∃ uid sid, e.value = payload uid sid ∧ P uid sid
  session : ∀ sid e, r.session sid = some e →
    ∃ uid, P uid sid ∧ ∀ u, e.value.userId = some u → u = uid

section Filed
variable {P P' : UUID → UUID → Prop} {r : Redis}

theorem Filed.blank (P : UUID → UUID → Prop) (now : ℕ) : Filed P (Redis.blank now) := by
  refine ⟨?_, ?_, ?_⟩
  all_goals
    intro _ _
    simp [Redis.blank, ExpiringMap.empty]

theorem Filed.mono (hP : ∀ uid sid, P uid sid → P' uid sid) (h : Filed P r) : Filed P' r where
  access := fun jti e he => by
    obtain ⟨uid, sid, hv, hp⟩ := h.access jti e he
    exact ⟨uid, sid, hv, hP _ _ hp⟩
  refresh := fun token e he => by
    obtain ⟨uid, sid, hv, hp⟩ := h.refresh token e he
    exact ⟨uid, sid, hv, hP _ _ hp⟩
  session := fun sid e he => by
    obtain ⟨uid, hp, hu⟩ := h.session sid e he
    exact ⟨uid, hP _ _ hp, hu⟩

theorem Filed.shed (h : Filed P r) {r' : Redis} (hr : Sheds r r') : Filed P r' where
  access := fun jti e he => h.access jti e (hr.access jti e he)
  refresh := fun token e he => h.refresh token e (hr.refresh token e he)
  session := fun sid e he => h.session sid e (hr.session sid e he)

theorem Filed.files {uid sid : UUID} {r' : Redis} (h : Filed P r) (hp : P uid sid)
    (haccess : ∀ jti e, r'.access jti = some e → e.value = payload uid sid ∨ r.access jti = some e)
    (hrefresh : ∀ token e, r'.refresh token = some e → e.value = payload uid sid ∨
      r.refresh token = some e)
    (hsession : ∀ s e, r'.session s = some e →
      (s = sid ∧ ∀ u, e.value.userId = some u → u = uid) ∨
        ∃ e₀, r.session s = some e₀ ∧ e.value.userId = e₀.value.userId) : Filed P r' where
  access := fun jti e he => by
    rcases haccess jti e he with hv | hold
    · exact ⟨uid, sid, hv, hp⟩
    · exact h.access jti e hold
  refresh := fun token e he => by
    rcases hrefresh token e he with hv | hold
    · exact ⟨uid, sid, hv, hp⟩
    · exact h.refresh token e hold
  session := fun s e he => by
    rcases hsession s e he with ⟨rfl, hu⟩ | ⟨e₀, he₀, hsame⟩
    · exact ⟨uid, hp, hu⟩
    · rw [hsame]
      exact h.session s e₀ he₀

theorem Filed.create {uid sid : UUID} {nowIso jti token : String} {device : Option String} {a b : ℕ}
    (h : Filed P r) (hp : P uid sid) : Filed P
    (createPipeline nowIso sid uid jti token device a b r) := by
  refine h.files hp (fun j e he => ?_) (fun t e he => ?_) (fun s e he => ?_)
  · rw [create_access] at he
    split_ifs at he
    · exact .inl (congrArg Entry.value (Option.some.inj he)).symm
    · exact .inr he
  · rw [create_refresh] at he
    split_ifs at he
    · exact .inl (congrArg Entry.value (Option.some.inj he)).symm
    · exact .inr he
  · rw [create_session] at he
    split_ifs at he with hs
    · obtain rfl := Option.some.inj he
      exact .inl ⟨hs, fun u hu => (Option.some.inj hu).symm⟩
    · exact .inr ⟨e, he, rfl⟩

theorem Filed.rotate {uid sid : UUID} {nowIso oldJti oldToken jti token : String} {a b : ℕ}
    (h : Filed P r) (hp : P uid sid) :
    Filed P (rotatePipeline nowIso sid uid oldJti oldToken jti token a b r) := by
  refine h.files hp (fun j e he => ?_) (fun t e he => ?_) (fun s e he => ?_)
  · rw [rotate_access] at he
    split_ifs at he
    · exact .inl (congrArg Entry.value (Option.some.inj he)).symm
    · exact .inr he
  · rw [rotate_refresh] at he
    split_ifs at he
    · exact .inl (congrArg Entry.value (Option.some.inj he)).symm
    · exact .inr he
  · rw [rotate_session] at he
    split_ifs at he with hs
    · obtain rfl := Option.some.inj he
      cases hold : r.session sid with
      | none =>
        refine .inl ⟨hs, fun u hu => ?_⟩
        simp [ExpiringMap.value, hold, SessionHash.rotated, SessionHash.blank] at hu
      | some e₀ =>
        refine .inr ⟨e₀, by rw [hs, hold], ?_⟩
        simp [ExpiringMap.value, hold, SessionHash.rotated]
    · exact .inr ⟨e, he, rfl⟩

theorem Filed.elapse (h : Filed P r) (d : ℕ) : Filed P (r.advance d) where
  access := fun jti e he => h.access jti e (ExpiringMap.purge_eq_some.1 he).1
  refresh := fun token e he => h.refresh token e (ExpiringMap.purge_eq_some.1 he).1
  session := fun sid e he => h.session sid e (ExpiringMap.purge_eq_some.1 he).1

theorem Filed.getdel (h : Filed P r) {token x : String} (hx : r.refresh.value token = some x) :
    ∃ uid sid, x = payload uid sid ∧ P uid sid := by
  obtain ⟨e, he, rfl⟩ := Option.map_eq_some_iff.1 hx
  exact h.refresh token e he

theorem Filed.owner (h : Filed P r) {sid uid : UUID} {data : SessionHash}
    (hd : r.session.value sid = some data) (hu : data.userId = some uid) : P uid sid := by
  obtain ⟨e, he, rfl⟩ := Option.map_eq_some_iff.1 hd
  obtain ⟨u, hp, hsame⟩ := h.session sid e he
  rwa [hsame uid hu]

end Filed

/-- The keys and the signatures of a world. -/
structure Vouched (P : UUID → UUID → Prop) (w : World) : Prop where
  signed : ∀ c ∈ w.signed, ∃ uid sid, c.sub = uid.str ∧ c.sid = sid.str ∧ P uid sid
  filed : Filed P w.redis

section Vouched
variable {P P' : UUID → UUID → Prop} {w : World}

theorem Vouched.mono (hP : ∀ uid sid, P uid sid → P' uid sid) (h : Vouched P w) : Vouched P' w where
  signed := fun c hc => by
    obtain ⟨uid, sid, hu, hs, hp⟩ := h.signed c hc
    exact ⟨uid, sid, hu, hs, hP _ _ hp⟩
  filed := h.filed.mono hP

theorem Vouched.shed (h : Vouched P w) {w' : World} (hsigned : w'.signed = w.signed)
    (hredis : Sheds w.redis w'.redis) : Vouched P w' :=
  ⟨hsigned ▸ h.signed, h.filed.shed hredis⟩

theorem Vouched.sign {g : GlobalContainer} {uid sid jti : UUID} (h : Vouched P w) (hp : P uid sid) :
    Vouched P { w with signed := g.accessClaims w.redis.now uid sid jti :: w.signed } where
  signed := by
    intro c hc
    rcases List.mem_cons.1 hc with rfl | hc
    · exact ⟨uid, sid, rfl, rfl, hp⟩
    · exact h.signed c hc
  filed := h.filed

end Vouched

section Resolvers
variable {g : GlobalContainer} {faults : Faults} {P P' : UUID → UUID → Prop}

end Resolvers

section Answers
variable {g : GlobalContainer} {faults : Faults} {P : UUID → UUID → Prop}

end Answers

/-- The hash of an active account with this address, whose row stands in the tables or was
registered by the root fields so far: the hash of that row, or one that these have set. -/
def StandsFor (K : Warrant) (t₀ : Tables) (uid : UUID) (address hash : String) : Prop :=
  ∃ m, (m ∈ t₀.users ∨ K.registered m) ∧ m.id = uid ∧ m.email = address ∧ m.isActive = true ∧
    (hash = m.hashedPassword ∨ K.reset uid address hash)

/-- The root field at this position is a login to the account, with a password that its hash
verifies, and draws the session. -/
def OpensAt (g : GlobalContainer) (parse : String → Option Document) (v : Visit) (t₀ : Tables) (n i : ℕ)
    (uid sid : UUID) : Prop :=
  ∃ email password device ip a hash,
    PerformsAt parse v i (.login email password device ip (v.chance i).login) ∧
    sid = (v.chance i).login.sessionId ∧ Email.new g.unicode email = .ok a ∧
    verify g password hash = true ∧ StandsFor (warrantAt g parse v t₀ n i) t₀ uid a.value hash

section Visit
variable {g : GlobalContainer} {word : Char → Bool} {parse : String → Option Document} {v : Visit}
  {t₀ : Tables} {n : ℕ} {P : UUID → UUID → Prop}

end Visit

/-- The step signs in to the account and opens the session. -/
def SignsIn (g : GlobalContainer) (parse : String → Option Document) (uid sid : UUID)
    (x : HttpState × HttpEvent) : Prop :=
  ∃ v i, x.2 = .visit v ∧ OpensAt g parse v x.1.world.db.committed x.1.world.redis.now i uid sid

structure Unopened (s : HttpState) : Prop where
  redis : ∃ now, s.world.redis = Redis.blank now
  unsigned : s.world.signed = []

section Runs
variable {g : GlobalContainer} {word : Char → Bool} {parse : String → Option Document}

end Runs

section Sample
open SampleContainer

def loginVisit : Visit :=
  ⟨⟨postOf loginQuery, none, none⟩, chanceWith resetDraws, true⟩

def loggedInHttp : HttpState := (visit sample isWordChar parseSample loginVisit sampleHttp).2

theorem loginVisit_runs : Runs (http sample isWordChar parseSample) sampleHttp
    [(sampleHttp, .visit loginVisit)] loggedInHttp := by
  refine .single (HttpStep.visit _ _ (freshIds_one (by decide +kernel) (fun m hm => ?_)
    (fun r hr => absurd hr List.not_mem_nil)))
  rw [List.mem_singleton.1 hm]
  decide

end Sample

end AuthService.CredentialOrigins
