import AuthService.AccountEffects
import AuthService.ServiceRuns

set_option autoImplicit false

/-! The reset tokens of a run: which row stands for which mailed token, and which
tokens can still be used. -/
namespace AuthService.ResetTokenRuns
open Uuids PythonText DomainModel KeyedRows AccountTables Transactions FallibleState Fallible
open LabelledRuns RedisSessions RequestPorts CommandHandlers GraphqlResolvers HandlerRuns
open SessionDiscipline AccountEffects ServiceRuns

abbrev History := List (ServiceState × Event)

/-- A reset request of the user succeeded, with this raw token and this expiry. -/
def IssuesReset (g : GlobalContainer) (u : UUID) (r : String) (e : ℤ) (x : ServiceState × Event) :
    Prop :=
  ∃ email ip d message address m, x.2 = .request (.requestPasswordReset email ip d) ∧
    answer g noFaults (.requestPasswordReset email ip d) x.1.world = .operationResult true message ∧
    Email.new g.unicode email = .ok address ∧ m ∈ x.1.world.db.committed.users ∧
    m.email = address.value ∧ m.id = u ∧ d.rawToken.text = r ∧
    minutesAfter g.resetTokenExpireMinutes x.1.world.redis.now = e

def IssuesFor (g : GlobalContainer) (u : UUID) (x : ServiceState × Event) : Prop :=
  ∃ r e, IssuesReset g u r e x

/-- The raw token of the most recent successful reset request of the user. -/
def Latest (g : GlobalContainer) (u : UUID) (r : String) (e : ℤ) (p : History) : Prop :=
  Since (IssuesReset g u r e) (fun x => ¬ IssuesFor g u x) p

def Consumes (g : GlobalContainer) (r : String) (x : ServiceState × Event) : Prop :=
  ∃ password ip d message, x.2 = .request (.resetPassword r password ip d) ∧
    answer g noFaults (.resetPassword r password ip d) x.1.world = .operationResult true message

def Consumed (g : GlobalContainer) (r : String) (p : History) : Prop := ∃ x ∈ p, Consumes g r x

def Strings (p : History) : Set String :=
  {r | ∃ x ∈ p, (∃ email ip d, x.2 = .request (.requestPasswordReset email ip d) ∧
      d.rawToken.text = r) ∨ ∃ password ip d, x.2 = .request (.resetPassword r password ip d)}

theorem strings_cons (x : ServiceState × Event) (p : History) : Strings p ⊆ Strings (x :: p) := by
  rintro r ⟨y, hy, hr⟩
  exact ⟨y, List.mem_cons_of_mem _ hy, hr⟩

theorem consumed_cons {g : GlobalContainer} {r : String} {x : ServiceState × Event} {p : History} :
    Consumed g r (x :: p) ↔ Consumes g r x ∨ Consumed g r p := by
  simp [Consumed]

structure Sound (g : GlobalContainer) (s : ServiceState) : Prop where
  session : s.world.db.Fresh
  tables : s.world.db.committed.WellFormed g.unicode

theorem sound_step {g : GlobalContainer} {s s' : ServiceState} {e : Event} (h : Sound g s)
    (hstep : ServiceStep g s e s') : Sound g s' := by
  cases hstep with
  | wait d => exact ⟨h.session, h.tables⟩
  | request r _ =>
    have hdb := after_fresh g noFaults r s.world
    have ht := after_wellFormed g noFaults r h.session h.tables
    generalize after g noFaults r s.world = w' at hdb ht ⊢
    cases r <;> exact ⟨hdb, ht⟩

inductive TokenEffect (g : GlobalContainer) (x : ServiceState × Event) (s' : ServiceState) : Prop where
  | quiet (same : SameTokens s'.world.db.committed x.1.world.db.committed)
      (raw : x.1.rawTokens ⊆ s'.rawTokens) (ids : x.1.tokenIds ⊆ s'.tokenIds)
      (silent : ∀ u, ¬ IssuesFor g u x) (unused : ∀ r, ¬ Consumes g r x) : TokenEffect g x s'
  | issued {u id : UUID} {r : String} {e : ℤ}
      (tokens : s'.world.db.committed.passwordResetTokens =
        x.1.world.db.committed.passwordResetTokens.filter (fun row => row.userId ≠ u) ++
          [⟨id, u, g.sha256 r, e, false⟩])
      (fresh : r ∉ x.1.rawTokens) (raw : s'.rawTokens = r :: x.1.rawTokens)
      (ids : s'.tokenIds = id :: x.1.tokenIds)
      (issues : ∀ u' r' e', IssuesReset g u' r' e' x ↔ u' = u ∧ r' = r ∧ e' = e)
      (unused : ∀ r, ¬ Consumes g r x) : TokenEffect g x s'
  | consumed {row : PasswordResetTokenModel} {r : String}
      (stored : row ∈ x.1.world.db.committed.passwordResetTokens) (token : row.token = g.sha256 r)
      (tokens : s'.world.db.committed.passwordResetTokens =
        amend PasswordResetTokenModel.id row.id consumed x.1.world.db.committed.passwordResetTokens)
      (raw : s'.rawTokens = x.1.rawTokens) (ids : s'.tokenIds = x.1.tokenIds)
      (silent : ∀ u, ¬ IssuesFor g u x) (consumes : ∀ r', Consumes g r' x ↔ r' = r) :
      TokenEffect g x s'

section Effects
variable {g : GlobalContainer} {s : ServiceState}

theorem not_issuesFor {e : Event} (h : ∀ email ip d, e ≠ .request (.requestPasswordReset email ip d))
    (u : UUID) : ¬ IssuesFor g u (s, e) := by
  rintro ⟨_, _, email, ip, d, _, _, _, he, -⟩
  exact h email ip d he

theorem not_consumes {e : Event}
    (h : ∀ token password ip d, e ≠ .request (.resetPassword token password ip d)) (r : String) :
    ¬ Consumes g r (s, e) := by
  rintro ⟨password, ip, d, _, he, -⟩
  exact h r password ip d he

theorem unrelated_effect {r : Request} {w' : World}
    (hr : ∀ email ip d, r ≠ .requestPasswordReset email ip d)
    (hp : ∀ token password ip d, r ≠ .resetPassword token password ip d)
    (hsame : SameTokens w'.db.committed s.world.db.committed) :
    TokenEffect g (s, .request r) (recordDraws r w' s) := by
  have hi : ∀ u, ¬ IssuesFor g u (s, .request r) :=
    not_issuesFor (fun email ip d he => hr email ip d (Event.request.inj he))
  have hc : ∀ t, ¬ Consumes g t (s, .request r) :=
    not_consumes (fun token password ip d he => hp token password ip d (Event.request.inj he))
  cases r with
  | requestPasswordReset email ip d => exact absurd rfl (hr email ip d)
  | resetPassword token password ip d => exact absurd rfl (hp token password ip d)
  | _ => exact .quiet hsame (List.Subset.refl _) (List.Subset.refl _) hi hc

theorem failed_ne_success {a : Answer} {m : String} (h : a.failed = true) :
    a ≠ .operationResult true m := by
  rintro rfl
  simp [Answer.failed] at h

theorem requestReset_tokens (h : Sound g s) (email : String) (ip : Option String)
    (d : RequestResetDraws) (hf : FreshDraws (.requestPasswordReset email ip d) s)
    (hids : ∀ row ∈ s.world.db.committed.passwordResetTokens, row.id ∈ s.tokenIds) :
    TokenEffect g (s, .request (.requestPasswordReset email ip d))
      (recordDraws (.requestPasswordReset email ip d)
        (after g noFaults (.requestPasswordReset email ip d) s.world) s) := by
  obtain ⟨hraw, hid⟩ := hf
  obtain ⟨hafter, hok, herr⟩ := serve_requestReset g noFaults s.world email ip d
  have hout := requestPasswordReset_effect (g := g) (w := { s.world with commands := 0 }) h.session
    h.tables ⟨email, ip⟩ d (fun row hrow he => hid (he ▸ hids row hrow))
  have hc : ∀ t, ¬ Consumes g t (s, .request (.requestPasswordReset email ip d)) :=
    not_consumes (by simp)
  generalize requestPasswordReset g noFaults ⟨email, ip⟩ d { s.world with commands := 0 } = out
    at hafter hok herr hout
  have hdb : (after g noFaults (.requestPasswordReset email ip d) s.world).db =
      out.2.db.commit Statement.apply := by rw [hafter]
  generalize after g noFaults (.requestPasswordReset email ip d) s.world = w' at hdb ⊢
  simp only [recordDraws]
  cases hout with
  | refused _ same =>
    refine .quiet ?_ (List.subset_cons_self _ _) (List.subset_cons_self _ _) ?_ hc
    · simp only [SameTokens, hdb, same]
    · rintro u ⟨_, _, _, _, _, m, _, _, hx, hm, -⟩
      simp only [Event.request.injEq, Request.requestPasswordReset.injEq] at hx
      obtain ⟨rfl, rfl, rfl⟩ := hx
      exact failed_ne_success (herr _ rfl) hm
  | @issued address m _ hemail stored _ named alive users tokens =>
    refine .issued (u := m.id) (e := minutesAfter g.resetTokenExpireMinutes s.world.redis.now)
      ?_ hraw rfl rfl ?_ hc
    · simp only [hdb, Session.commit_committed _ _ alive]
      exact tokens
    · intro u' r' e'
      constructor
      · rintro ⟨_, _, _, _, address', m', hx, -, haddr, hm', hname, rfl, rfl, rfl⟩
        simp only [Event.request.injEq, Request.requestPasswordReset.injEq] at hx
        obtain ⟨rfl, rfl, rfl⟩ := hx
        rw [hemail, Except.ok.injEq] at haddr
        subst haddr
        rw [h.tables.emails.unique hm' stored (hname.trans named.symm)]
        exact ⟨rfl, rfl, rfl⟩
      · rintro ⟨rfl, rfl, rfl⟩
        exact ⟨email, ip, d, _, address, m, rfl, hok () rfl, hemail, stored, named, rfl, rfl, rfl⟩

theorem reset_tokens (h : Sound g s) (token password : String) (ip : Option String) (d : ResetDraws) :
    TokenEffect g (s, .request (.resetPassword token password ip d))
      (recordDraws (.resetPassword token password ip d)
        (after g noFaults (.resetPassword token password ip d) s.world) s) := by
  obtain ⟨hafter, hok, herr⟩ := serve_reset g noFaults s.world token password ip d
  have hout := resetPassword_effect (g := g) (w := { s.world with commands := 0 }) h.session
    h.tables ⟨token, password, ip⟩ d
  have hi : ∀ u, ¬ IssuesFor g u (s, .request (.resetPassword token password ip d)) :=
    not_issuesFor (by simp)
  generalize resetPassword g noFaults ⟨token, password, ip⟩ d { s.world with commands := 0 } = out
    at hafter hok herr hout
  have hdb : (after g noFaults (.resetPassword token password ip d) s.world).db =
      out.2.db.commit Statement.apply := by rw [hafter]
  generalize after g noFaults (.resetPassword token password ip d) s.world = w' at hdb ⊢
  simp only [recordDraws]
  have hstop : ∀ e, out.1 = .error e → out.2 = { s.world with commands := 0 } →
      TokenEffect g (s, .request (.resetPassword token password ip d))
        ⟨w', s.drawn, s.rawTokens, s.tokenIds⟩ := by
    intro e he hsame
    refine .quiet ?_ (List.Subset.refl _) (List.Subset.refl _) hi ?_
    · simp only [SameTokens, hdb, hsame, Session.commit_of_fresh _ h.session]
    · rintro r ⟨_, _, _, m, hx, hm⟩
      simp only [Event.request.injEq, Request.resetPassword.injEq] at hx
      obtain ⟨rfl, rfl, rfl, rfl⟩ := hx
      exact failed_ne_success (herr e he) hm
  cases hout with
  | weak _ => exact hstop _ rfl rfl
  | missing _ => exact hstop _ rfl rfl
  | refused _ _ => exact hstop _ rfl rfl
  | @done row _ _ _ found usable alive users tokens =>
    obtain ⟨hrow, htok⟩ := lookup_some found
    refine .consumed hrow htok ?_ rfl rfl hi ?_
    · simp only [hdb, Session.commit_committed _ _ alive]
      exact tokens
    · intro r'
      constructor
      · rintro ⟨_, _, _, _, hx, -⟩
        simp only [Event.request.injEq, Request.resetPassword.injEq] at hx
        exact hx.1.symm
      · rintro rfl
        exact ⟨_, _, _, _, rfl, hok () rfl⟩

theorem token_effect (h : Sound g s) {e : Event} {s' : ServiceState} (hstep : ServiceStep g s e s')
    (hids : ∀ row ∈ s.world.db.committed.passwordResetTokens, row.id ∈ s.tokenIds) :
    TokenEffect g (s, e) s' := by
  cases hstep with
  | wait d =>
    exact .quiet (SameTokens.refl _) (List.Subset.refl _) (List.Subset.refl _)
      (not_issuesFor (by simp)) (not_consumes (by simp))
  | request r fresh =>
    cases r with
    | register email password d =>
      exact unrelated_effect (by simp) (by simp)
        (register_sameTokens g noFaults email password d h.session)
    | login email password device ip d =>
      exact unrelated_effect (by simp) (by simp) (after_sameAccounts g noFaults rfl h.session).2
    | refreshToken token ip d =>
      exact unrelated_effect (by simp) (by simp) (after_sameAccounts g noFaults rfl h.session).2
    | revokeSession header text ip d =>
      exact unrelated_effect (by simp) (by simp) (after_sameAccounts g noFaults rfl h.session).2
    | requestPasswordReset email ip d => exact requestReset_tokens h email ip d fresh hids
    | resetPassword token password ip d => exact reset_tokens h token password ip d
    | me header =>
      exact unrelated_effect (by simp) (by simp) (after_sameAccounts g noFaults rfl h.session).2

end Effects

structure TokensRemember (g : GlobalContainer) (p : History) (s : ServiceState) : Prop where
  rows : ∀ row ∈ s.world.db.committed.passwordResetTokens, ∃ r, row.token = g.sha256 r ∧
    r ∈ s.rawTokens ∧ Latest g row.userId r row.expiresAt p ∧ (row.used = true ↔ Consumed g r p)
  latest : ∀ u r e, Latest g u r e p → ∃ row ∈ s.world.db.committed.passwordResetTokens,
    row.userId = u ∧ row.token = g.sha256 r ∧ row.expiresAt = e
  consumedRaw : ∀ r, Consumed g r p → r ∈ s.rawTokens

/-- What was drawn so far was hashed, and covers the ids of the rows. -/
structure Draws (p : History) (s : ServiceState) : Prop where
  raw : ∀ r ∈ s.rawTokens, r ∈ Strings p
  ids : ∀ row ∈ s.world.db.committed.passwordResetTokens, row.id ∈ s.tokenIds

section Histories
variable {g : GlobalContainer} {p : History} {s s' : ServiceState} {e : Event}

theorem latest_kept {u : UUID} {r : String} {t : ℤ} (hx : ¬ IssuesFor g u (s, e)) :
    Latest g u r t ((s, e) :: p) ↔ Latest g u r t p := by
  rw [Latest, since_cons]
  constructor
  · rintro (h | ⟨-, h⟩)
    · exact absurd ⟨r, t, h⟩ hx
    · exact h
  · exact fun h => .inr ⟨hx, h⟩

theorem TokensRemember.quiet (h : TokensRemember g p s)
    (same : SameTokens s'.world.db.committed s.world.db.committed) (raw : s.rawTokens ⊆ s'.rawTokens)
    (silent : ∀ u, ¬ IssuesFor g u (s, e)) (unused : ∀ r, ¬ Consumes g r (s, e)) :
    TokensRemember g ((s, e) :: p) s' where
  rows row hrow := by
    rw [show s'.world.db.committed.passwordResetTokens = _ from same] at hrow
    obtain ⟨r, htok, hr, hl, hu⟩ := h.rows row hrow
    refine ⟨r, htok, raw hr, (latest_kept (silent _)).2 hl, ?_⟩
    rw [hu, consumed_cons, or_iff_right (unused r)]
  latest u r t hl := by
    rw [show s'.world.db.committed.passwordResetTokens = _ from same]
    exact h.latest u r t ((latest_kept (silent u)).1 hl)
  consumedRaw r hc := by
    rw [consumed_cons, or_iff_right (unused r)] at hc
    exact raw (h.consumedRaw r hc)

theorem TokensRemember.issued (h : TokensRemember g p s) {u id : UUID} {r : String} {t : ℤ}
    (tokens : s'.world.db.committed.passwordResetTokens =
      s.world.db.committed.passwordResetTokens.filter (fun row => row.userId ≠ u) ++
        [⟨id, u, g.sha256 r, t, false⟩])
    (fresh : r ∉ s.rawTokens) (raw : s'.rawTokens = r :: s.rawTokens)
    (issues : ∀ u' r' t', IssuesReset g u' r' t' (s, e) ↔ u' = u ∧ r' = r ∧ t' = t)
    (unused : ∀ r, ¬ Consumes g r (s, e)) : TokensRemember g ((s, e) :: p) s' where
  rows row hrow := by
    rw [tokens, List.mem_append, List.mem_filter, List.mem_singleton] at hrow
    rcases hrow with ⟨hrow, hu⟩ | rfl
    · obtain ⟨r', htok, hr, hl, hused⟩ := h.rows row hrow
      have hother : ¬ IssuesFor g row.userId (s, e) := by
        rintro ⟨r', t', hi⟩
        exact of_decide_eq_true hu ((issues _ _ _).1 hi).1
      refine ⟨r', htok, raw ▸ List.mem_cons_of_mem _ hr, (latest_kept hother).2 hl, ?_⟩
      rw [hused, consumed_cons, or_iff_right (unused r')]
    · refine ⟨r, rfl, raw ▸ List.mem_cons_self, since_cons.2 (.inl ((issues _ _ _).2 ⟨rfl, rfl, rfl⟩)),
        ?_⟩
      rw [consumed_cons, or_iff_right (unused r)]
      exact iff_of_false (by simp) (fun hc => fresh (h.consumedRaw r hc))
  latest u' r' t' hl := by
    rw [tokens]
    rcases since_cons.1 hl with hi | ⟨hn, hl⟩
    · obtain ⟨rfl, rfl, rfl⟩ := (issues _ _ _).1 hi
      exact ⟨_, List.mem_append_right _ (List.mem_singleton_self _), rfl, rfl, rfl⟩
    · have hne : u' ≠ u := by
        rintro rfl
        exact hn ⟨r, t, (issues _ _ _).2 ⟨rfl, rfl, rfl⟩⟩
      obtain ⟨row, hrow, hu, htok, ht⟩ := h.latest u' r' t' hl
      refine ⟨row, List.mem_append_left _ (List.mem_filter.2 ⟨hrow, ?_⟩), hu, htok, ht⟩
      rw [hu]
      exact decide_eq_true hne
  consumedRaw r' hc := by
    rw [consumed_cons, or_iff_right (unused r')] at hc
    rw [raw]
    exact List.mem_cons_of_mem _ (h.consumedRaw r' hc)

theorem TokensRemember.consumed (h : TokensRemember g p s) (hs : Sound g s)
    (hraw : ∀ r ∈ s.rawTokens, r ∈ Strings ((s, e) :: p))
    (hinj : Set.InjOn g.sha256 (Strings ((s, e) :: p))) {row : PasswordResetTokenModel} {r : String}
    (stored : row ∈ s.world.db.committed.passwordResetTokens) (token : row.token = g.sha256 r)
    (hr : r ∈ Strings ((s, e) :: p))
    (tokens : s'.world.db.committed.passwordResetTokens = amend PasswordResetTokenModel.id row.id
      AccountEffects.consumed s.world.db.committed.passwordResetTokens)
    (raw : s'.rawTokens = s.rawTokens) (silent : ∀ u, ¬ IssuesFor g u (s, e))
    (consumes : ∀ r', Consumes g r' (s, e) ↔ r' = r) : TokensRemember g ((s, e) :: p) s' where
  rows row' hrow' := by
    rw [tokens] at hrow'
    obtain ⟨old, hold, rfl⟩ := mem_amend.1 hrow'
    obtain ⟨r', htok, hr', hl, hused⟩ := h.rows old hold
    by_cases hid : old.id = row.id
    · obtain rfl := hs.tables.tokenIds.unique hold stored hid
      obtain rfl : r' = r := hinj (hraw r' hr') hr (htok.symm.trans token)
      rw [if_pos rfl]
      refine ⟨r', htok, raw ▸ hr', (latest_kept (silent _)).2 hl, ?_⟩
      rw [consumed_cons]
      exact iff_of_true rfl (.inl ((consumes r').2 rfl))
    · have hne : ¬ Consumes g r' (s, e) := by
        rw [consumes]
        rintro rfl
        exact hid (by rw [hs.tables.tokens.unique hold stored (htok.trans token.symm)])
      rw [if_neg hid]
      refine ⟨r', htok, raw ▸ hr', (latest_kept (silent _)).2 hl, ?_⟩
      rw [hused, consumed_cons, or_iff_right hne]
  latest u r' t hl := by
    rw [tokens]
    obtain ⟨old, hold, hu, htok, ht⟩ := h.latest u r' t ((latest_kept (silent u)).1 hl)
    refine ⟨_, mem_amend.2 ⟨old, hold, rfl⟩, ?_⟩
    split_ifs <;> exact ⟨hu, htok, ht⟩
  consumedRaw r' hc := by
    rw [raw]
    rcases consumed_cons.1 hc with hc | hc
    · obtain ⟨r₀, htok, hr₀, -⟩ := h.rows row stored
      have heq : r₀ = r := hinj (hraw r₀ hr₀) hr (htok.symm.trans token)
      rwa [(consumes r').1 hc, ← heq]
    · exact h.consumedRaw r' hc

theorem rawTokens_recordDraws {q : Request} {w' : World} {r : String}
    (hr : r ∈ (recordDraws q w' s).rawTokens) :
    r ∈ s.rawTokens ∨ ∃ email ip d, q = .requestPasswordReset email ip d ∧ d.rawToken.text = r := by
  cases q with
  | requestPasswordReset email ip d =>
    rcases List.mem_cons.1 hr with rfl | hr
    · exact .inr ⟨email, ip, d, rfl, rfl⟩
    · exact .inl hr
  | _ => exact .inl hr

theorem draws_step (h : Draws p s) (hstep : ServiceStep g s e s')
    (heff : TokenEffect g (s, e) s') : Draws ((s, e) :: p) s' where
  raw r hr := by
    cases hstep with
    | wait d => exact strings_cons _ _ (h.raw r hr)
    | request q _ =>
      rcases rawTokens_recordDraws hr with hr | ⟨email, ip, d, rfl, rfl⟩
      · exact strings_cons _ _ (h.raw r hr)
      · exact ⟨_, List.mem_cons_self, .inl ⟨email, ip, d, rfl, rfl⟩⟩
  ids row hrow := by
    cases heff with
    | quiet same raw ids silent unused =>
      rw [show s'.world.db.committed.passwordResetTokens = _ from same] at hrow
      exact ids (h.ids row hrow)
    | issued tokens fresh raw ids issues unused =>
      rw [tokens, List.mem_append, List.mem_filter, List.mem_singleton] at hrow
      rw [ids]
      rcases hrow with ⟨hrow, -⟩ | rfl
      · exact List.mem_cons_of_mem _ (h.ids row hrow)
      · exact List.mem_cons_self
    | consumed stored token tokens raw ids silent consumes =>
      rw [tokens] at hrow
      rw [ids]
      obtain ⟨old, hold, rfl⟩ := mem_amend.1 hrow
      split_ifs <;> exact h.ids old hold

end Histories

/-- After every run the reset rows are those of the history. -/
theorem service_tokens {g : GlobalContainer} {s v : ServiceState} {p : History} (hs : Starts g s)
    (h : Runs (service g) s p v) (hinj : Set.InjOn g.sha256 (Strings p)) :
    Sound g v ∧ TokensRemember g p v ∧ ∀ r ∈ v.rawTokens, r ∈ Strings p := by
  have hall : Sound g v ∧ Draws p v ∧ (Set.InjOn g.sha256 (Strings p) → TokensRemember g p v) := by
    refine h.history (fun p v => Sound g v ∧ Draws p v ∧
      (Set.InjOn g.sha256 (Strings p) → TokensRemember g p v)) ?_ ⟨⟨hs.session, hs.tables⟩, ?_, ?_⟩
    · rintro p v e v' ⟨hv, hd, hr⟩ hstep
      have heff := token_effect hv hstep hd.ids
      have hd' := draws_step hd hstep heff
      refine ⟨sound_step hv hstep, hd', fun hinj => ?_⟩
      have hr := hr (hinj.mono (strings_cons _ _))
      cases heff with
      | quiet same raw ids silent unused => exact hr.quiet same raw silent unused
      | issued tokens fresh raw ids issues unused => exact hr.issued tokens fresh raw issues unused
      | @consumed row r stored token tokens raw ids silent consumes =>
        obtain ⟨password, ip, d, _, he, -⟩ := (consumes r).2 rfl
        exact hr.consumed hv (fun r hr => strings_cons _ _ (hd.raw r hr)) hinj stored token
          ⟨_, List.mem_cons_self, .inr ⟨password, ip, d, he⟩⟩ tokens raw silent consumes
    · exact ⟨by simp [hs.noRaw], by simp [hs.noTokens]⟩
    · intro _
      refine ⟨by simp [hs.noTokens], fun u r e hl => absurd hl since_nil, ?_⟩
      rintro r ⟨x, hx, -⟩
      simp at hx
  exact ⟨hall.1, hall.2.2 hinj, hall.2.1.raw⟩

theorem latest_unique {g : GlobalContainer} {p : History} {v : ServiceState}
    (hv : Sound g v) (hr : TokensRemember g p v) {u u' : UUID} {r : String} {e e' : ℤ}
    (h : Latest g u r e p) (h' : Latest g u' r e' p) : u = u' ∧ e = e' := by
  obtain ⟨row, hrow, rfl, htok, rfl⟩ := hr.latest u r e h
  obtain ⟨row', hrow', rfl, htok', rfl⟩ := hr.latest u' r e' h'
  rw [hv.tables.tokens.unique hrow hrow' (htok.trans htok'.symm)]
  exact ⟨rfl, rfl⟩

theorem lookup_latest {g : GlobalContainer} {p : History} {v : ServiceState}
    (hr : TokensRemember g p v) {r : String}
    (hraw : ∀ r' ∈ v.rawTokens, g.sha256 r' = g.sha256 r → r' = r) :
    (lookup PasswordResetTokenModel.token (g.sha256 r) v.world.db.committed.passwordResetTokens = none ∧
      ∀ u e, ¬ Latest g u r e p) ∨
    ∃ row, lookup PasswordResetTokenModel.token (g.sha256 r)
        v.world.db.committed.passwordResetTokens = some row ∧
      Latest g row.userId r row.expiresAt p ∧ (row.used = true ↔ Consumed g r p) := by
  cases hl : lookup PasswordResetTokenModel.token (g.sha256 r)
      v.world.db.committed.passwordResetTokens with
  | none =>
    refine .inl ⟨rfl, fun u e hlat => ?_⟩
    obtain ⟨row, hrow, -, htok, -⟩ := hr.latest u r e hlat
    exact lookup_none.1 hl row hrow htok
  | some row =>
    obtain ⟨hrow, htok⟩ := lookup_some hl
    obtain ⟨r', htok', hr', hlat, hused⟩ := hr.rows row hrow
    obtain rfl := hraw r' hr' (htok'.symm.trans htok)
    exact .inr ⟨row, rfl, hlat, hused⟩

/-- A reset succeeds exactly with the latest, unconsumed and unexpired token of some user. -/
theorem reset_succeeds_iff_latest {g : GlobalContainer} {s v : ServiceState} {p : History}
    (hs : Starts g s) (h : Runs (service g) s p v) (r newPassword : String) (ip : Option String)
    (d : ResetDraws) (hp : ∃ q, PlainPassword.new g.unicode newPassword = .ok q)
    (hinj : Set.InjOn g.sha256 (insert r (Strings p))) :
    let out := resetPassword g noFaults ⟨r, newPassword, ip⟩ d v.world
    let t := v.world.db.committed
    let t' := (out.2.db.commit Statement.apply).committed
    (out.1 = .ok () ↔ ∃ u e, Latest g u r e p ∧ ¬ Consumed g r p ∧ (v.world.redis.now : ℤ) < e) ∧
    (out.1 = .ok () → ∃ u e, Latest g u r e p ∧
      t'.users = amend UserModel.id u (withPassword (g.hashpw newPassword d.salt)) t.users ∧
      t'.passwordResetTokens =
        amend PasswordResetTokenModel.token (g.sha256 r) consumed t.passwordResetTokens) ∧
    ∀ x, out.1 = .error x → out.2 = v.world ∧
      ((∀ u e, ¬ Latest g u r e p) → x = .tokenNotFoundError "Reset token not found") ∧
      ∀ u e, Latest g u r e p →
        (e ≤ v.world.redis.now → x = .tokenExpiredError "Reset token has expired") ∧
        ((v.world.redis.now : ℤ) < e →
          x = .tokenAlreadyUsedError "Reset token has already been used") := by
  obtain ⟨hv, hr, hraw⟩ := service_tokens hs h (hinj.mono (Set.subset_insert _ _))
  have heff := resetPassword_effect hv.session hv.tables ⟨r, newPassword, ip⟩ d
  have hlook := lookup_latest hr (r := r) (fun r' hr' he =>
    hinj (Set.mem_insert_of_mem _ (hraw r' hr')) (Set.mem_insert _ _) he)
  generalize resetPassword g noFaults ⟨r, newPassword, ip⟩ d v.world = out at heff ⊢
  intro out' t t'
  cases heff with
  | weak password =>
    obtain ⟨q, hq⟩ := hp
    rw [password] at hq
    simp at hq
  | missing absent =>
    rcases hlook with ⟨-, hno⟩ | ⟨row, hrow, -⟩
    · refine ⟨iff_of_false (by simp) ?_, by simp, ?_⟩
      · rintro ⟨u, e, hl, -⟩
        exact hno u e hl
      · rintro x hx
        rw [← Except.error.inj hx]
        exact ⟨rfl, fun _ => rfl, fun u e hl => absurd hl (hno u e)⟩
    · rw [absent] at hrow
      simp at hrow
  | @refused row x found unusable =>
    rcases hlook with ⟨hnone, -⟩ | ⟨row', hrow, hl, hused⟩
    · rw [hnone] at found
      simp at found
    · rw [found, Option.some.injEq] at hrow
      subst hrow
      have hexp : ∀ u e, Latest g u r e p → e = row.expiresAt := fun u e hl' =>
        (latest_unique hv hr hl' hl).2
      refine ⟨iff_of_false (by simp) ?_, by simp, ?_⟩
      · rintro ⟨u, e, hl', hunused, hnow⟩
        rw [← hused, Bool.not_eq_true] at hunused
        rw [hexp u e hl'] at hnow
        rw [PasswordResetToken.consume_ok.2 ⟨hnow, hunused, rfl⟩] at unusable
        simp at unusable
      · rintro x' hx
        obtain rfl := Except.error.inj hx
        refine ⟨rfl, fun hno => absurd hl (hno _ _), fun u e hl' => ?_⟩
        rw [hexp u e hl']
        exact PasswordResetToken.consume_error unusable
  | @done row w' _ _ found usable alive users tokens =>
    rcases hlook with ⟨hnone, -⟩ | ⟨row', hrow, hl, hused⟩
    · rw [hnone] at found
      simp at found
    · rw [found, Option.some.injEq] at hrow
      subst hrow
      obtain ⟨hnow, hfree, -⟩ := PasswordResetToken.consume_ok.1 usable
      have hunused : ¬ Consumed g r p := by
        rw [← hused, Bool.not_eq_true]
        exact hfree
      have hcommit : t' = w'.tables := Session.commit_committed _ _ alive
      rw [hcommit]
      refine ⟨iff_of_true rfl ⟨_, _, hl, hunused, hnow⟩, fun _ => ⟨_, _, hl, users, ?_⟩, by simp⟩
      rw [tokens, ← (lookup_some found).2]
      exact amend_keys hv.tables.tokenIds hv.tables.tokens (lookup_some found).1

end AuthService.ResetTokenRuns
