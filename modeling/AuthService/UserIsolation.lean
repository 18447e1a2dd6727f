import AuthService.KeyOwnership
import AuthService.SampleContainer

set_option autoImplicit false

/-! Requests of several users side by side, and the same run without the requests of one. -/
namespace AuthService.UserIsolation
open Uuids ExpiringMaps RedisSessions RequestPorts CommandHandlers LabelledRuns ThreadPools
open SessionThreads KeyOwnership

/-- The request a user sends: a login, a refresh, a revocation under the own access token,
or the revocation of all sessions that a password reset ends with. -/
def RequestOf (u : UUID) : SessionThread → Prop
  | .login v _ _ => v = u
  | .refresh _ _ => True
  | .bearer v _ _ => v = u
  | .revokeAll v => v = u
  | _ => False

def presentedToken : SessionThread → Option String
  | .refresh token _ => some token
  | _ => none

def presentedJti : SessionThread → Option String
  | .bearer _ jti _ => some jti
  | _ => none

section Pool
variable {ι : Type} [DecidableEq ι] {g : GlobalContainer}

/-- What a request presents was issued to its own user, or to nobody. -/
def OwnCredentials (user : ι → UUID) (v : Pool ι Redis SessionThread) (l : Turn ι) : Prop :=
  ∀ i, l = .run i → ∀ j, ∀ x ∈ (v.thread j).issued,
    presentedToken (v.thread i) = some x.2.2 ∨ presentedJti (v.thread i) = some x.2.1 →
      user j = user i

/-- The user's part of the store: the sessions opened by logins of the user, the access and
refresh keys of sessions of the user, and the user's index; and the clock. -/
structure SamePart (c : Pool ι Redis SessionThread) (u : UUID) (r r' : Redis) : Prop where
  now : r.now = r'.now
  session : ∀ i device d, c.thread i = .login u device d →
    r.session d.sessionId = r'.session d.sessionId
  access : ∀ j e s, e.value = payload u s → (r.access j = some e ↔ r'.access j = some e)
  refresh : ∀ k e s, e.value = payload u s → (r.refresh k = some e ↔ r'.refresh k = some e)
  sessions : r.sessions u = r'.sessions u

def others (user : ι → UUID) (A : UUID) : Turn ι → Bool
  | .run i => decide (user i ≠ A)
  | .env => true

def ownsKey (c : Pool ι Redis SessionThread) (user : ι → UUID) (u : UUID) : Key → Prop
  | .access j => ∃ i k, user i = u ∧ (c.thread i).draws = some (j, k)
  | .refresh k => ∃ i j, user i = u ∧ (c.thread i).draws = some (j, k)
  | .session s => ∃ i, user i = u ∧ (c.thread i).opening = some s
  | .sessions v => v = u

def ownership {c : Pool ι Redis SessionThread} (hl : Launch c) (user : ι → UUID) : Ownership where
  owns := ownsKey c user
  unique := by
    intro u v k hu hv
    cases k with
    | access j =>
      obtain ⟨i, k, rfl, hi⟩ := hu
      obtain ⟨i', k', rfl, hi'⟩ := hv
      by_cases he : i = i'
      · rw [he]
      · exact absurd rfl (hl.draws i i' he _ _ hi hi').1
    | refresh k =>
      obtain ⟨i, j, rfl, hi⟩ := hu
      obtain ⟨i', j', rfl, hi'⟩ := hv
      by_cases he : i = i'
      · rw [he]
      · exact absurd rfl (hl.draws i i' he _ _ hi hi').2
    | session s =>
      obtain ⟨i, rfl, hi⟩ := hu
      obtain ⟨i', rfl, hi'⟩ := hv
      by_cases he : i = i'
      · rw [he]
      · exact absurd hi' (hl.sessions i i' he s hi)
    | sessions w => exact hu.symm.trans hv
  index := Iff.rfl

theorem threadOf_request {c : Pool ι Redis SessionThread} (hl : Launch c) {user : ι → UUID}
    (hreq : ∀ i, RequestOf (user i) (c.thread i)) (i : ι) :
    ThreadOf (ownership hl user) (user i) (c.thread i) := by
  have hi := hreq i
  cases ht : c.thread i with
  | login v device d =>
    rw [ht] at hi
    exact ⟨hi, ⟨i, rfl, by rw [ht]; rfl⟩, ⟨i, _, rfl, by rw [ht]; rfl⟩, ⟨i, _, rfl, by rw [ht]; rfl⟩⟩
  | refresh token d => exact ⟨⟨i, _, rfl, by rw [ht]; rfl⟩, ⟨i, _, rfl, by rw [ht]; rfl⟩⟩
  | bearer v jti s =>
    rw [ht] at hi
    exact hi
  | revokeAll v =>
    rw [ht] at hi
    exact hi
  | _ =>
    rw [ht] at hi
    exact hi.elim

/-- Every access and refresh key was written by a thread that has returned it. -/
structure Issued (v : Pool ι Redis SessionThread) : Prop where
  access : ∀ j e, v.shared.access j = some e → ∃ i s k, (v.thread i).issued = some (s, j, k)
  refresh : ∀ k e, v.shared.refresh k = some e → ∃ i s j, (v.thread i).issued = some (s, j, k)

structure Isolated (O : Ownership) (user : ι → UUID) (v : Pool ι Redis SessionThread) : Prop where
  store : StoreOf O v.shared
  thread : ∀ i, ThreadOf O (user i) (v.thread i)
  issued : Issued v

/-- The state without the user's keys, in which the user's requests have not begun. -/
noncomputable def without (O : Ownership) (user : ι → UUID) (c : Pool ι Redis SessionThread)
    (A : UUID) (v : Pool ι Redis SessionThread) : Pool ι Redis SessionThread :=
  ⟨hide (O.owns A) v.shared, fun i => if user i = A then c.thread i else v.thread i⟩

section Steps
variable {O : Ownership} {user : ι → UUID} {v w : Pool ι Redis SessionThread} {l : Turn ι}

omit [DecidableEq ι] in
theorem issued_owned {i : ι} (h : ThreadOf O (user i) (v.thread i)) {x : UUID × String × String}
    (hx : (v.thread i).issued = some x) :
    O.owns (user i) (.access x.2.1) ∧ O.owns (user i) (.refresh x.2.2) := by
  cases ht : v.thread i with
  | loggedIn d =>
    rw [ht] at h hx
    obtain rfl := Option.some.inj hx
    exact h.2
  | refreshed token d s =>
    rw [ht] at h hx
    obtain rfl := Option.some.inj hx
    exact h.2
  | _ => simp [ht, SessionThread.issued] at hx

omit [DecidableEq ι] in
theorem Isolated.presents (h : Isolated O user v) {i : ι} (hC : OwnCredentials user v (.run i)) :
    Presents O (user i) v.shared (v.thread i) := by
  cases ht : v.thread i with
  | refresh token d =>
    intro hne
    obtain ⟨e, he⟩ := Option.ne_none_iff_exists'.1 hne
    obtain ⟨j, s, x, hj⟩ := h.issued.refresh token e he
    have hu : user j = user i := hC i rfl j _ hj (.inl (by rw [ht]; rfl))
    exact hu ▸ (issued_owned (h.thread j) hj).2
  | bearer u jti s =>
    intro hne
    obtain ⟨e, he⟩ := Option.ne_none_iff_exists'.1 hne
    obtain ⟨j, s, x, hj⟩ := h.issued.access jti e he
    have hu : user j = user i := hC i rfl j _ hj (.inr (by rw [ht]; rfl))
    exact hu ▸ (issued_owned (h.thread j) hj).1
  | _ => trivial

theorem Issued.update (h : Issued v) {i : ι} {r : Redis} {t : SessionThread}
    (hstep : (v.thread i).step g v.shared = some (r, t)) :
    Issued ⟨r, Function.update v.thread i t⟩ := by
  have hnone := issued_none_of_step hstep
  have hstay : ∀ j x, (v.thread j).issued = some x →
      (Function.update v.thread i t j).issued = some x := by
    intro j x hx
    have hne : j ≠ i := by
      rintro rfl
      simp [hnone] at hx
    rwa [Function.update_of_ne hne]
  obtain ⟨haccess, hrefresh⟩ := added_keys hstep
  constructor
  · intro j e he
    rcases haccess j e he with hold | ⟨s, k, hnew⟩
    · obtain ⟨i', s, k, hi'⟩ := h.access j e hold
      exact ⟨i', s, k, hstay i' _ hi'⟩
    · exact ⟨i, s, k, by simpa using hnew⟩
  · intro k e he
    rcases hrefresh k e he with hold | ⟨s, j, hnew⟩
    · obtain ⟨i', s, j, hi'⟩ := h.refresh k e hold
      exact ⟨i', s, j, hstay i' _ hi'⟩
    · exact ⟨i, s, j, by simpa using hnew⟩

theorem isolated_step (h : Isolated O user v) (hC : OwnCredentials user v l)
    (hs : (sessionPool g ι passing).step v l w) : Isolated O user w := by
  cases hs with
  | @run r t i hstep =>
    obtain ⟨hr, ht⟩ := owned_step h.store (h.thread i) (h.presents hC) hstep
    refine ⟨hr, fun j => ?_, h.issued.update hstep⟩
    by_cases hj : j = i
    · subst hj
      simpa using ht
    · simpa [Function.update_of_ne hj] using h.thread j
  | @env r henv =>
    obtain ⟨d, rfl⟩ := henv
    refine ⟨h.store.advance d, h.thread, ⟨?_, ?_⟩⟩
    · exact fun j e he => h.issued.access j e (advance_access.1 he).1
    · exact fun k e he => h.issued.refresh k e (advance_refresh.1 he).1

variable {c : Pool ι Redis SessionThread} {A : UUID}

theorem without_silent (h : Isolated O user v) (hC : OwnCredentials user v l)
    (hl : others user A l = false) (hs : (sessionPool g ι passing).step v l w) :
    without O user c A w = without O user c A v := by
  cases hs with
  | env henv => simp [others] at hl
  | @run r t i hstep =>
    have hi : user i = A := by simpa [others] using hl
    subst hi
    have hr := silent_step (h.thread i) (h.presents hC) hstep
    simp only [without, hr, Pool.mk.injEq, true_and]
    funext j
    by_cases hj : user j = user i
    · rw [if_pos hj, if_pos hj]
    · have hne : j ≠ i := by
        rintro rfl
        exact hj rfl
      rw [if_neg hj, if_neg hj, Function.update_of_ne hne]

/-- Every other step happens just the same without the user's requests. -/
theorem without_visible (h : Isolated O user v) (hC : OwnCredentials user v l)
    (hl : others user A l = true) (hs : (sessionPool g ι passing).step v l w) :
    (sessionPool g ι passing).step (without O user c A v) l (without O user c A w) := by
  cases hs with
  | @run r t i hstep =>
    have hi : user i ≠ A := by simpa [others] using hl
    have hvisible := visible_step hi h.store (h.thread i) (h.presents hC) hstep
    have hrun : (sessionProgram g ι passing).step i (without O user c A v).shared
        ((without O user c A v).thread i) (hide (O.owns A) r) t := by
      simp only [without, if_neg hi]
      exact hvisible
    have hpool : without O user c A ⟨r, Function.update v.thread i t⟩ =
        ⟨hide (O.owns A) r, Function.update (without O user c A v).thread i t⟩ := by
      simp only [without, Pool.mk.injEq, true_and]
      funext j
      by_cases hj : j = i
      · subst hj
        rw [if_neg hi, Function.update_self, Function.update_self]
      · rw [Function.update_of_ne hj, Function.update_of_ne hj]
    rw [hpool]
    exact .run i hrun
  | @env r henv =>
    obtain ⟨d, rfl⟩ := henv
    refine .env (c := without O user c A v) ⟨d, ?_⟩
    exact hide_advance d

theorem samePart_hide {hlaunch : Launch c} (h : StoreOf (ownership hlaunch user) v.shared)
    (hreq : ∀ i, RequestOf (user i) (c.thread i)) {B : UUID} (hB : B ≠ A) :
    SamePart c B v.shared (hide ((ownership hlaunch user).owns A) v.shared) := by
  constructor
  · rfl
  · intro i device d hi
    have hu : B = user i := by
      have := hreq i
      rwa [hi] at this
    have hown : (ownership hlaunch user).owns B (.session d.sessionId) :=
      ⟨i, hu.symm, by rw [hi]; rfl⟩
    exact (ExpiringMap.hide_of_not (P := fun s => (ownership hlaunch user).owns A (.session s))
      (not_owned hB hown) _).symm
  · intro j e s hval
    constructor
    · intro he
      obtain ⟨u, s', hown, -, hval'⟩ := h.access j e he
      obtain ⟨rfl, -⟩ := payload_inj.1 (hval.symm.trans hval')
      exact hide_access_eq_some.2 ⟨not_owned hB hown, he⟩
    · exact fun he => (hide_access_eq_some.1 he).2
  · intro k e s hval
    constructor
    · intro he
      obtain ⟨u, s', hown, -, hval'⟩ := h.refresh k e he
      obtain ⟨rfl, -⟩ := payload_inj.1 (hval.symm.trans hval')
      exact hide_refresh_eq_some.2 ⟨not_owned hB hown, he⟩
    · exact fun he => (hide_refresh_eq_some.1 he).2
  · have hown : (ownership hlaunch user).owns B (.sessions B) := rfl
    exact (ExpiringMap.hide_of_not (P := fun v => (ownership hlaunch user).owns A (.sessions v))
      (not_owned hB hown) _).symm

end Steps

/-- Two users do not see each other: whatever A's requests do, the run without them takes
the same steps of everybody else from states with the same part of B, and no step of A's
changes B's part. -/
theorem users_isolated {user : ι → UUID} {c u : Pool ι Redis SessionThread}
    {p : List (Pool ι Redis SessionThread × Turn ι)} (hl : Launch c)
    (hreq : ∀ i, RequestOf (user i) (c.thread i)) (h : Runs (sessionPool g ι passing) c p u)
    (hown : Meets (OwnCredentials user) p) (A : UUID) :
    (∃ q u', Runs (sessionPool g ι passing) c q u' ∧
      List.Forall₂ (fun x y => x.2 = y.2 ∧ ∀ B, B ≠ A → SamePart c B x.1.shared y.1.shared)
        (p.filter (fun x => others user A x.2)) q ∧
      ∀ B, B ≠ A → SamePart c B u.shared u'.shared) ∧
    ∀ x ∈ p, others user A x.2 = false → ∀ w, (sessionPool g ι passing).step x.1 x.2 w →
      ∀ B, B ≠ A → SamePart c B x.1.shared w.shared := by
  obtain ⟨now, hblank⟩ := hl.blank
  have hstart : Isolated (ownership hl user) user c := by
    refine ⟨?_, threadOf_request hl hreq, ?_⟩
    · rw [hblank]
      refine ⟨?_, ?_, ?_, ?_⟩ <;> intro k e he <;> simp [Redis.blank, ExpiringMap.empty] at he
    · refine ⟨?_, ?_⟩ <;> intro k e he <;> simp [hblank, Redis.blank, ExpiringMap.empty] at he
  have hall : ∀ v ∈ Visited p u, Isolated (ownership hl user) user v :=
    h.visited_of_meets _ _ (fun _ _ _ hI hC hs => isolated_step hI hC hs) hown hstart
  have hpast : ∀ x ∈ p, Isolated (ownership hl user) user x.1 :=
    fun x hx => hall x.1 (List.mem_cons_of_mem _ (List.mem_map_of_mem hx))
  have hsame : without (ownership hl user) user c A c = c := by
    have hthread : (fun i => if user i = A then c.thread i else c.thread i) = c.thread := by
      funext i
      exact ite_self _
    have hshared : hide ((ownership hl user).owns A) c.shared = c.shared := by
      rw [hblank, hide_blank]
    simp only [without, hthread, hshared]
  have hrun := h.erase (others user A) (without (ownership hl user) user c A)
    (Isolated (ownership hl user) user) (OwnCredentials user)
    (fun _ _ _ hI hC hs => isolated_step hI hC hs)
    (fun _ _ _ hI hC hk hs => without_silent hI hC hk hs)
    (fun _ _ _ hI hC hk hs => without_visible hI hC hk hs) hown hstart
  rw [hsame] at hrun
  refine ⟨⟨_, _, hrun, ?_, ?_⟩, ?_⟩
  · rw [List.forall₂_map_right_iff, List.forall₂_same]
    intro x hx
    exact ⟨rfl, fun B hB => samePart_hide (hpast x (List.mem_of_mem_filter hx)).store hreq hB⟩
  · exact fun B hB => samePart_hide (hall u (by simp [Visited])).store hreq hB
  · intro x hx hk w hs B hB
    have hI := hpast x hx
    have hC := hown x hx
    have hw := isolated_step hI hC hs
    have h1 := samePart_hide (A := A) hI.store hreq hB
    have h2 := samePart_hide (A := A) hw.store hreq hB
    have heq : hide ((ownership hl user).owns A) w.shared = hide ((ownership hl user).owns A)
      x.1.shared :=
      congrArg Pool.shared (without_silent (c := c) hI hC hk hs)
    rw [heq] at h2
    refine ⟨h1.now.trans h2.now.symm, fun i device d hi => ?_, fun j e s hval => ?_,
      fun k e s hval => ?_, h1.sessions.trans h2.sessions.symm⟩
    · exact (h1.session i device d hi).trans (h2.session i device d hi).symm
    · exact (h1.access j e s hval).trans (h2.access j e s hval).symm
    · exact (h1.refresh k e s hval).trans (h2.refresh k e s hval).symm

end Pool

section Sample
open SampleContainer

/-- Alice and Bob log in, and Bob asks for the revocation of Alice's session. -/
def crossing : Pool (Fin 3) Redis SessionThread where
  shared := Redis.blank startTime
  thread := ![.login alice none loginDraws,
    .login bob none ⟨nextRow, jtiTwo, rawB, eventOne, saltTwo⟩, .bearer bob jtiTwo.str sessionOne]

def crossingUser : Fin 3 → UUID := ![alice, bob, bob]

theorem crossing_launch : Launch crossing :=
  .of_checks rfl (by decide) (by decide +kernel) (by decide +kernel)

theorem crossing_requests : ∀ i, RequestOf (crossingUser i) (crossing.thread i) := by
  intro i
  fin_cases i <;> rfl

instance (v : Pool (Fin 3) Redis SessionThread) (l : Turn (Fin 3)) :
    Decidable (OwnCredentials crossingUser v l) := by
  unfold OwnCredentials
  infer_instance

def crossingMoves : List (Move (Fin 3) Redis) := [.run 0, .run 1, .run 2, .run 2]

theorem users_isolated_bob : ∃ p u, Runs (sessionPool sample (Fin 3) passing) crossing p u ∧
    ((u.thread 2).finished = true ∧ (u.shared.session sessionOne).isSome = true) ∧
    ∃ q u', Runs (sessionPool sample (Fin 3) passing) crossing q u' ∧
      SamePart crossing alice u.shared u'.shared := by
  have hend : (playMeeting (OwnCredentials crossingUser) (fun _ r t => SessionThread.step sample r t)
      crossingMoves crossing).map
        (fun u => ((u.thread 2).finished, (u.shared.session sessionOne).isSome)) =
          some (true, true) := by
    decide +kernel
  obtain ⟨u, hu, hu'⟩ := Option.map_eq_some_iff.1 hend
  rw [Prod.mk.injEq] at hu'
  have hrun : ∃ p, Runs (sessionPool sample (Fin 3) passing) crossing p u ∧
      Meets (OwnCredentials crossingUser) p :=
    playMeeting_runs (P := sessionProgram sample (Fin 3) passing) (fun _ _ _ _ _ h => h)
      (by simp [crossingMoves]) hu
  obtain ⟨p, hp, hmeets⟩ := hrun
  obtain ⟨⟨q, u', hq, -, hsame⟩, -⟩ := users_isolated crossing_launch crossing_requests hp hmeets bob
  exact ⟨p, u, hp, hu', q, u', hq, hsame alice (by decide)⟩

end Sample

end AuthService.UserIsolation
