import AuthService.RateWindows

set_option autoImplicit false

/-! How long a refused client is told to wait, against the lifetime its counter has left. -/
namespace AuthService.RetryAfter
open ExpiringMaps RedisSessions LabelledRuns ThreadPools RateLimiter RateWindows

/-- The milliseconds that a key has left: none for a key that never expires, zero for one
that is gone. -/
def remaining (key : String) (c : Counters) : Option ℕ :=
  match c.count key with
  | none => some 0
  | some e => e.deadline.map (fun d => d - c.now)

/-- After so many seconds the window is over, and it was not over a second before. -/
def Fits (retryAfter : ℤ) : Option ℕ → Prop
  | none => False
  | some r => (r : ℤ) ≤ 1000 * retryAfter ∧ 1000 * retryAfter ≤ r + 1000

/-- TTL rounds the remaining time up, or the window is the one second that remains. -/
def RoundsUp (window : ℕ) : Option ℕ → Prop
  | none => False
  | some r => 500 ≤ r ∧ (r % 1000 = 0 ∨ 500 ≤ r % 1000) ∨ r < 500 ∧ window = 1

section Rounding
variable {call : Call} {c : Counters}

theorem retryAfter_eq : retryAfter call c =
    match remaining call.redisKey c with
    | none => (call.windowSeconds : ℤ)
    | some r => if r < 500 then (call.windowSeconds : ℤ) else ((r + 500) / 1000 : ℕ) := by
  unfold retryAfter ttl remaining
  cases hc : c.count call.redisKey with
  | none => rfl
  | some e =>
    cases hd : e.deadline with
    | none => simp [hd]
    | some d =>
      simp only [hd, Option.map_some]
      split_ifs with h h' h'
      · omega
      · rfl
      · rfl
      · omega

theorem retryAfter_fits_iff (hw : 0 < call.windowSeconds) :
    Fits (retryAfter call c) (remaining call.redisKey c) ↔
      RoundsUp call.windowSeconds (remaining call.redisKey c) := by
  rw [retryAfter_eq]
  cases remaining call.redisKey c with
  | none => exact Iff.rfl
  | some r =>
    simp only [Fits, RoundsUp]
    split_ifs with h
    · constructor
      · rintro ⟨-, htight⟩
        exact .inr ⟨h, by omega⟩
      · rintro (⟨hle, -⟩ | ⟨-, hone⟩)
        · omega
        · rw [hone]
          omega
    · constructor
      · rintro ⟨hwait, -⟩
        exact .inl ⟨by omega, by omega⟩
      · rintro (⟨-, hround⟩ | ⟨hlt, -⟩)
        · exact ⟨by omega, by omega⟩
        · exact absurd hlt h

end Rounding

section Pool
variable {ι : Type} [DecidableEq ι]

/-- Whoever is refused at this step is told a fitting time. -/
def Answers (v : Pool ι Counters Check) (l : Turn ι) : Prop :=
  ∀ i, l = .run i → ∀ c' call e, (v.thread i).step v.shared = some (c', .raised call e) →
    Fits e.retryAfter (remaining call.redisKey c')

def ReadsRoundedUp (v : Pool ι Counters Check) (l : Turn ι) : Prop :=
  ∀ i, l = .run i → ∀ call n, v.thread i = .exceeded call n →
    RoundsUp call.windowSeconds (remaining call.redisKey v.shared)

theorem step_raised {t : Check} {c c' : Counters} {call : Call} {e : RateLimitExceededError} :
    t.step c = some (c', .raised call e) ↔
      (∃ n, t = .exceeded call n) ∧ c' = c ∧ e = ⟨retryAfter call c, call.key⟩ := by
  constructor
  · intro h
    rcases Check.step_cases h with ⟨call', rfl, -, ht⟩ | ⟨call', rfl, -, ht⟩ |
      ⟨call', n, rfl, -, e', ht⟩
    · cases ht
    · unfold Check.afterIncr at ht
      split_ifs at ht
    · cases ht
      cases h
      exact ⟨⟨n, rfl⟩, rfl, rfl⟩
  · rintro ⟨⟨n, rfl⟩, rfl, rfl⟩
    rfl

theorem windows_pos {s u : Pool ι Counters Check} {p : List (Pool ι Counters Check × Turn ι)}
    (hs : Launch s) (h : Runs (checkPool ι) s p u) (i : ι) : 0 < (u.thread i).call.windowSeconds := by
  rw [runs_calls h i]
  obtain ⟨call, hc, hpos⟩ := hs.start i
  rw [hc]
  exact hpos

/-- In every run, a refused client is told a fitting time exactly at the steps where TTL
rounds up. -/
theorem retry_after_fits {s u : Pool ι Counters Check} {p : List (Pool ι Counters Check × Turn ι)}
    (hs : Launch s) (h : Runs (checkPool ι) s p u) :
    ∀ x ∈ p, Answers x.1 x.2 ↔ ReadsRoundedUp x.1 x.2 := by
  intro x hx
  obtain ⟨newer, older, rfl⟩ := List.append_of_mem hx
  obtain ⟨v, hbefore, -, -⟩ := h.split
  have hpos := windows_pos hs hbefore
  constructor
  · intro ha i hi call n ht
    have hwindow := hpos i
    rw [ht] at hwindow
    refine (retryAfter_fits_iff hwindow).1 ?_
    exact ha i hi _ call _ (step_raised.2 ⟨⟨n, ht⟩, rfl, rfl⟩)
  · intro hr i hi c' call e hstep
    obtain ⟨⟨n, ht⟩, rfl, rfl⟩ := step_raised.1 hstep
    have hwindow := hpos i
    rw [ht] at hwindow
    exact (retryAfter_fits_iff hwindow).2 (hr i hi call n ht)

end Pool

section Sample

def onceAMinute : Call := checkIp "203.0.113.7" "login" 1 60

def twoClients : Pool Bool Counters Check := ⟨Counters.blank 0, fun _ => .start onceAMinute⟩

theorem twoClients_launch : Launch twoClients := ⟨⟨0, rfl⟩, fun _ => ⟨onceAMinute, rfl, by decide⟩⟩

def secondClient (d : ℕ) : List (Move Bool Counters) :=
  [.run false, .run false, .env (Counters.advance d), .run true, .run true]

theorem secondClient_refused {d r : ℕ} {v : Pool Bool Counters Check}
    (hv : play (fun _ => Check.step) (secondClient d) twoClients = some v)
    (hrefused : (play (fun _ => Check.step) (secondClient d) twoClients).map
      (fun v => (v.thread true, remaining onceAMinute.redisKey v.shared)) =
        some (.exceeded onceAMinute 2, some r)) :
    v.thread true = .exceeded onceAMinute 2 ∧ remaining onceAMinute.redisKey v.shared = some r ∧
      ∃ p w, Runs (checkPool Bool) twoClients ((v, .run true) :: p) w := by
  rw [hv, Option.map_some, Option.some.injEq, Prod.mk.injEq] at hrefused
  obtain ⟨ht, hr⟩ := hrefused
  have henv : ∀ f, .env f ∈ secondClient d → ∀ c, ∃ d, f c = c.advance d := by
    intro f hf c
    simp only [secondClient, List.mem_cons, reduceCtorEq, false_or, Move.env.injEq, List.not_mem_nil,
      or_false] at hf
    rw [hf]
    exact ⟨d, rfl⟩
  obtain ⟨p, hp⟩ := play_runs (P := checkProgram Bool) (fun _ _ _ _ _ hs => hs) henv hv
  have hstep : (v.thread true).step v.shared = some (v.shared, .raised onceAMinute
      ⟨retryAfter onceAMinute v.shared, onceAMinute.key⟩) :=
    step_raised.2 ⟨⟨2, ht⟩, rfl, rfl⟩
  exact ⟨ht, hr, p, _, .next hp (PoolStep.run true hstep)⟩

/-- Thirty seconds before the end, the client is told thirty seconds. -/
theorem retry_after_fits_half_minute : ∃ v p w,
    Runs (checkPool Bool) twoClients ((v, .run true) :: p) w ∧ Answers v (.run true) := by
  obtain ⟨v, hv⟩ : ∃ v, play (fun _ => Check.step) (secondClient 30000) twoClients = some v := ⟨_, rfl⟩
  obtain ⟨ht, hr, p, w, hp⟩ := secondClient_refused (r := 30000) hv (by decide +kernel)
  refine ⟨v, p, w, hp, (retry_after_fits twoClients_launch hp _ List.mem_cons_self).2 ?_⟩
  intro i hi call n hcall
  cases hi
  rw [ht] at hcall
  cases hcall
  rw [hr]
  exact .inl ⟨by decide, .inl rfl⟩

/-- With 1.4 seconds left the client is told one second. -/
theorem retry_after_too_short : ∃ v p w, Launch twoClients ∧
    Runs (checkPool Bool) twoClients ((v, .run true) :: p) w ∧ ¬ Answers v (.run true) := by
  obtain ⟨v, hv⟩ : ∃ v, play (fun _ => Check.step) (secondClient 58600) twoClients = some v := ⟨_, rfl⟩
  obtain ⟨ht, hr, p, w, hp⟩ := secondClient_refused (r := 1400) hv (by decide +kernel)
  refine ⟨v, p, w, twoClients_launch, hp, fun ha => ?_⟩
  have hround := (retryAfter_fits_iff (by decide)).1
    (ha true rfl _ onceAMinute _ (step_raised.2 ⟨⟨2, ht⟩, rfl, rfl⟩))
  rw [hr] at hround
  rcases hround with ⟨-, hmod | hmod⟩ | ⟨hlt, -⟩
  · exact absurd hmod (by decide)
  · exact absurd hmod (by decide)
  · exact absurd hlt (by decide)

end Sample

end AuthService.RetryAfter
