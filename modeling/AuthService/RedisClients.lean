import AuthService.RedisCommands
import AuthService.RunSimulations
import AuthService.ThreadPools

set_option autoImplicit false

/-! Clients of one Redis server. A component is a kind of client with a model of the state it
keeps there; components with different keys do not notice each other. -/
namespace AuthService.RedisClients
open LabelledRuns RunSimulations ThreadPools RedisCommands

/-- A client between two transactions; `broken` stands for an answer it cannot go on with. -/
inductive Running (τ : Type) where
  | live (t : τ)
  | broken
  deriving DecidableEq

structure Client (τ : Type) where
  send : ℕ → τ → Option (List Command)
  receive : τ → List Reply → Option τ

def failed : Reply → Bool
  | .error _ => true
  | _ => false

section Clients
variable {τ : Type} (C : Client τ)

def Client.deliver (t : τ) (replies : List Reply) : Running τ :=
  if replies.any failed then .broken
  else
    match C.receive t replies with
    | none => .broken
    | some t' => .live t'

def Client.step (s : Server) : Running τ → Option (Server × Running τ)
  | .broken => none
  | .live t =>
    match C.send s.now t with
    | none => none
    | some cs => some ((execAll cs s).2, C.deliver t (execAll cs s).1)

theorem deliver_live {C : Client τ} {t t' : τ} {replies : List Reply} (h : replies.any failed = false)
    (ht : C.receive t replies = some t') : C.deliver t replies = .live t' := by
  simp only [Client.deliver, h, Bool.false_eq_true, if_false, ht]

theorem step_live {C : Client τ} {s s' : Server} {r r' : Running τ}
    (h : C.step s r = some (s', r')) : ∃ t cs, r = .live t ∧ C.send s.now t = some cs ∧
      s' = (execAll cs s).2 ∧ r' = C.deliver t (execAll cs s).1 := by
  cases r with
  | broken => cases h
  | live t =>
    simp only [Client.step] at h
    split at h
    · cases h
    · rename_i cs hcs
      cases h
      exact ⟨t, cs, rfl, hcs, rfl, rfl⟩

/-- A client changes no key but those it names. -/
theorem step_frame {C : Client τ} {keys : String → Prop}
    (sends : ∀ {now t cs}, C.send now t = some cs → ∀ c ∈ cs, keys c.key) {s s' : Server}
    {r r' : Running τ} (h : C.step s r = some (s', r')) :
    s'.now = s.now ∧ ∀ k, ¬ keys k → s'.keys k = s.keys k := by
  obtain ⟨t, cs, -, hsend, rfl, -⟩ := step_live h
  refine ⟨execAll_now cs s, fun k hk => execAll_other fun c hc he => hk ?_⟩
  rw [he]
  exact sends hsend c hc

end Clients

section Achieves
variable {σ : Type} {H : Server → σ → Prop} {cs ds : List Command} {x y z : σ}

/-- Wherever the server stands for `x`, the commands go through and leave `y`. -/
def Achieves (H : Server → σ → Prop) (cs : List Command) (x y : σ) : Prop :=
  ∀ s, H s x → (execAll cs s).1.any failed = false ∧ H (execAll cs s).2 y

theorem achieves_nil (H : Server → σ → Prop) (x : σ) : Achieves H [] x x :=
  fun _ h => ⟨rfl, h⟩

theorem execAll_append (cs ds : List Command) (s : Server) : execAll (cs ++ ds) s =
    ((execAll cs s).1 ++ (execAll ds (execAll cs s).2).1, (execAll ds (execAll cs s).2).2) := by
  induction cs generalizing s with
  | nil => rfl
  | cons c cs ih => simp only [List.cons_append, execAll, ih]

theorem Achieves.append (h : Achieves H cs x y) (h' : Achieves H ds y z) :
    Achieves H (cs ++ ds) x z := by
  intro s hs
  obtain ⟨hreplies, hy⟩ := h s hs
  obtain ⟨hreplies', hz⟩ := h' _ hy
  rw [execAll_append]
  exact ⟨by rw [List.any_append, hreplies, hreplies', Bool.or_false], hz⟩

theorem Achieves.single {c : Command} {r : Reply} {s' : Server} {s : Server} (h : exec c s = (r, s'))
    (hr : failed r = false) (hy : H s' y) :
    (execAll [c] s).1.any failed = false ∧ H (execAll [c] s).2 y := by
  simp only [execAll, h, List.any_cons, hr, List.any_nil, Bool.or_false, true_and]
  exact hy

end Achieves

/-- The keys of a component, the state they stand for and the steps of its clients on that
state; `Represents n` allows for `n` steps of anybody so far. -/
structure Component (σ τ : Type) where
  client : Client τ
  keys : String → Prop
  step : σ → τ → Option (σ × τ)
  elapse : ℕ → σ → σ
  Represents : ℕ → Server → σ → Prop
  Ready : τ → Prop
  frame : ∀ {n s s' x}, Represents n s x → s'.now = s.now → (∀ k, keys k → s'.keys k = s.keys k) →
    Represents (n + 1) s' x
  answers : ∀ {n s x t cs}, n < maxInteger → Ready t → Represents n s x →
    client.send s.now t = some cs →
      ∃ x' t', step x t = some (x', t') ∧ client.deliver t (execAll cs s).1 = .live t' ∧ Ready t' ∧
        Represents (n + 1) (execAll cs s).2 x'
  elapses : ∀ {n s x} (d : ℕ), Represents n s x → Represents (n + 1) (s.advance d) (elapse d x)

section Components
variable {σ τ ρ ℓ ι : Type} [DecidableEq ι] (K : Component σ τ)

def Component.program (ι : Type) : Program ι σ τ where
  step _ x t x' t' := K.step x t = some (x', t')
  env x x' := ∃ d, x' = K.elapse d x

/-- A system in which clients of the component run on a server with others. -/
structure Hosts (S : System ρ ℓ) (view : ρ → Pool ι Server (Running τ))
    (visible : ℓ → Option (Turn ι)) : Prop where
  own : ∀ {c l d i}, S.step c l d → visible l = some (.run i) →
    ∃ r, K.client.step (view c).shared ((view c).thread i) = some ((view d).shared, r) ∧
      (view d).thread = Function.update (view c).thread i r
  env : ∀ {c l d}, S.step c l d → visible l = some .env →
    (∃ e, (view d).shared = (view c).shared.advance e) ∧ (view d).thread = (view c).thread
  others : ∀ {c l d}, S.step c l d → visible l = none →
    ((view d).shared.now = (view c).shared.now ∧
      ∀ k, K.keys k → (view d).shared.keys k = (view c).shared.keys k) ∧
    (view d).thread = (view c).thread

structure Component.Related (n : ℕ) (c : Pool ι Server (Running τ)) (x : Pool ι σ τ) : Prop where
  state : K.Represents n c.shared x.shared
  threads : ∀ i, c.thread i = .live (x.thread i) ∧ K.Ready (x.thread i)

variable {K}

theorem related_step {S : System ρ ℓ} {view : ρ → Pool ι Server (Running τ)}
    {visible : ℓ → Option (Turn ι)} (hosts : Hosts K S view visible) {init : Pool ι σ τ → Prop}
    {n : ℕ} (hn : n < maxInteger) {c d : ρ} {l : ℓ} {x : Pool ι σ τ}
    (h : K.Related n (view c) x) (hs : S.step c l d) :
    Matches ((K.program ι).system init) (K.Related (n + 1) (view d)) x (visible l) := by
  cases hl : visible l with
  | none =>
    obtain ⟨⟨hnow, hkeys⟩, hthread⟩ := hosts.others hs hl
    exact ⟨K.frame h.state hnow hkeys, fun i => hthread ▸ h.threads i⟩
  | some turn =>
    cases turn with
    | env =>
      obtain ⟨⟨e, he⟩, hthread⟩ := hosts.env hs hl
      refine ⟨⟨K.elapse e x.shared, x.thread⟩, PoolStep.env ⟨e, rfl⟩, ?_,
        fun i => hthread ▸ h.threads i⟩
      rw [he]
      exact K.elapses e h.state
    | run i =>
      obtain ⟨r, hstep, hthread⟩ := hosts.own hs hl
      obtain ⟨hlive, hready⟩ := h.threads i
      obtain ⟨t, cs, ht, hsend, hshared, hr⟩ := step_live hstep
      rw [hlive] at ht
      cases ht
      obtain ⟨x', t', hx, hdeliver, hready', hrep⟩ := K.answers hn hready h.state hsend
      refine ⟨⟨x', Function.update x.thread i t'⟩, PoolStep.run i hx, by rw [hshared]; exact hrep, ?_⟩
      intro j
      by_cases hj : j = i
      · subst hj
        rw [hthread]
        simp only [Function.update_self, hr, hdeliver, hready', and_self]
      · rw [hthread]
        simp only [Function.update_of_ne hj]
        exact h.threads j

/-- What the clients of a component see on a shared server is a run of its model, in which no
client ever breaks. -/
theorem Hosts.runs {S : System ρ ℓ} {view : ρ → Pool ι Server (Running τ)}
    {visible : ℓ → Option (Turn ι)} (hosts : Hosts K S view visible) (init : Pool ι σ τ → Prop)
    {c d : ρ} {p : List (ρ × ℓ)} (h : Runs S c p d) (hp : p.length ≤ maxInteger) {x : Pool ι σ τ}
    (hx : K.Related 0 (view c) x) :
    ∃ q y, Runs ((K.program ι).system init) x q y ∧
      q.map Prod.snd = p.filterMap (fun a => visible a.2) ∧ K.Related p.length (view d) y :=
  Runs.simulates (fun p s t => K.Related p.length (view s) t) (fun a => visible a.2)
    (fun p => p.length ≤ maxInteger) (fun _ _ hp => Nat.le_of_succ_le hp)
    (fun _ _ _ _ _ hn hR hs => related_step hosts hn hR hs) h hp hx

end Components

end AuthService.RedisClients
