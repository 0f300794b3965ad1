import Skirmish.Proofs.Failing
import Skirmish.Simulation
/-!
# Runs of a simulation

A run is a list of steps, each an event or the passing of time, taken one after the other. It ends
in a state, and on the way it has handed over what was to be sent. A fault ends it without a state.

Network ids are counted along the way. A step hands out one for the avatar of a player who comes, one
for each player who fires, and one if the wave brings an enemy (`Simulation.births`). The ids go round
in a circle, so what holds of a run holds only as long as the circle has not been closed.

What can be seen of a run from outside is its record, which has an entry for every step of time.
-/

namespace Skirmish

/-- The next thing that happens to a simulation. -/
inductive Step where
  | event (e : Event)
  | tick (dt : Single)
deriving DecidableEq, Repr

/-! ## Births -/

namespace World

/-- The player fires in the coming step. -/
def fires (w : World) (t : Tuning) (now : Double) (id : UInt8) : Bool :=
  match w.players.get? id with
  | none => false
  | some slot =>
    slot.pending.any Wire.Input.shoots && isReady t now slot &&
      (w.playerEntity? id).any fun h => w.registry.has .position h

/-- The players who fire in the coming step. -/
def shooters (w : World) (t : Tuning) (now : Double) : List UInt8 :=
  w.players.keys.filter (w.fires t now)

end World

/-- How many enemies the wave brings. -/
def Wave.arrivals (wave : Wave) (t : Tuning) (g : Generator) (dt : Single) : Nat :=
  match wave.advance t g dt with
  | .ok (some _, _) => 1
  | _ => 0

namespace Simulation

/-- How many network ids a step hands out. -/
def births (s : Simulation) : Step → Nat
  | .event (.connected _ _) => 1
  | .event _ => 0
  | .tick dt =>
    (s.world.shooters s.tuning (s.clock + dt.toDouble)).length +
      s.wave.arrivals s.tuning s.generator dt

/-! ## Runs -/

/-- One step, and what it hands over. -/
def step (s : Simulation) : Step → Except StepFault (Simulation × List Dispatch)
  | .event e => .ok (s.handle e, [])
  | .tick dt => s.tick dt

/-- Where a run ends. -/
structure Outcome where
  simulation : Simulation
  /-- What has been handed over. -/
  sent : List Dispatch
  /-- How many network ids have been handed out. -/
  ids : Nat

/-- Everything that has been said since the run began, what has not been handed over included. -/
def Outcome.said (o : Outcome) : List Dispatch := o.sent ++ o.simulation.outbox

/-- The steps one after the other. -/
def run (s : Simulation) : List Step → Except StepFault Outcome
  | [] => .ok ⟨s, [], 0⟩
  | x :: rest => do
    let (next, sent) ← s.step x
    let o ← next.run rest
    return ⟨o.simulation, sent ++ o.sent, s.births x + o.ids⟩

theorem run_nil (s : Simulation) : s.run [] = .ok ⟨s, [], 0⟩ := rfl

/-- A run is its first step and the run that follows. -/
theorem run_cons {s : Simulation} {x : Step} {rest : List Step} {o : Outcome}
    (h : s.run (x :: rest) = .ok o) :
    ∃ next sent o', s.step x = .ok (next, sent) ∧ next.run rest = .ok o' ∧
      o = ⟨o'.simulation, sent ++ o'.sent, s.births x + o'.ids⟩ := by
  simp only [run, bind, Except.bind] at h
  split at h
  · cases h
  · rename_i p hp
    split at h
    · cases h
    · rename_i o' ho
      exact ⟨p.1, p.2, o', hp, ho, by cases h; rfl⟩

/-- A first step and the run that follows are a run. -/
theorem run_cons_of_step {s next : Simulation} {x : Step} {rest : List Step}
    {sent : List Dispatch} {o : Outcome} (hx : s.step x = .ok (next, sent))
    (h : next.run rest = .ok o) :
    s.run (x :: rest) = .ok ⟨o.simulation, sent ++ o.sent, s.births x + o.ids⟩ := by
  simp only [run, bind, Except.bind, hx, h]
  rfl

/-- A run is a part of it and the run that follows. -/
theorem run_append {steps : List Step} : ∀ {s : Simulation} {rest : List Step} {o : Outcome},
    s.run (steps ++ rest) = .ok o → ∃ o₁ o₂, s.run steps = .ok o₁ ∧
      o₁.simulation.run rest = .ok o₂ ∧
      o = ⟨o₂.simulation, o₁.sent ++ o₂.sent, o₁.ids + o₂.ids⟩ := by
  induction steps with
  | nil =>
    intro s rest o h
    refine ⟨⟨s, [], 0⟩, o, rfl, h, ?_⟩
    rw [List.nil_append, Nat.zero_add]
  | cons x steps ih =>
    intro s rest o h
    obtain ⟨next, sent, o', hx, hrest, rfl⟩ := run_cons h
    obtain ⟨o₁, o₂, h₁, h₂, rfl⟩ := ih hrest
    refine ⟨_, o₂, run_cons_of_step hx h₁, h₂, ?_⟩
    rw [List.append_assoc, Nat.add_assoc]

/-- A part of a run and the run that follows are a run. -/
theorem run_append_of_run {steps : List Step} : ∀ {s : Simulation} {rest : List Step}
    {o₁ o₂ : Outcome}, s.run steps = .ok o₁ → o₁.simulation.run rest = .ok o₂ →
      s.run (steps ++ rest) = .ok ⟨o₂.simulation, o₁.sent ++ o₂.sent, o₁.ids + o₂.ids⟩ := by
  induction steps with
  | nil =>
    intro s rest o₁ o₂ h₁ h₂
    cases h₁
    rw [List.nil_append, List.nil_append, Nat.zero_add]
    exact h₂
  | cons x steps ih =>
    intro s rest o₁ o₂ h₁ h₂
    obtain ⟨next, sent, o', hx, hrest, rfl⟩ := run_cons h₁
    rw [List.cons_append, run_cons_of_step hx (ih hrest h₂), List.append_assoc, Nat.add_assoc]

/-- A run with an event in it goes on from the event as a run of its own. -/
theorem run_after_event {s : Simulation} {steps rest : List Step} {e : Event} {o₁ o : Outcome}
    (h₁ : s.run steps = .ok o₁) (h : s.run (steps ++ .event e :: rest) = .ok o) :
    ∃ o₂, (o₁.simulation.handle e).run rest = .ok o₂ ∧
      o = ⟨o₂.simulation, o₁.sent ++ o₂.sent, o₁.ids + (o₁.simulation.births (.event e) + o₂.ids)⟩ := by
  obtain ⟨o₁', o₂, h₁', h₂, rfl⟩ := run_append h
  rw [h₁, Except.ok.injEq] at h₁'
  subst h₁'
  obtain ⟨next, sent, o₃, hx, h₃, rfl⟩ := run_cons h₂
  obtain ⟨rfl, rfl⟩ := Prod.mk.inj (Except.ok.inj hx)
  exact ⟨o₃, h₃, rfl⟩

/-- A run that counts its ids has an outcome. -/
theorem exists_outcome {r : Except StepFault Outcome} {n : Nat}
    (h : r.toOption.map Outcome.ids = some n) : ∃ o, r = .ok o ∧ o.ids = n := by
  cases r with
  | error cause => cases h
  | ok o => exact ⟨o, rfl, Option.some.inj h⟩

/-- A property of states, in view of how many ids have been handed out, that every step keeps is a
property of whatever a run reaches. -/
theorem run_invariant {P : Nat → Simulation → Prop} {limit : Nat}
    (hstep : ∀ {n s x next sent}, P n s → n + s.births x < limit → s.step x = .ok (next, sent) →
      P (n + s.births x) next)
    {steps : List Step} : ∀ {n s o}, P n s → n + o.ids < limit → s.run steps = .ok o →
      P (n + o.ids) o.simulation := by
  induction steps with
  | nil =>
    intro n s o hP _ h
    cases h
    exact hP
  | cons x rest ih =>
    intro n s o hP hlim h
    obtain ⟨next, sent, o', hx, hrest, rfl⟩ := run_cons h
    have hn : n + (s.births x + o'.ids) < limit := hlim
    have hnext := hstep hP (by omega) hx
    have := ih hnext (by omega) hrest
    rwa [Nat.add_assoc] at this

/-! ## Records -/

/-- What every step of time in a run makes of the simulation, and what it hands over. Whatever fault
ends the run is the last entry. -/
def record (s : Simulation) : List Step → List (Except StepFault (Simulation × List Dispatch))
  | [] => []
  | .event e :: rest => (s.handle e).record rest
  | .tick dt :: rest =>
    match s.tick dt with
    | .ok (next, sent) => .ok (next, sent) :: next.record rest
    | .error cause => [.error cause]

/-- Events leave no entry of their own. -/
theorem record_events_append (events : List Event) (steps : List Step) : ∀ s : Simulation,
    s.record (events.map .event ++ steps) = (events.foldl handle s).record steps := by
  induction events with
  | nil => exact fun _ => rfl
  | cons e rest ih => exact fun s => ih (s.handle e)

end Simulation

end Skirmish
