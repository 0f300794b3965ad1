import Mathlib.Data.List.Forall2
import Skirmish.Proofs.PendingInput
/-!
# What an input is about

Of all that an input says, the signs of its axes and the trigger are for the game (`Input.Agrees`). Who
the sender claims to be, what the sender's clock shows, the other buttons and how far an axis is pushed
are carried along and never looked at.

In the slots such differences last until the next step of time: then every waiting input is obeyed, and
inputs that agree are obeyed alike (`World.steer_withPending`). So two runs with inputs that agree have
the same record (`Simulation.record_agrees`).
-/

namespace Skirmish

open Wire (Input)

/-- The two inputs hold the trigger alike and point in the same direction. -/
structure Wire.Input.Agrees (i j : Input) : Prop where
  trigger : j.buttons &&& Wire.shootButton = i.buttons &&& Wire.shootButton
  signX : j.moveX.toInt.sign = i.moveX.toInt.sign
  signY : j.moveY.toInt.sign = i.moveY.toInt.sign

namespace Wire.Input.Agrees

theorem refl (i : Input) : i.Agrees i := ⟨rfl, rfl, rfl⟩

variable {i j : Input}

theorem shoots (h : i.Agrees j) : j.shoots = i.shoots := by
  rw [Input.shoots, h.trigger, Input.shoots]

theorem steeredVelocity (h : i.Agrees j) (t : Tuning) :
    World.steeredVelocity t j = World.steeredVelocity t i := by
  rw [World.steeredVelocity, World.axisSign, World.axisSign, h.signX, h.signY]
  rfl

end Wire.Input.Agrees

/-- The other inputs agree with those that are there, and there are no more and no fewer. -/
def Agreeable (f : UInt8 → Option Input → Option Input) : Prop :=
  ∀ id, f id none = none ∧ ∀ i, ∃ j, f id (some i) = some j ∧ i.Agrees j

theorem SortedMap.keys_map {κ α β : Type} [Ranked κ] (f : κ → α → β) (m : SortedMap κ α) :
    (m.map f).keys = m.keys := by
  simp only [keys, map, List.map_map]
  rfl

/-- These players keep their inputs, others wait in the slots of all others. -/
def exceptFor (ids : List UInt8) (f : UInt8 → Option Input → Option Input) :
    UInt8 → Option Input → Option Input :=
  fun id x => if id ∈ ids then x else f id x

section

variable {ids : List UInt8} {f : UInt8 → Option Input → Option Input} {id : UInt8} {x : Option Input}

theorem exceptFor_of_mem (h : id ∈ ids) : exceptFor ids f id x = x := if_pos h

theorem exceptFor_of_not_mem (h : id ∉ ids) : exceptFor ids f id x = f id x := if_neg h

theorem Agreeable.exceptFor (hf : Agreeable f) : Agreeable (exceptFor ids f) := by
  intro id
  unfold Skirmish.exceptFor
  split
  · exact ⟨rfl, fun i => ⟨i, rfl, .refl i⟩⟩
  · exact hf id

end

namespace World

variable {w : World} {f : UInt8 → Option Input → Option Input}

/-! ## Obeying -/

theorem fire_withPending (t : Tuning) (now : Double) (endpoints : List Endpoint) (id : UInt8)
    (origin : Vector2) : (w.withPending f).fire t now endpoints id origin =
      ((w.fire t now endpoints id origin).1.withPending f,
        (w.fire t now endpoints id origin).2) := by
  have hreload : (w.withPending f).modifySlot id (fun s => { s with lastShot := some now }) =
      (w.modifySlot id fun s => { s with lastShot := some now }).withPending f :=
    modifySlot_withPending (fun _ _ => rfl) fun _ _ => rfl
  unfold fire
  simp only [hreload, spawnBullet_eq, summon_withPending, spawnMessage?_withPending]

/-- How an input is obeyed does not depend on what waits in the slots, and not on what the input says
beyond its direction and its trigger. -/
theorem obey_withPending (t : Tuning) (now : Double) (endpoints : List Endpoint) (id : UInt8)
    {i j : Input} (h : i.Agrees j) : (w.withPending f).obey t now endpoints id j =
      ((w.obey t now endpoints id i).1.withPending f, (w.obey t now endpoints id i).2) := by
  unfold obey
  rw [playerEntity?_withPending, h.steeredVelocity, h.shoots]
  -- the avatar turns by the signs alone and fires by the button alone; being ready is in the slot
  cases w.playerEntity? id with
  | none => rfl
  | some k =>
    have hready : ((w.withPending f).players.get? id).map (isReady t now) =
        (w.players.get? id).map (isReady t now) := by
      rw [get?_players_withPending, Option.map_map]
      rfl
    have hregistry : (w.withPending f).registry = w.registry := rfl
    dsimp only
    rw [hready, hregistry]
    split
    · -- the avatar has turned, and may fire from where it is
      let turned := { w with registry := w.registry.insert .velocity k (steeredVelocity t i) }
      cases (w.registry.insert .velocity k (steeredVelocity t i)).get? .position k with
      | none => rfl
      | some origin => exact fire_withPending (w := turned) t now endpoints id origin
    · rfl

theorem steerPlayer_withPending (hf : Agreeable f) (t : Tuning) (now : Double)
    (endpoints : List Endpoint) (id : UInt8) : (w.withPending f).steerPlayer t now endpoints id =
      ((w.steerPlayer t now endpoints id).1.withPending (exceptFor [id] f),
        (w.steerPlayer t now endpoints id).2) := by
  obtain ⟨hnone, hsome⟩ := hf id
  -- what waits there is what waits here, exchanged for an input that agrees with it
  have hpending : ((w.withPending f).players.get? id).bind Slot.pending =
      ((w.players.get? id).bind Slot.pending).bind fun i => f id (some i) := by
    rw [get?_players_withPending]
    cases w.players.get? id with
    | none => rfl
    | some slot =>
      show f id slot.pending = slot.pending.bind _
      cases slot.pending with
      | none => exact hnone
      | some i => rfl
  unfold steerPlayer
  rw [hpending]
  cases hwait : (w.players.get? id).bind Slot.pending with
  | none =>
    -- nothing waits for this player, neither here nor there
    have hsame : w.withPending f = w.withPending (exceptFor [id] f) := by
      refine withPending_congr fun q slot hslot => ?_
      by_cases hq : q = id
      · rw [← hq, hslot, Option.bind_some] at hwait
        rw [exceptFor_of_mem (List.mem_singleton.mpr hq), hwait, hq, hnone]
      · rw [exceptFor_of_not_mem (mt List.mem_singleton.mp hq)]
    rw [hsame]
    rfl
  | some i =>
    obtain ⟨j, hj, hagrees⟩ := hsome i
    -- an input that is taken leaves none to exchange, so the player drops out of the exchange
    have htaken : (w.withPending f).modifySlot id (fun s => { s with pending := none }) =
        (w.modifySlot id fun s => { s with pending := none }).withPending (exceptFor [id] f) := by
      refine modifySlot_withPending (fun q hq => ?_) fun s _ => ?_
      · funext x
        rw [exceptFor_of_not_mem (mt List.mem_singleton.mp hq)]
      · simp only [exceptFor_of_mem List.mem_cons_self]
    simp only [Option.bind_some, hj, htaken]
    exact obey_withPending t now endpoints id hagrees

/-- Once players have been obeyed, it does not matter any more which inputs they sent. -/
theorem steerPlayers_withPending (t : Tuning) (now : Double) (endpoints : List Endpoint)
    (ids : List UInt8) : ∀ {w : World} {f : UInt8 → Option Input → Option Input}, Agreeable f →
      steerPlayers t now endpoints ids (w.withPending f) =
        ((steerPlayers t now endpoints ids w).1.withPending (exceptFor ids f),
          (steerPlayers t now endpoints ids w).2) := by
  induction ids with
  | nil => exact fun _ => rfl
  | cons id rest ih =>
    intro w f hf
    have hsplit : exceptFor rest (exceptFor [id] f) = exceptFor (id :: rest) f := by
      funext q x
      by_cases hq : q ∈ rest
      · rw [exceptFor_of_mem hq, exceptFor_of_mem (List.mem_cons_of_mem _ hq)]
      · rw [exceptFor_of_not_mem hq]
        simp only [exceptFor, List.mem_cons, hq, List.not_mem_nil, or_false]
    unfold steerPlayers
    simp only [steerPlayer_withPending hf, ih hf.exceptFor, hsplit]

/-- Nobody gets a slot by being steered. -/
theorem get?_players_steerPlayers_of_none (t : Tuning) (now : Double) (endpoints : List Endpoint)
    {q : UInt8} (ids : List UInt8) : ∀ {w : World}, w.players.get? q = none →
      (steerPlayers t now endpoints ids w).1.players.get? q = none := by
  induction ids with
  | nil => exact id
  | cons id rest ih =>
    intro w hq
    have hfirst : (w.steerPlayer t now endpoints id).1.players.get? q = none := by
      by_cases hid : id = q
      · -- without a slot there is nothing to obey
        rw [steerPlayer, hid, hq]
        exact hq
      · rw [get?_players_steerPlayer t now endpoints hid, hq]
    exact ih hfirst

/-- **Steering leaves no trace of what does not matter about the inputs.** -/
theorem steer_withPending (hf : Agreeable f) (t : Tuning) (now : Double) :
    (w.withPending f).steer t now = w.steer t now := by
  have hkeys : (w.withPending f).players.keys = w.players.keys := SortedMap.keys_map _ _
  rw [steer, endpoints_withPending, hkeys, steerPlayers_withPending t now _ _ hf]
  refine Prod.ext (withPending_self fun id slot hslot => exceptFor_of_mem ?_) rfl
  -- every slot is that of a player who has been steered
  rw [SortedMap.mem_keys_iff, ← Option.ne_none_iff_isSome]
  intro hnone
  rw [get?_players_steerPlayers_of_none t now w.endpoints w.players.keys hnone] at hslot
  cases hslot

end World

/-! ## Runs -/

/-- The same event, but for what does not matter about an input. -/
inductive Event.Agrees : Event → Event → Prop
  | refl (e : Event) : Agrees e e
  | input (id : UInt8) {i j : Input} (h : i.Agrees j) : Agrees (.input id i) (.input id j)

/-- The same step, but for what does not matter about an input. -/
inductive Step.Agrees : Step → Step → Prop
  | event {e e' : Event} (h : e.Agrees e') : Agrees (.event e) (.event e')
  | tick (dt : Single) : Agrees (.tick dt) (.tick dt)

namespace Simulation

variable {s s' : Simulation}

/-- The same state, but for what does not matter about the inputs that wait. -/
def Agrees (s s' : Simulation) : Prop := ∃ f, Agreeable f ∧ s' = s.withPending f

theorem Agrees.refl (s : Simulation) : s.Agrees s := by
  refine ⟨fun _ x => x, fun _ => ⟨rfl, fun i => ⟨i, rfl, .refl i⟩⟩, ?_⟩
  have hworld : s.world.withPending (fun _ x => x) = s.world :=
    World.withPending_self fun _ _ _ => rfl
  simp only [withPending, hworld]

/-- Events that agree lead to states that agree. -/
theorem Agrees.handle (hs : s.Agrees s') {e e' : Event} (he : e.Agrees e') :
    (s.handle e).Agrees (s'.handle e') := by
  obtain ⟨f, hf, rfl⟩ := hs
  -- an input replaces what waits, so from now on this one is exchanged for the other
  have hinput : ∀ (p : UInt8) {i j : Input}, i.Agrees j →
      (s.handle (.input p i)).Agrees ((s.withPending f).handle (.input p j)) := by
    intro p i j hij
    refine ⟨fun id x => if id = p then (if x = some i then some j else x) else f id x, ?_, ?_⟩
    · intro id
      by_cases hid : id = p
      · simp only [if_pos hid]
        refine ⟨if_neg (by simp), fun k => ?_⟩
        by_cases hk : k = i
        · exact ⟨j, if_pos (congrArg some hk), hk ▸ hij⟩
        · exact ⟨k, if_neg (fun h => hk (Option.some.inj h)), .refl k⟩
      · simp only [if_neg hid]
        exact hf id
    · rw [handle_input, handle_input, withPending_withPending, withPending_withPending]
      congr 1
      funext id x
      by_cases hid : id = p
      · simp only [waiting, if_pos hid, if_true]
      · simp only [waiting, if_neg hid]
  cases he with
  | input p hij => exact hinput p hij
  | refl =>
    -- the same event changes nothing in what waits, unless it is an input
    by_cases hi : ∃ p i, e = .input p i
    · obtain ⟨p, i, rfl⟩ := hi
      exact hinput p (.refl i)
    · exact ⟨f, hf, handle_withPending (fun p i h => hi ⟨p, i, h⟩) (hf _).1⟩

/-- A step of time does the same to states that agree, faults included. -/
theorem Agrees.tick (hs : s.Agrees s') (dt : Single) : s'.tick dt = s.tick dt := by
  obtain ⟨f, hf, rfl⟩ := hs
  have hsteer : ((s.withPending f).passTime dt).steer = (s.passTime dt).steer := by
    have heq : ∀ x : Simulation, x.steer =
        { x with world := (x.world.steer x.tuning x.clock).1 }.say
          (x.world.steer x.tuning x.clock).2 := fun _ => rfl
    have hworld : ((s.withPending f).passTime dt).world.steer s.tuning (s.clock + dt.toDouble) =
        (s.passTime dt).world.steer s.tuning (s.clock + dt.toDouble) :=
      World.steer_withPending hf s.tuning (s.clock + dt.toDouble)
    rw [heq, heq]
    show { s.passTime dt with world := (((s.withPending f).passTime dt).world.steer s.tuning
      (s.clock + dt.toDouble)).1 }.say (((s.withPending f).passTime dt).world.steer s.tuning
        (s.clock + dt.toDouble)).2 = _
    rw [hworld]
    rfl
  rw [Simulation.tick, hsteer, Simulation.tick]

theorem Agrees.record {steps steps' : List Step} (h : List.Forall₂ Step.Agrees steps steps') :
    ∀ {s s' : Simulation}, s.Agrees s' → s'.record steps' = s.record steps := by
  induction h with
  | nil => exact fun _ => rfl
  | cons hx _ ih =>
    intro s s' hs
    cases hx with
    | event he => exact ih (hs.handle he)
    | tick dt =>
      rw [Simulation.record, hs.tick, Simulation.record]
      cases s.tick dt with
      | error cause => rfl
      | ok r => exact congrArg _ (ih (.refl r.1))

/-- **What does not matter about an input makes no difference.** Take two runs from the same new game
with the same events and steps of time, but for inputs that differ in the sender's clock, in who the
sender claims to be, in buttons other than the trigger, or in how far an axis is pushed in its
direction. Every step of time hands over the same in both, and leaves the same state. If a fault ends
the one, it ends the other in the same step. -/
theorem record_agrees (settings : Settings) (entropy : Generator) {steps steps' : List Step}
    (h : List.Forall₂ Step.Agrees steps steps') :
    (start settings entropy).record steps' = (start settings entropy).record steps :=
  Agrees.record h (.refl _)

/-- A player turns, fires and turns back. -/
def plainInputs : List Step := [
  .event (.connected 1 "ace"),
  .event (.udpReady 1 ⟨.v4 (.replicate 4 10), 7001⟩),
  .event (.input 1 ⟨0, 1, Wire.shootButton, 1, 0⟩),
  .tick ⟨0x3c888889⟩,
  .event (.input 1 ⟨1, 1, 0, -1, 1⟩),
  .tick ⟨0x3c888889⟩]

/-- The same player under a false name, with all other buttons and with as much force as there is. -/
def forgedInputs : List Step := [
  .event (.connected 1 "ace"),
  .event (.udpReady 1 ⟨.v4 (.replicate 4 10), 7001⟩),
  .event (.input 1 ⟨0xffffffff, 2, 0xff, 127, 0⟩),
  .tick ⟨0x3c888889⟩,
  .event (.input 1 ⟨0, 255, 0xfe, -128, 127⟩),
  .tick ⟨0x3c888889⟩]

theorem record_agrees_of_forgedInputs :
    List.Forall₂ Step.Agrees plainInputs forgedInputs ∧
    ((start .default (.ofSeed 0)).record plainInputs).map (·.toOption.isSome) = [true, true] ∧
    (start .default (.ofSeed 0)).record forgedInputs =
      (start .default (.ofSeed 0)).record plainInputs := by
  have hfirst : Input.Agrees ⟨0, 1, Wire.shootButton, 1, 0⟩ ⟨0xffffffff, 2, 0xff, 127, 0⟩ :=
    ⟨by decide, by decide, by decide⟩
  have hsecond : Input.Agrees ⟨1, 1, 0, -1, 1⟩ ⟨0, 255, 0xfe, -128, 127⟩ :=
    ⟨by decide, by decide, by decide⟩
  have hsame : List.Forall₂ Step.Agrees plainInputs forgedInputs :=
    .cons (.event (.refl _)) (.cons (.event (.refl _)) (.cons (.event (.input 1 hfirst))
      (.cons (.tick _) (.cons (.event (.input 1 hsecond)) (.cons (.tick _) .nil)))))
  exact ⟨hsame, by decide +kernel, record_agrees .default (.ofSeed 0) hsame⟩

end Simulation

end Skirmish
