import Skirmish.Proofs.Systems
/-!
# Inputs that wait

Between two steps of time an input waits in the slot of its player. Nothing that happens in the
meantime looks at it: `World.withPending` puts other inputs into the slots, and an event does the same
to the world with the one or the other inputs in it (`Simulation.handle_withPending`).

So it does not matter when an input comes among the events of others, and of several inputs of a
player only the last one before a step of time counts (`Simulation.inputs_coalesce`).
-/

namespace Skirmish

open Wire (Input)

namespace World

/-- Worlds with the same entities, the same slots and the same next network id are the same. -/
theorem eq_of_slots {w w' : World} (hreg : w'.registry = w.registry)
    (hnext : w'.nextNetworkId = w.nextNetworkId)
    (hslots : ∀ id, w'.players.get? id = w.players.get? id) : w' = w := by
  have hplayers : w'.players = w.players := SortedMap.ext_get? hslots
  cases w
  cases w'
  cases hreg
  cases hnext
  cases hplayers
  rfl

/-! ## Other inputs in the slots -/

/-- Other inputs wait in the slots. -/
def withPending (w : World) (f : UInt8 → Option Input → Option Input) : World :=
  { w with players := w.players.map fun id s => { s with pending := f id s.pending } }

variable {w : World} {f g : UInt8 → Option Input → Option Input}

theorem get?_players_withPending (id : UInt8) : (w.withPending f).players.get? id =
    (w.players.get? id).map fun s => { s with pending := f id s.pending } :=
  SortedMap.get?_map _ _ _

/-- What matters is what becomes of the inputs that are there. -/
theorem withPending_congr
    (h : ∀ id s, w.players.get? id = some s → f id s.pending = g id s.pending) :
    w.withPending f = w.withPending g := by
  refine eq_of_slots rfl rfl fun id => ?_
  rw [get?_players_withPending, get?_players_withPending]
  cases hslot : w.players.get? id with
  | none => rfl
  | some s => rw [Option.map_some, Option.map_some, h id s hslot]

theorem withPending_self (h : ∀ id s, w.players.get? id = some s → f id s.pending = s.pending) :
    w.withPending f = w := by
  refine eq_of_slots rfl rfl fun id => ?_
  rw [get?_players_withPending]
  cases hslot : w.players.get? id with
  | none => rfl
  | some s => rw [Option.map_some, h id s hslot]

theorem withPending_withPending :
    (w.withPending f).withPending g = w.withPending fun id x => g id (f id x) := by
  refine eq_of_slots rfl rfl fun id => ?_
  rw [get?_players_withPending, get?_players_withPending, get?_players_withPending, Option.map_map]
  rfl

/-! ### What does not look at them -/

theorem endpoints_withPending : (w.withPending f).endpoints = w.endpoints := by
  refine endpoints_congr (SortedMap.ext_get? fun id => ?_)
  rw [get?_roll, get?_roll, get?_players_withPending, Option.map_map]
  rfl

theorem playerEntity?_withPending (id : UInt8) :
    (w.withPending f).playerEntity? id = w.playerEntity? id := by
  rw [playerEntity?, playerEntity?, get?_players_withPending, Option.bind_map]
  rfl

theorem spawnMessage?_withPending (h : Handle) :
    (w.withPending f).spawnMessage? h = w.spawnMessage? h := by
  have hname : ∀ id, ((w.withPending f).players.get? id).map Slot.username =
      (w.players.get? id).map Slot.username := by
    intro id
    rw [get?_players_withPending, Option.map_map]
    rfl
  unfold spawnMessage?
  simp only [hname]
  rfl

/-- A slot is changed, whatever input waits in it. -/
theorem modifySlot_withPending {id : UInt8} {change change' : Slot → Slot}
    (hothers : ∀ q, q ≠ id → f q = g q)
    (h : ∀ s, w.players.get? id = some s → change' { s with pending := f id s.pending } =
      { change s with pending := g id (change s).pending }) :
    (w.withPending f).modifySlot id change' = (w.modifySlot id change).withPending g := by
  refine eq_of_slots rfl rfl fun q => ?_
  rw [get?_players_modifySlot, get?_players_withPending, get?_players_withPending,
    get?_players_modifySlot]
  by_cases hq : id = q
  · subst hq
    rw [if_pos rfl, if_pos rfl]
    cases hslot : w.players.get? id with
    | none => rfl
    | some s => exact congrArg some (h s hslot)
  · rw [if_neg hq, if_neg hq, hothers q (Ne.symm hq)]

/-- Where a player is reached has nothing to do with what waits. -/
theorem reached_withPending (id : UInt8) (endpoint : Endpoint) :
    (w.withPending f).modifySlot id (fun slot => { slot with endpoint := some endpoint }) =
      (w.modifySlot id fun slot => { slot with endpoint := some endpoint }).withPending f :=
  modifySlot_withPending (fun _ _ => rfl) fun _ _ => rfl

theorem reap_withPending (condemned : HandleSet) : (w.withPending f).reap condemned =
    ((w.reap condemned).1.withPending f, (w.reap condemned).2) := by
  -- the notices go by the endpoints, which an input makes no difference to
  have hnotices : (w.withPending f).destroyNotices = w.destroyNotices := by
    funext h
    unfold destroyNotices
    rw [endpoints_withPending]
    rfl
  refine Prod.ext (eq_of_slots rfl rfl fun id => ?_) ?_
  · show ((w.withPending f).players.map fun _ => releasedFrom (w.reaped condemned)).get? id = _
    rw [get?_players_withPending, SortedMap.get?_map, get?_players_withPending]
    show _ = ((w.players.map fun _ => releasedFrom (w.reaped condemned)).get? id).map _
    rw [SortedMap.get?_map, Option.map_map, Option.map_map]
    congr 1
    funext s
    -- whoever is released from the dead keeps the input
    dsimp only [Function.comp, releasedFrom]
    split
    · split
      · rfl
      · rfl
    · rfl
  · show (w.reaped condemned).flatMap (w.withPending f).destroyNotices = _
    rw [hnotices]
    rfl

theorem summon_withPending (parts : List Part) : (w.withPending f).summon parts =
    ((w.summon parts).1, (w.summon parts).2.withPending f) := rfl

/-- For a player who comes no input waits. -/
theorem spawnPlayer_withPending (t : Tuning) {id : UInt8} (hf : f id none = none)
    (username : String) : ((w.withPending f).spawnPlayer t id username).2 =
      (w.spawnPlayer t id username).2.withPending f := by
  rw [spawnPlayer_snd, spawnPlayer_snd, summon_withPending]
  refine eq_of_slots rfl rfl fun q => ?_
  rw [get?_players_withPending, SortedMap.get?_insert, SortedMap.get?_insert,
    get?_players_withPending]
  split
  · rename_i hq
    rw [← hq, Option.map_some, hf]
    rfl
  · rfl

end World

namespace Simulation

/-! ## Events -/

/-- Other inputs wait in the slots. -/
def withPending (s : Simulation) (f : UInt8 → Option Input → Option Input) : Simulation :=
  { s with world := s.world.withPending f }

variable {s : Simulation} {f : UInt8 → Option Input → Option Input}

/-- The condemned are reaped, whatever inputs wait. -/
theorem reap_withPending (s : Simulation) : (s.withPending f).reap = s.reap.withPending f := by
  have heq : ∀ x : Simulation, x.reap =
      { x with
        world := (x.world.reap x.condemned).1
        condemned := ∅
        outbox := x.outbox ++ (x.world.reap x.condemned).2 } := fun _ => rfl
  rw [heq, heq]
  simp only [withPending, World.reap_withPending]

theorem connect_withPending {id : UInt8} (hf : f id none = none) (username : String) :
    (s.withPending f).connect id username = (s.connect id username).withPending f := by
  have hentity : (s.withPending f).world.playerEntity? id = s.world.playerEntity? id :=
    World.playerEntity?_withPending id
  unfold connect
  rw [hentity]
  cases s.world.playerEntity? id with
  | none => simp only [withPending, World.spawnPlayer_withPending s.tuning hf]
  | some stale =>
    have hreap : ((s.withPending f).condemn [stale]).reap =
        (s.condemn [stale]).reap.withPending f := reap_withPending (s.condemn [stale])
    simp only [hreap]
    simp only [withPending, World.spawnPlayer_withPending _ hf]

theorem disconnect_withPending (id : UInt8) :
    (s.withPending f).disconnect id = (s.disconnect id).withPending f := by
  have hslot : (s.withPending f).world.players.get? id =
      (s.world.players.get? id).map fun slot => { slot with pending := f id slot.pending } :=
    World.get?_players_withPending id
  -- the slot that goes is the same one, whatever waits in it or in the others
  have herase : { s.world.withPending f with players := (s.world.withPending f).players.erase id } =
      ({ s.world with players := s.world.players.erase id } : World).withPending f := by
    refine World.eq_of_slots rfl rfl fun q => ?_
    rw [World.get?_players_withPending, SortedMap.get?_erase, SortedMap.get?_erase,
      World.get?_players_withPending]
    split
    · rfl
    · rfl
  unfold disconnect
  rw [hslot]
  cases s.world.players.get? id with
  | none => rfl
  | some slot =>
    -- the slot goes with whatever waits in it
    let gone := { s with world := { s.world with players := s.world.players.erase id } }
    have hgone : { s.withPending f with
        world := { (s.withPending f).world with
          players := (s.withPending f).world.players.erase id } } = gone.withPending f := by
      simp only [withPending, herase, gone]
    simp only [Option.map_some, hgone]
    cases slot.entity with
    | none => rfl
    | some h => exact reap_withPending (gone.condemn [h])

theorem catchUp_withPending (w : World) (own : Option Handle) (endpoint : Endpoint) :
    catchUp (w.withPending f) own endpoint = catchUp w own endpoint := by
  simp only [catchUp, World.spawnMessage?_withPending]
  rfl

theorem introduction_withPending (w : World) (own : Option Handle) :
    introduction (w.withPending f) own = introduction w own := by
  have hmessage : (w.withPending f).spawnMessage? = w.spawnMessage? :=
    funext World.spawnMessage?_withPending
  rw [introduction, introduction, hmessage, World.endpoints_withPending]

theorem welcome_withPending (id : UInt8) (endpoint : Endpoint) :
    (s.withPending f).welcome id endpoint = (s.welcome id endpoint).withPending f := by
  have hslot : (s.withPending f).world.players.get? id =
      (s.world.players.get? id).map fun slot => { slot with pending := f id slot.pending } :=
    World.get?_players_withPending id
  unfold welcome
  rw [hslot]
  cases s.world.players.get? id with
  | none => rfl
  | some slot =>
    simp only [Option.map_some, withPending, World.reached_withPending, catchUp_withPending,
      introduction_withPending]
    rfl

/-- **No event looks at the inputs that wait.** An event that is no input itself does the same whatever
waits in the slots, as long as nothing waits in a slot that is new. -/
theorem handle_withPending {e : Event} (he : ∀ id i, e ≠ .input id i)
    (hf : f e.player none = none) : (s.withPending f).handle e = (s.handle e).withPending f := by
  cases e with
  | connected id username => exact connect_withPending hf username
  | udpReady id endpoint => exact welcome_withPending id endpoint
  | endpointChanged id endpoint =>
    simp only [handle, withPending, World.reached_withPending]
  | disconnected id => exact disconnect_withPending id
  | input id i => exact absurd rfl (he id i)

/-! ## Inputs -/

/-- This input waits in the slot of this player. -/
def waiting (p : UInt8) (i : Option Input) : UInt8 → Option Input → Option Input :=
  fun id x => if id = p then i else x

theorem waiting_of_ne {p q : UInt8} (h : q ≠ p) (i x : Option Input) : waiting p i q x = x :=
  if_neg h

theorem waiting_of_eq (p : UInt8) (i x : Option Input) : waiting p i p x = i :=
  if_pos rfl

theorem waiting_waiting (p : UInt8) (i j : Option Input) (q : UInt8) (x : Option Input) :
    waiting p j q (waiting p i q x) = waiting p j q x := by
  unfold waiting
  split
  · rfl
  · rfl

theorem withPending_withPending {g : UInt8 → Option Input → Option Input} :
    (s.withPending f).withPending g = s.withPending fun id x => g id (f id x) := by
  simp only [withPending, World.withPending_withPending]

/-- What waits in a slot takes the place of whatever has waited there. -/
theorem withPending_waiting (s : Simulation) (p : UInt8) (i j : Option Input) :
    (s.withPending (waiting p i)).withPending (waiting p j) = s.withPending (waiting p j) := by
  rw [withPending_withPending]
  congr 1
  funext id x
  exact waiting_waiting p i j id x

/-- All that an input does is wait. -/
theorem handle_input (p : UInt8) (i : Input) :
    s.handle (.input p i) = s.withPending (waiting p (some i)) := by
  have hworld : s.world.modifySlot p (fun slot => { slot with pending := some i }) =
      s.world.withPending (waiting p (some i)) := by
    refine World.eq_of_slots rfl rfl fun q => ?_
    rw [World.get?_players_modifySlot, World.get?_players_withPending]
    by_cases hq : p = q
    · subst hq
      rw [if_pos rfl]
      simp only [waiting, if_true]
    · rw [if_neg hq]
      simp only [waiting_of_ne (Ne.symm hq)]
      exact Option.map_id'.symm
  simp only [handle, hworld]
  rfl

/-- An input can wait until an event of somebody else is over. -/
theorem handle_input_comm {p : UInt8} {e : Event} (h : e.player ≠ p) (i : Input) :
    (s.handle (.input p i)).handle e = (s.handle e).handle (.input p i) := by
  rw [handle_input, handle_input]
  by_cases he : ∃ id j, e = .input id j
  · obtain ⟨q, j, rfl⟩ := he
    have hqp : q ≠ p := h
    rw [handle_input, handle_input, withPending_withPending, withPending_withPending]
    congr 1
    funext id x
    -- each of the two waits in a slot of its own
    by_cases hid : id = p
    · subst hid
      rw [waiting_of_ne (Ne.symm hqp), waiting_of_ne (Ne.symm hqp)]
    · rw [waiting_of_ne hid, waiting_of_ne hid]
  · exact handle_withPending (fun id j hj => he ⟨id, j, hj⟩) (waiting_of_ne h _ _)

/-- If nobody asks what waits in the slot of a player, no event tells two states apart that differ in
nothing else. -/
theorem handle_congr {s' : Simulation} {p : UInt8}
    (h : s'.withPending (waiting p none) = s.withPending (waiting p none)) (e : Event) :
    (s'.handle e).withPending (waiting p none) = (s.handle e).withPending (waiting p none) := by
  -- forgetting beforehand what waits makes no difference once it is forgotten afterwards
  have key : ∀ x : Simulation, (x.handle e).withPending (waiting p none) =
      ((x.withPending (waiting p none)).handle e).withPending (waiting p none) := by
    intro x
    by_cases he : ∃ q j, e = .input q j
    · obtain ⟨q, j, rfl⟩ := he
      rw [handle_input, handle_input, withPending_withPending, withPending_withPending,
        withPending_withPending]
      congr 1
      funext id y
      by_cases hid : id = q
      · subst hid
        rw [waiting_of_eq, waiting_of_eq]
      · rw [waiting_of_ne hid, waiting_of_ne hid, waiting_waiting]
    · have hne : ∀ id i, e ≠ .input id i := fun q j hj => he ⟨q, j, hj⟩
      have hnone : waiting p none e.player none = none := by
        unfold waiting
        split
        · rfl
        · rfl
      rw [handle_withPending hne hnone, withPending_waiting]
  rw [key, h, ← key]

/-! ## Lists of events -/

theorem foldl_handle_congr {p : UInt8} (events : List Event) : ∀ {s s' : Simulation},
    s'.withPending (waiting p none) = s.withPending (waiting p none) →
      (events.foldl handle s').withPending (waiting p none) =
        (events.foldl handle s).withPending (waiting p none) := by
  induction events with
  | nil => exact fun h => h
  | cons e rest ih => exact fun h => ih (handle_congr h e)

/-- An input takes the place of whatever waits. -/
theorem handle_input_forgets (s : Simulation) (p : UInt8) (j : Input) :
    (s.withPending (waiting p none)).handle (.input p j) = s.handle (.input p j) := by
  rw [handle_input, handle_input, withPending_waiting]

/-- An input that waits is forgotten when another input of the player comes, whatever there was in
between. -/
theorem foldl_handle_coalesce (s : Simulation) (p : UInt8) (i j : Input) (between : List Event) :
    (between.foldl handle (s.handle (.input p i))).handle (.input p j) =
      (between.foldl handle s).handle (.input p j) := by
  have hforget : (s.handle (.input p i)).withPending (waiting p none) =
      s.withPending (waiting p none) := by
    rw [handle_input, withPending_waiting]
  rw [← handle_input_forgets, foldl_handle_congr between hforget, handle_input_forgets]

/-- In this state it makes no difference which of two lists of events comes: they lead to the same
state, and whatever comes later has the same record. -/
structure Indifferent (s : Simulation) (events events' : List Event) : Prop where
  state : events'.foldl handle s = events.foldl handle s
  later : ∀ steps, s.record (events'.map .event ++ steps) = s.record (events.map .event ++ steps)

theorem indifferent_of_state {events events' : List Event}
    (h : events'.foldl handle s = events.foldl handle s) : s.Indifferent events events' where
  state := h
  later steps := by rw [record_events_append, record_events_append, h]

/-- **Only the last input counts, and it can wait.** In any state, and in any list of events: an input
that is followed by another input of the same player can be left out, whatever lies between them, and
an input can change places with an event of another player next to it. The state afterwards is the same,
with everything that is still to be handed over, and so is the record of whatever comes later. -/
theorem inputs_coalesce (s : Simulation) (p : UInt8) (before after : List Event) (i : Input) :
    (∀ between j, s.Indifferent
      (before ++ .input p i :: between ++ .input p j :: after)
      (before ++ between ++ .input p j :: after)) ∧
    ∀ e : Event, e.player ≠ p → s.Indifferent
      (before ++ .input p i :: e :: after) (before ++ e :: .input p i :: after) := by
  constructor
  · intro between j
    refine indifferent_of_state ?_
    simp only [List.foldl_append, List.foldl_cons, foldl_handle_coalesce]
  · intro e he
    refine indifferent_of_state ?_
    simp only [List.foldl_append, List.foldl_cons, handle_input_comm he]

/-- A player sends an input, goes and comes again and sends another one, while somebody else fires. -/
theorem inputs_coalesce_of_return :
    (Event.input 2 ⟨7, 9, Wire.shootButton, -128, 127⟩).player ≠ 1 ∧
    (start .default (.ofSeed 0)).Indifferent
      [.connected 1 "ace", .input 1 ⟨0, 1, 0, 1, 0⟩, .disconnected 1, .connected 1 "ace",
        .input 1 ⟨1, 1, 0, -1, 0⟩]
      [.connected 1 "ace", .disconnected 1, .connected 1 "ace", .input 1 ⟨1, 1, 0, -1, 0⟩] ∧
    (start .default (.ofSeed 0)).Indifferent
      [.connected 1 "ace", .input 1 ⟨0, 1, 0, 1, 0⟩, .input 2 ⟨7, 9, Wire.shootButton, -128, 127⟩]
      [.connected 1 "ace", .input 2 ⟨7, 9, Wire.shootButton, -128, 127⟩, .input 1 ⟨0, 1, 0, 1, 0⟩] := by
  have hne : (Event.input 2 ⟨7, 9, Wire.shootButton, -128, 127⟩).player ≠ 1 := by decide
  obtain ⟨hlast, hwait⟩ :=
    inputs_coalesce (start .default (.ofSeed 0)) 1 [.connected 1 "ace"] [] ⟨0, 1, 0, 1, 0⟩
  exact ⟨hne, hlast [.disconnected 1, .connected 1 "ace"] ⟨1, 1, 0, -1, 0⟩, hwait _ hne⟩

end Simulation

end Skirmish
