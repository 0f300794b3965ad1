import Skirmish.Proofs.Order
/-!
# The roster

Who takes part, under what name and at what endpoint, is a matter of the events alone. On the roster
every event has an effect of its own (`Roster.hear`), and a step of time has none, so after any run the
roster is what its events make of an empty one (`Simulation.roster_run`).
-/

namespace Skirmish

/-- Names and endpoints by player. -/
abbrev Roster := SortedMap UInt8 (String × Option Endpoint)

/-- What an event says about who takes part. -/
def Roster.hear (r : Roster) : Event → Roster
  | .connected id username => r.insert id (username, none)
  | .udpReady id endpoint => r.modify id fun c => (c.1, some endpoint)
  | .endpointChanged id endpoint => r.modify id fun c => (c.1, some endpoint)
  | .disconnected id => r.erase id
  | .input _ _ => r

/-- What several events say, one after the other. -/
def Roster.hearAll (r : Roster) (events : List Event) : Roster := events.foldl hear r

theorem Roster.hearAll_append (r : Roster) (events events' : List Event) :
    r.hearAll (events ++ events') = (r.hearAll events).hearAll events' :=
  List.foldl_append

/-- The event of a step, if it is one. -/
def Step.event? : Step → Option Event
  | .event e => some e
  | .tick _ => none

theorem filterMap_map_event (events : List Event) :
    (events.map Step.event).filterMap Step.event? = events := by
  rw [List.filterMap_map]
  exact List.filterMap_some

namespace World

/-- Who takes part in the world. -/
def roster (w : World) : Roster := w.players.map fun _ s => (s.username, s.endpoint)

theorem get?_roster (w : World) (q : UInt8) :
    w.roster.get? q = (w.players.get? q).map fun s => (s.username, s.endpoint) :=
  SortedMap.get?_map _ _ _

theorem roster_congr {w w' : World} (h : w'.roll = w.roll) : w'.roster = w.roster := by
  have hroll : ∀ v : World, v.roster = v.roll.map fun _ s => (s.username, s.endpoint) := by
    intro v
    refine SortedMap.ext_get? fun q => ?_
    rw [get?_roster, SortedMap.get?_map, get?_roll, Option.map_map]
    rfl
  rw [hroll, h, hroll]

/-- The endpoint of a player is known. -/
theorem roster_modifySlot_endpoint (w : World) (id : UInt8) (endpoint : Endpoint) :
    (w.modifySlot id fun slot => { slot with endpoint := some endpoint }).roster =
      w.roster.modify id fun c => (c.1, some endpoint) := by
  refine SortedMap.ext_get? fun q => ?_
  rw [get?_roster, get?_players_modifySlot, SortedMap.get?_modify, get?_roster]
  split
  · rw [Option.map_map, Option.map_map]
    rfl
  · rfl

theorem roster_spawnPlayer (w : World) (t : Tuning) (id : UInt8) (username : String) :
    (w.spawnPlayer t id username).2.roster = w.roster.insert id (username, none) := by
  refine SortedMap.ext_get? fun q => ?_
  rw [get?_roster, get?_players_spawnPlayer, SortedMap.get?_insert, get?_roster]
  split
  · rfl
  · rfl

end World

namespace Simulation

open World

variable {s : Simulation}

theorem Settled.roster_connect (hs : Settled s) (id : UInt8) (username : String) :
    (s.connect id username).world.roster = s.world.roster.insert id (username, none) := by
  rcases connect_cases hs.embodied hs.bound hs.condemned id username with
    ⟨-, heq⟩ | ⟨slot, h, hslot, hent, heq⟩
  · rw [heq]
    exact roster_spawnPlayer _ _ _ _
  · rw [heq]
    show (World.spawnPlayer _ _ _ _).2.roster = _
    rw [roster_spawnPlayer]
    -- the slot of the player is written over, those of the others are as they were
    refine SortedMap.ext_get? fun q => ?_
    rw [SortedMap.get?_insert, SortedMap.get?_insert]
    by_cases hq : id = q
    · rw [if_pos hq, if_pos hq]
    · rw [if_neg hq, if_neg hq, get?_roster, get?_roster,
        hs.get?_players_evict hslot hent (fun _ _ => rfl) (Ne.symm hq)]

theorem Settled.roster_disconnect (hs : Settled s) (id : UInt8) :
    (s.disconnect id).world.roster = s.world.roster.erase id := by
  refine SortedMap.ext_get? fun q => ?_
  rw [SortedMap.get?_erase, get?_roster, get?_roster]
  rcases disconnect_cases hs.bound hs.condemned id with ⟨hslot, heq⟩ | ⟨slot, h, hslot, hent, heq⟩
  · rw [heq]
    split
    · rename_i hq
      rw [← hq, hslot]
      rfl
    · rfl
  · -- the slot is erased before the avatar goes, and the end of an avatar erases no other slot
    rw [heq]
    show ((s.world.evict (s.world.players.erase id) h).1.players.get? q).map _ = _
    have hps : ∀ q, q ≠ id → (s.world.players.erase id).get? q = s.world.players.get? q :=
      fun _ => SortedMap.get?_erase_of_ne _
    by_cases hq : id = q
    · have hgone : (s.world.evict (s.world.players.erase id) h).1.players.get? q = none := by
        rw [get?_players_evict_eq_none, SortedMap.get?_erase, if_pos hq]
      rw [if_pos hq, hgone]
      rfl
    · rw [if_neg hq, hs.get?_players_evict hslot hent hps (Ne.symm hq)]

/-- An event does to the roster what it says. -/
theorem Settled.roster_handle (hs : Settled s) (e : Event) :
    (s.handle e).world.roster = s.world.roster.hear e := by
  cases e with
  | connected id username => exact hs.roster_connect id username
  | udpReady id endpoint =>
    show (s.welcome id endpoint).world.roster = s.world.roster.modify id _
    rw [← roster_modifySlot_endpoint]
    cases hslot : s.world.players.get? id with
    | some slot =>
      rw [welcome_of_some hslot]
      rfl
    | none =>
      -- there is no slot to change either
      rw [welcome_of_none hslot]
      refine SortedMap.ext_get? fun q => ?_
      rw [get?_roster, get?_roster, get?_players_modifySlot]
      split
      · rename_i hq
        rw [← hq, hslot]
        rfl
      · rfl
  | endpointChanged id endpoint => exact roster_modifySlot_endpoint _ _ _
  | disconnected id => exact hs.roster_disconnect id
  | input id i => exact roster_congr (s.world.roll_modifySlot id fun _ => rfl)

/-- Time does nothing to the roster. -/
theorem Settled.roster_tick (hs : Settled s) {dt : Single} {s' : Simulation} {sent : List Dispatch}
    (h : s.tick dt = .ok (s', sent)) : s'.world.roster = s.world.roster := by
  obtain ⟨w, out, condemned, hev, hspares, hworld, -, -, -⟩ :=
    tick_cases hs.embodied hs.bound hs.condemned h
  have hb := hev.bound hs.embodied hs.bound
  rw [hworld, roster, players_reap hb hspares, ← roster, roster_congr hev.roll]

/-- After a run the roster is what the events have made of it. -/
theorem Settled.roster_run {steps : List Step} : ∀ {s : Simulation} {o : Outcome}, Settled s →
    s.run steps = .ok o →
      o.simulation.world.roster = s.world.roster.hearAll (steps.filterMap Step.event?) := by
  induction steps with
  | nil =>
    intro s o _ h
    cases h
    rfl
  | cons x rest ih =>
    intro s o hs h
    obtain ⟨next, sent, o', hx, hrest, rfl⟩ := run_cons h
    cases x with
    | event e =>
      cases hx
      show o'.simulation.world.roster = (s.world.roster.hear e).hearAll _
      rw [ih (hs.handle e) hrest, hs.roster_handle]
    | tick dt =>
      show o'.simulation.world.roster = s.world.roster.hearAll (rest.filterMap Step.event?)
      rw [ih (hs.tick hx) hrest, hs.roster_tick hx]

/-- Events alone cannot fail. -/
theorem run_events (events : List Event) (s : Simulation) : ∃ o,
    s.run (events.map .event) = .ok o ∧ o.simulation = events.foldl handle s := by
  induction events generalizing s with
  | nil => exact ⟨_, rfl, rfl⟩
  | cons e rest ih =>
    obtain ⟨o, h, ho⟩ := ih (s.handle e)
    exact ⟨_, run_cons_of_step rfl h, ho⟩

end Simulation

end Skirmish
