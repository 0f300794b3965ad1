import Skirmish.Proofs.Recipients
/-!
# Newcomers

The first datagram of a player tells the server where the player can be reached. The player is then told
of everyone else, ascending by network id, and after that everyone who can be reached, the player
included, is told of the player's avatar (`Simulation.Welcomes`). What is said of an entity can be read,
and is so (`World.Introduces`).

The endpoint is in the slot before anything is said. So the player is among those who hear of the avatar,
and hears of it last; whoever could be reached before hears of the avatar and of nobody else.
-/

namespace Skirmish

open Wire World

/-! ## Introductions -/

namespace World

variable {w : World} {h : Handle}

/-- What a message says of an entity is so. -/
structure Describes (w : World) (h : Handle) (m : Spawn) : Prop where
  networkId : w.registry.get? .networkId h = some m.networkId
  kind : w.registry.get? .kind h = some m.kind
  owner : w.registry.get? .owner h = some m.owner
  position : w.registry.get? .position h = some m.position
  velocity : w.registry.get? .velocity h = some m.velocity
  health : m.health = ((w.registry.get? .health h).map Health.current).getD 100
  /-- Only an avatar has a name, which is cut on the way. -/
  username : m.username = NameField.kept
    (if m.kind = .player then ((w.players.get? m.owner).map Slot.username).getD "" else "")

/-- A datagram can be read, and introduces an entity as it is. -/
def Introduces (w : World) (h : Handle) (bytes : List UInt8) : Prop :=
  ∃ m, Packet.decode bytes = .ok ⟨serverToken, .spawn m⟩ ∧ w.Describes h m

/-- A message goes to an endpoint and introduces an entity there. -/
def Announces (w : World) (x : Endpoint × Handle) (d : Dispatch) : Prop :=
  d.recipient = x.1 ∧ w.Introduces x.2 d.datagram.bytes

/-- Everyone alive can be announced, and the announcement says what is so. -/
theorem Embodied.exists_announcement (he : w.Embodied) (ha : w.registry.isAlive h = true) :
    ∃ m, w.spawnMessage? h = some m ∧ ∀ e, w.Introduces h (Dispatch.datagram ⟨e, .spawn m⟩).bytes := by
  obtain ⟨k, q, n, hk, hq, hn⟩ := he.identity_of_alive ha
  have hparts : ComponentType.position ∈ k.anatomy ∧ ComponentType.velocity ∈ k.anatomy := by
    rcases he.kind_mem hk with rfl | rfl | rfl <;> simp [EntityKind.anatomy]
  obtain ⟨position, hpos⟩ := he.get?_of_mem hk hparts.1
  obtain ⟨velocity, hvel⟩ := he.get?_of_mem hk hparts.2
  refine ⟨_, by rw [spawnMessage?, hn, Option.map_some], fun e => ?_⟩
  refine ⟨_, Packet.decode_encode_arrived _, ?_⟩
  exact {
    networkId := hn
    kind := by rw [hk, Option.getD_some]
    owner := by rw [hq, Option.getD_some]
    position := by rw [hpos, Option.getD_some]
    velocity := by rw [hvel, Option.getD_some]
    health := rfl
    username := rfl }

end World

/-! ## The welcome -/

namespace Simulation

variable {s : Simulation}

/-- What becomes of a simulation when a player with this avatar can be reached at this endpoint, and what
is said then. -/
structure Welcomes (s : Simulation) (p : UInt8) (endpoint : Endpoint) (own : Handle)
    (others : List Handle) (news : List Dispatch) (s' : Simulation) : Prop where
  /-- Only the slot of the player has changed. -/
  state : s' = { s with
    world := s.world.modifySlot p fun slot => { slot with endpoint := some endpoint }
    outbox := s.outbox ++ news }
  slots : ∀ q, s'.world.players.get? q =
    if p = q then (s.world.players.get? q).map fun slot => { slot with endpoint := some endpoint }
    else s.world.players.get? q
  /-- The avatar can be announced. -/
  own_alive : s.world.registry.isAlive own = true
  own_registered : (s.world.registry.get? .networkId own).isSome
  /-- The others are all who are alive and have a network id. -/
  mem_others : ∀ h, h ∈ others ↔ s.world.registry.isAlive h = true ∧
    (s.world.registry.get? .networkId h).isSome ∧ h ≠ own
  nodup : (others ++ [own]).Nodup
  /-- The others are in the order of their network ids. -/
  sorted : others.Pairwise fun h k => s.world.idOf h ≤ s.world.idOf k
  /-- The player can be reached, and the others as before; they are told in their order. -/
  mem_addresses : ∀ q e, (q, e) ∈ s'.world.addresses ↔
    if p = q then endpoint = e else (q, e) ∈ s.world.addresses
  ascending : s'.world.addresses.Pairwise fun a b => a.1 < b.1
  /-- First the player is told of the others, then everyone of the player. -/
  said : List.Forall₂ s'.world.Announces
    (others.map (fun h => (endpoint, h)) ++ s'.world.addresses.map fun a => (a.2, own)) news
  /-- The player hears of each of the others once and of the avatar last; the others hear of the avatar. -/
  heard : s'.world.endpoints.Nodup → ∀ q e, (q, e) ∈ s'.world.addresses →
    List.Forall₂ s'.world.Introduces (if p = q then others ++ [own] else [own]) (bytesFor e news)

theorem catchUp_eq (w : World) (own : Handle) (endpoint : Endpoint) :
    catchUp w (some own) endpoint = (w.registered.filter fun h => h ≠ own).filterMap fun h =>
      (w.spawnMessage? h).map fun m => ⟨endpoint, .spawn m⟩ := by
  rw [registered, List.filter_map, List.filterMap_map, List.filterMap_filter, catchUp]
  refine List.filterMap_congr fun x _ => ?_
  by_cases hx : x.2 = own <;> simp [hx]

/-- The player is told of everyone else. -/
theorem catchUp_announces {w : World} (he : w.Embodied) (own : Handle) (endpoint : Endpoint) :
    List.Forall₂ w.Announces
      ((w.registered.filter fun h => h ≠ own).map fun h => (endpoint, h))
      (catchUp w (some own) endpoint) := by
  rw [catchUp_eq, List.forall₂_map_left_iff]
  refine forall₂_filterMap fun h hh => ?_
  obtain ⟨m, hm, hintro⟩ := he.exists_announcement (he.mem_registered.mp (List.mem_filter.mp hh).1)
  exact ⟨⟨endpoint, .spawn m⟩, by rw [hm]; rfl, rfl, hintro endpoint⟩

/-- Everyone is told of the player. -/
theorem introduction_announces {w : World} (he : w.Embodied) {own : Handle}
    (ha : w.registry.isAlive own = true) :
    List.Forall₂ w.Announces
      (w.addresses.map fun a => (a.2, own)) (introduction w (some own)) := by
  obtain ⟨m, hm, hintro⟩ := he.exists_announcement ha
  have hsaid : introduction w (some own) = w.addresses.map fun a => ⟨a.2, .spawn m⟩ := by
    rw [introduction, Option.bind_some, hm]
    exact w.broadcast_endpoints (.spawn m)
  rw [hsaid, List.forall₂_map_left_iff, List.forall₂_map_right_iff, List.forall₂_same]
  exact fun a _ => ⟨rfl, hintro a.2⟩

/-- What of all this is for one endpoint. -/
theorem filter_audience {w : World} (hnd : w.endpoints.Nodup) {p q : UInt8} {endpoint e : Endpoint}
    (hp : (p, endpoint) ∈ w.addresses) (hq : (q, e) ∈ w.addresses) (others : List Handle)
    (own : Handle) :
    (others.map (fun h => (endpoint, h)) ++ w.addresses.map fun a => (a.2, own)).filter
        (fun x => x.1 = e) =
      (if p = q then others ++ [own] else [own]).map fun h => (e, h) := by
  -- the broadcast goes there once
  have honce : (w.addresses.map fun a => (a.2, own)).filter (fun x => x.1 = e) = [(e, own)] := by
    have hreach := reaches_of_nodup hnd (mem_endpoints_of_mem_addresses hq)
    rw [Reaches, endpoints_eq_addresses, List.filter_map] at hreach
    have hpairs := congrArg (List.map fun e' => (e', own)) hreach
    rw [List.map_map] at hpairs
    rw [List.filter_map]
    exact hpairs
  -- and the rest goes there if it is the endpoint of the player
  have hsame : endpoint = e ↔ p = q := by
    constructor
    · intro heq
      rw [endpoints_eq_addresses] at hnd
      exact congrArg Prod.fst (List.inj_on_of_nodup_map hnd hp hq heq)
    · rintro rfl
      exact eq_of_mem_addresses hp hq
  rw [List.filter_append, honce, List.filter_map]
  by_cases hpq : p = q
  · simp [hpq, hsame.mpr hpq, Function.comp_def]
  · simp [hpq, mt hsame.mp hpq, Function.comp_def]

/-- Whoever has an endpoint of its own hears exactly what is for it. -/
theorem heard_of_said {w : World} (hnd : w.endpoints.Nodup) {p q : UInt8} {endpoint e : Endpoint}
    (hp : (p, endpoint) ∈ w.addresses) (hq : (q, e) ∈ w.addresses) {others : List Handle}
    {own : Handle} {news : List Dispatch}
    (hsaid : List.Forall₂ w.Announces
      (others.map (fun h => (endpoint, h)) ++ w.addresses.map fun a => (a.2, own)) news) :
    List.Forall₂ w.Introduces (if p = q then others ++ [own] else [own]) (bytesFor e news) := by
  have hfor := List.rel_filter (p := fun x => x.1 = e) (q := fun d => d.recipient = e)
    (fun {x d} hxd => by simp [hxd.1]) hsaid
  rw [filter_audience hnd hp hq, List.forall₂_map_left_iff] at hfor
  rw [bytesFor_eq, List.forall₂_map_right_iff]
  exact hfor.imp fun h d hd => hd.2

/-- In a world in order, whoever can be reached is welcomed. -/
theorem Settled.welcomes (hs : Settled s) {p : UInt8} {slot : Slot}
    (hslot : s.world.players.get? p = some slot) (endpoint : Endpoint) : ∃ own news,
      slot.entity = some own ∧
      Welcomes s p endpoint own (s.world.registered.filter fun h => h ≠ own) news
        (s.welcome p endpoint) := by
  obtain ⟨own, hent, hkind, -⟩ := hs.bound.of_slot hslot (by simp)
  have hown := hs.embodied.isAlive_of_get? hkind
  let w := s.reached p endpoint
  have he : w.Embodied := (hs.embodied.withPlayers _)
  -- in the world of the welcome the player has the new endpoint, and the others have their own
  have haddr : ∀ q e, (q, e) ∈ w.addresses ↔
      if p = q then endpoint = e else (q, e) ∈ s.world.addresses := by
    intro q e
    simp only [w, mem_addresses, get?_players_reached]
    split
    · rename_i hpq
      simp [← hpq, hslot]
    · rfl
  -- whoever is announced beforehand goes to the newcomer alone, and the newcomer to everybody
  have hsaid := List.rel_append (catchUp_announces he own endpoint)
    (introduction_announces he hown)
  refine ⟨own, catchUp w (some own) endpoint ++ introduction w (some own), hent, ?_⟩
  rw [welcome_of_some hslot, hent]
  exact {
    state := rfl
    slots := fun q => get?_players_reached p q endpoint
    own_alive := hown
    own_registered := hs.embodied.isSome_networkId_iff.mpr hown
    mem_others := fun h => by
      rw [List.mem_filter, World.mem_registered, decide_eq_true_eq]
      exact ⟨fun hh => ⟨hs.embodied.isSome_networkId_iff.mp hh.1, hh⟩, And.right⟩
    nodup := by
      refine List.nodup_append.mpr ⟨s.world.registered_nodup.filter _, List.nodup_singleton _, ?_⟩
      intro h hh k hk
      rw [List.mem_singleton.mp hk]
      exact of_decide_eq_true (List.mem_filter.mp hh).2
    sorted := s.world.registered_sorted.filter _
    mem_addresses := haddr
    ascending := w.addresses_ascending
    said := hsaid
    heard := fun hnd q e hq => heard_of_said hnd ((haddr p endpoint).mpr (by simp)) hq hsaid }

/-- **A newcomer is told of everyone, and everyone of the newcomer.** Wherever a new game gets to:
when a player can be reached, the world changes in nothing but the endpoint, the player is told of
all the others, and then everyone is told of the player. The others are told of in the order of
their network ids, which is strict as long as fewer than 2³² - 1 of these have been handed out.
Whoever has no slot changes nothing. -/
theorem run_welcomes {settings : Settings} {entropy : Generator} {steps : List Step} {o : Outcome}
    (h : (start settings entropy).run steps = .ok o) (p : UInt8) (endpoint : Endpoint) :
    (o.simulation.world.players.get? p = none →
      o.simulation.handle (.udpReady p endpoint) = o.simulation) ∧
    ∀ slot, o.simulation.world.players.get? p = some slot → ∃ own others news,
      slot.entity = some own ∧
      Welcomes o.simulation p endpoint own others news
        (o.simulation.handle (.udpReady p endpoint)) ∧
      (o.ids < 0xffffffff → others.Pairwise fun h k =>
        o.simulation.world.idOf h < o.simulation.world.idOf k) := by
  have hstart := sound_start settings entropy
  refine ⟨fun hnone => welcome_of_none hnone endpoint, fun slot hslot => ?_⟩
  obtain ⟨own, news, hent, hwelcomes⟩ := (hstart.toSettled.run h).welcomes hslot endpoint
  refine ⟨own, _, news, hent, hwelcomes, fun hids => ?_⟩
  have hnumbered := (hstart.run (by omega) h).numbered
  exact hnumbered.distinct.registered_ascending.filter _

/-- Two players come, one of them can be reached, and the other comes again: the avatar of that one has
the handle of its predecessor, and a network id above that of the other. A third comes. -/
def threePlayers : List Step := [
  .event (.connected 1 "ace"),
  .event (.connected 2 "bo"),
  .event (.udpReady 2 ⟨.v4 (.replicate 4 10), 7002⟩),
  .event (.connected 1 "ace"),
  .event (.connected 3 "cy")]

theorem run_welcomes_of_threePlayers : ∃ o slot own others news,
    (start .default (.ofSeed 0)).run threePlayers = .ok o ∧ o.ids < 0xffffffff ∧
    o.simulation.world.players.get? 3 = some slot ∧ slot.entity = some own ∧
    Welcomes o.simulation 3 ⟨.v4 (.replicate 4 10), 7003⟩ own others news
      (o.simulation.handle (.udpReady 3 ⟨.v4 (.replicate 4 10), 7003⟩)) ∧
    (others.Pairwise fun h k => o.simulation.world.idOf h < o.simulation.world.idOf k) ∧
    own = ⟨2⟩ ∧ o.simulation.world.idOf ⟨1⟩ = 2 ∧ o.simulation.world.idOf ⟨0⟩ = 3 ∧
    (o.simulation.handle (.udpReady 3 ⟨.v4 (.replicate 4 10), 7003⟩)).world.endpoints.Nodup := by
  have hends : ((start .default (.ofSeed 0)).run threePlayers).toOption.any (fun o =>
      o.ids = 4 && (o.simulation.world.players.get? 3).any (fun slot => slot.entity = some ⟨2⟩) &&
        (o.simulation.world.idOf ⟨1⟩ = 2 && o.simulation.world.idOf ⟨0⟩ = 3 &&
          (o.simulation.handle (.udpReady 3 ⟨.v4 (.replicate 4 10), 7003⟩)).world.endpoints.Nodup)) =
      true := by decide +kernel
  obtain ⟨o, ho, hends⟩ := (Option.any_eq_true _ _).mp hends
  simp only [Bool.and_eq_true, decide_eq_true_eq] at hends
  obtain ⟨⟨hids, hsome⟩, ⟨hfirst, hsecond⟩, hnodup⟩ := hends
  obtain ⟨slot, hslot, hown⟩ := (Option.any_eq_true _ _).mp hsome
  have hrun := eq_ok_of_toOption ho
  have hlt : o.ids < 0xffffffff := by omega
  obtain ⟨own, others, news, hent, hwelcomes, hstrict⟩ := (run_welcomes hrun 3 _).2 slot hslot
  have heq : own = ⟨2⟩ := Option.some.inj (hent.symm.trans (of_decide_eq_true hown))
  exact ⟨o, slot, own, others, news, hrun, hlt, hslot, hent, hwelcomes, hstrict hlt, heq, hfirst,
    hsecond, hnodup⟩

end Simulation

end Skirmish
