import Skirmish.Proofs.Destruction
/-!
# Coming and going

A player who comes and goes again between two steps of time leaves nothing behind in the world
(`Simulation.Restores`): the avatar has a handle that nobody had and gives it back, and whatever the player
did in the meantime was done to a slot that is gone.

A player who comes while still there gets what a player gets who goes first and then comes
(`Simulation.Rejoins`): the old avatar ends, and nothing of the old slot is kept. Only the news of that end
differ. Whoever goes is not told of it, and whoever comes again is told where the old slot says.
-/

namespace Skirmish

open World

/-! ## Where a player stands among the others -/

namespace World

variable {w : World}

/-- Those who can be reached, with and without a player. -/
theorem addresses_split {p : UInt8} {slot : Slot} (hslot : w.players.get? p = some slot) :
    ∃ before behind,
      w.addresses = before ++ (slot.endpoint.toList.map fun e => (p, e)) ++ behind ∧
      ({ w with players := w.players.erase p } : World).addresses = before ++ behind ∧
      ∀ a ∈ before ++ behind, a.1 ≠ p := by
  -- the slots are in order, so that of the player stands between the others
  obtain ⟨before, behind, hlist, hne⟩ := SortedMap.exists_split hslot
  let f : UInt8 × Slot → Option (UInt8 × Endpoint) := fun x => x.2.endpoint.map fun e => (x.1, e)
  have hothers : ∀ part : List (UInt8 × Slot), (∀ x ∈ part, x.1 ≠ p) →
      ∀ a ∈ part.filterMap f, a.1 ≠ p := by
    intro part hpart a ha
    obtain ⟨x, hx, hxa⟩ := List.mem_filterMap.mp ha
    obtain ⟨e, -, rfl⟩ := Option.map_eq_some_iff.mp hxa
    exact hpart x hx
  have hall : ∀ a ∈ before.filterMap f ++ behind.filterMap f, a.1 ≠ p := by
    rw [← List.filterMap_append]
    exact hothers _ hne
  have haddr : w.addresses =
      before.filterMap f ++ (slot.endpoint.toList.map fun e => (p, e)) ++ behind.filterMap f := by
    show w.players.toList.filterMap f = _
    rw [hlist, List.filterMap_append, List.filterMap_cons, List.append_assoc]
    cases hend : slot.endpoint <;> simp [f, hend]
  refine ⟨before.filterMap f, behind.filterMap f, haddr, ?_, hall⟩
  rw [addresses_erase, haddr, List.filter_append, List.filter_append]
  -- the player has at most one address, and it is the only one that goes
  have hown : (slot.endpoint.toList.map fun e => (p, e)).filter (fun a => a.1 ≠ p) = [] := by
    rw [List.filter_eq_nil_iff]
    intro a ha
    obtain ⟨e, -, rfl⟩ := List.mem_map.mp ha
    simp
  rw [hown, List.append_nil, ← List.filter_append, List.filter_eq_self]
  exact fun a ha => decide_eq_true (hall a ha)

/-! ## Avatars that end -/

/-- What is said when an avatar ends and these are the players. -/
theorem evict_snd (ps : SortedMap UInt8 Slot) {h : Handle} {n : UInt32}
    (ha : w.registry.isAlive h = true) (hid : w.registry.get? .networkId h = some n) :
    (w.evict ps h).2 =
      ({ w with players := ps } : World).addresses.map fun a => ⟨a.2, .destroy n⟩ := by
  have hreaped : ({ w with players := ps } : World).reaped (condemnedAlone h) = [h] := by
    show List.filter w.registry.isAlive [h] = [h]
    rw [List.filter_cons_of_pos ha]
    rfl
  rw [evict, reap_eq, flatMap_destroyNoticesTo, hreaped, List.filterMap_cons_some hid]
  exact List.flatMap_singleton ..

theorem isAlive_evict (ps : SortedMap UInt8 Slot) (h k : Handle) :
    (w.evict ps h).1.registry.isAlive k = if k = h then false else w.registry.isAlive k := by
  rw [evict, isAlive_reap]
  simp only [mem_condemnedAlone]

end World

/-! ## Between coming and going -/

/-- What a player can do between coming and going. -/
def Event.isActivity (p : UInt8) : Event → Bool
  | .udpReady id _ => id = p
  | .endpointChanged id _ => id = p
  | .input id _ => id = p
  | .connected _ _ => false
  | .disconnected _ => false

namespace Simulation

variable {s s' s'' : Simulation} {p : UInt8}

/-- Nothing has happened to the world but to the slot of a player, which points where it did. -/
structure SameButSlot (p : UInt8) (s s' : Simulation) : Prop where
  registry : s'.world.registry = s.world.registry
  entity : (s'.world.players.get? p).map Slot.entity = (s.world.players.get? p).map Slot.entity
  others : ∀ q, q ≠ p → s'.world.players.get? q = s.world.players.get? q

theorem SameButSlot.refl (p : UInt8) (s : Simulation) : SameButSlot p s s := ⟨rfl, rfl, fun _ _ => rfl⟩

theorem SameButSlot.trans (h : SameButSlot p s s') (h' : SameButSlot p s' s'') :
    SameButSlot p s s'' where
  registry := h'.registry.trans h.registry
  entity := h'.entity.trans h.entity
  others q hne := (h'.others q hne).trans (h.others q hne)

theorem sameButSlot_of_modifySlot {f : Slot → Slot} (hf : ∀ slot, (f slot).entity = slot.entity)
    (hworld : s'.world = s.world.modifySlot p f) : SameButSlot p s s' where
  registry := by rw [hworld]; rfl
  entity := by
    rw [hworld, get?_players_modifySlot, if_pos rfl, Option.map_map]
    exact congrArg (fun g => (s.world.players.get? p).map g) (funext hf)
  others q hne := by rw [hworld, get?_players_modifySlot, if_neg (Ne.symm hne)]

/-- What a player does in between is a matter of the player's slot. -/
theorem sameButSlot_handle {e : Event} (he : e.isActivity p = true) (s : Simulation) :
    SameButSlot p s (s.handle e) := by
  -- who comes and who goes is not among these, and all else that a player does is in the slot
  cases e with
  | connected id username => cases he
  | disconnected id => cases he
  | udpReady id endpoint =>
    obtain rfl := of_decide_eq_true he
    cases hslot : s.world.players.get? id with
    | none =>
      have hsame : s.handle (.udpReady id endpoint) = s := welcome_of_none hslot endpoint
      rw [hsame]
      exact .refl id s
    | some slot =>
      refine sameButSlot_of_modifySlot (f := fun slot => { slot with endpoint := some endpoint })
        (fun _ => rfl) ?_
      exact congrArg Simulation.world (welcome_of_some hslot endpoint)
  | endpointChanged id endpoint =>
    obtain rfl := of_decide_eq_true he
    exact sameButSlot_of_modifySlot (f := fun slot => { slot with endpoint := some endpoint })
      (fun _ => rfl) rfl
  | input id i =>
    obtain rfl := of_decide_eq_true he
    exact sameButSlot_of_modifySlot (f := fun slot => { slot with pending := some i })
      (fun _ => rfl) rfl

/-- However much a player does in between. -/
theorem Settled.sameButSlot (events : List Event) : ∀ {s : Simulation}, Settled s →
    (∀ e ∈ events, e.isActivity p = true) →
      Settled (events.foldl Simulation.handle s) ∧
        SameButSlot p s (events.foldl Simulation.handle s) := by
  induction events with
  | nil => exact fun hs _ => ⟨hs, .refl p _⟩
  | cons e rest ih =>
    intro s hs hall
    obtain ⟨hsettled, hsame⟩ :=
      ih (hs.handle e) fun e' he' => hall e' (List.mem_cons_of_mem _ he')
    exact ⟨hsettled, (sameButSlot_handle (hall e List.mem_cons_self) s).trans hsame⟩

/-! ## Coming and going again -/

/-- The players and the entities are what they were. -/
structure Restores (s s' : Simulation) : Prop where
  players : s'.world.players = s.world.players
  isAlive : ∀ h, s'.world.registry.isAlive h = s.world.registry.isAlive h
  components : ∀ c h, s'.world.registry.get? c h = s.world.registry.get? c h

/-- A player has come and is still there: the avatar is in the slot, and everything else is as before. -/
theorem Settled.stay (hs : Settled s) (hnone : s.world.players.get? p = none) (username : String)
    {events : List Event} (hall : ∀ e ∈ events, e.isActivity p = true) :
    let t := events.foldl Simulation.handle (s.connect p username)
    Settled t ∧ t.world.registry = (s.world.summon (avatarParts s.tuning p)).2.registry ∧
      (∀ q, q ≠ p → t.world.players.get? q = s.world.players.get? q) ∧
      ∃ slot, t.world.players.get? p = some slot ∧ slot.entity = some s.world.registry.spawn.1 := by
  obtain ⟨hsettled, hsame⟩ := (hs.connect p username).sameButSlot events hall
  rw [connect_of_none hnone] at hsettled hsame ⊢
  refine ⟨hsettled, ?_, fun q hne => ?_, ?_⟩
  · rw [hsame.registry, registry_spawnPlayer]
  · rw [hsame.others q hne, get?_players_spawnPlayer, if_neg (Ne.symm hne)]
  · have hentity := hsame.entity
    rw [get?_players_spawnPlayer, if_pos rfl, Option.map_some] at hentity
    exact Option.map_eq_some_iff.mp hentity

theorem Settled.restores (hs : Settled s) (hnone : s.world.players.get? p = none)
    (username : String) {events : List Event} (hall : ∀ e ∈ events, e.isActivity p = true) :
    Restores s ((events.foldl Simulation.handle (s.connect p username)).disconnect p) := by
  obtain ⟨hsettled, hregistry, hothers, slot, hslot, hent⟩ := hs.stay hnone username hall
  rw [disconnect_of_some hsettled.condemned hslot hent]
  constructor
  · -- the slots, who is alive and the components: each is as it was before the player came
    refine SortedMap.ext_get? fun q => ?_
    by_cases hq : q = p
    · rw [hq, hnone, get?_players_evict_eq_none, SortedMap.get?_erase, if_pos rfl]
    · rw [hsettled.get?_players_evict hslot hent (fun _ => SortedMap.get?_erase_of_ne _) hq,
        hothers q hq]
  · intro k
    rw [isAlive_evict, hregistry, isAlive_summon hs.embodied.pool]
    -- the only handle that was given out is given back
    by_cases hk : k = s.world.registry.spawn.1
    · rw [if_pos hk, hk, Registry.isAlive_spawn_fst hs.embodied.pool]
    · rw [if_neg hk, if_neg (Ne.symm hk)]
  · intro c k
    rw [hsettled.embodied.get?_evict, hregistry]
    by_cases hk : k = s.world.registry.spawn.1
    · rw [if_pos hk, hk, hs.embodied.get?_spawn_fst]
    · rw [if_neg hk, get?_summon_of_ne _ c (Ne.symm hk)]

/-! ## Coming again -/

/-- Two ways to begin anew differ in nothing but one piece of news, to where a player could be reached. -/
structure Rejoins (s : Simulation) (p : UInt8) (slot : Slot) (direct detour : Simulation) : Prop where
  /-- The slots, the entities and the next network id are the same. -/
  world : direct.world = detour.world
  rest : direct = { detour with outbox := direct.outbox }
  /-- The others are told of the end of the avatar both times, the player only the first time. -/
  outboxes : ∃ h n before behind, slot.entity = some h ∧
    s.world.registry.get? .networkId h = some n ∧
    (∀ a ∈ before ++ behind, a ∈ s.world.addresses ∧ a.1 ≠ p) ∧
    detour.outbox = s.outbox ++ (before ++ behind).map (fun a => ⟨a.2, .destroy n⟩) ∧
    direct.outbox = s.outbox ++
      (before ++ (slot.endpoint.toList.map fun e => (p, e)) ++ behind).map fun a => ⟨a.2, .destroy n⟩

/-- A new avatar is the same in worlds that differ in the slot of its player alone. -/
theorem spawnPlayer_congr {w w' : World} (hregistry : w'.registry = w.registry)
    (hnext : w'.nextNetworkId = w.nextNetworkId)
    (hplayers : ∀ q, q ≠ p → w'.players.get? q = w.players.get? q) (t : Tuning) (username : String) :
    (w'.spawnPlayer t p username).2 = (w.spawnPlayer t p username).2 := by
  refine eq_of_slots ?_ ?_ fun q => ?_
  · rw [registry_spawnPlayer, registry_summon, hregistry, hnext, registry_spawnPlayer,
      registry_summon]
  · rw [nextNetworkId_spawnPlayer, hnext, nextNetworkId_spawnPlayer]
  · rw [get?_players_spawnPlayer, get?_players_spawnPlayer, hregistry]
    split
    · rfl
    · rename_i hne
      exact hplayers q (Ne.symm hne)

theorem Settled.rejoins (hs : Settled s) {slot : Slot} (hslot : s.world.players.get? p = some slot)
    (username : String) :
    Rejoins s p slot (s.connect p username) ((s.disconnect p).connect p username) := by
  obtain ⟨h, hent, hkind, -⟩ := hs.bound.of_slot hslot (by simp)
  have ha := hs.embodied.isAlive_of_get? hkind
  obtain ⟨-, -, n, -, -, hid⟩ := hs.embodied.identity_of_alive ha
  have hgone : (s.disconnect p).world.players.get? p = none := by
    rw [disconnect_of_some hs.condemned hslot hent]
    exact get?_players_evict_eq_none.mpr (by rw [SortedMap.get?_erase, if_pos rfl])
  -- whoever has gone first leaves the same world for the new avatar, but for the slot
  have hworld : ((s.world.evict s.world.players h).1.spawnPlayer s.tuning p username).2 =
      ((s.world.evict (s.world.players.erase p) h).1.spawnPlayer s.tuning p username).2 := by
    have hothers : ∀ q, q ≠ p → (s.world.evict s.world.players h).1.players.get? q =
        (s.world.evict (s.world.players.erase p) h).1.players.get? q := by
      intro q hne
      rw [hs.get?_players_evict hslot hent (fun _ _ => rfl) hne,
        hs.get?_players_evict hslot hent (fun _ => SortedMap.get?_erase_of_ne _) hne]
    have hregistry : (s.world.evict s.world.players h).1.registry =
        (s.world.evict (s.world.players.erase p) h).1.registry := rfl
    exact spawnPlayer_congr hregistry rfl hothers s.tuning username
  obtain ⟨before, behind, haddr, herase, hne⟩ := addresses_split hslot
  rw [connect_of_none hgone, connect_of_some hs.embodied hs.bound hs.condemned hslot hent,
    disconnect_of_some hs.condemned hslot hent]
  refine ⟨hworld, by rw [hworld], h, n, before, behind, hent, hid, fun a ha => ⟨?_, hne a ha⟩, ?_, ?_⟩
  · rw [haddr]
    rcases List.mem_append.mp ha with hm | hm
    · exact List.mem_append_left _ (List.mem_append_left _ hm)
    · exact List.mem_append_right _ hm
  · rw [evict_snd _ ha hid, herase]
  · rw [evict_snd _ ha hid, ← haddr]

/-- **Coming and going cancel out.** Wherever a new game gets to: if a player comes who is not there, does
whatever a player can do between two steps of time, and goes, then the players and the entities are what
they were. And if a player comes who is there, the world is as if the player had gone first; the news
differ in what the player is told of the old avatar. -/
theorem run_restores {settings : Settings} {entropy : Generator} {steps : List Step} {o : Outcome}
    (h : (start settings entropy).run steps = .ok o) (p : UInt8) (username : String) :
    (o.simulation.world.players.get? p = none → ∀ events : List Event,
      (∀ e ∈ events, e.isActivity p = true) → Restores o.simulation
        ((Event.connected p username :: events ++ [Event.disconnected p]).foldl handle o.simulation)) ∧
    ∀ slot, o.simulation.world.players.get? p = some slot →
      Rejoins o.simulation p slot (o.simulation.handle (.connected p username))
        ((o.simulation.handle (.disconnected p)).handle (.connected p username)) := by
  have hs := (sound_start settings entropy).toSettled.run h
  refine ⟨fun hnone events hall => ?_, fun _ hslot => hs.rejoins hslot username⟩
  rw [List.foldl_append]
  exact hs.restores hnone username hall

/-- Two players come and can be reached, and one of them fires. -/
def twoPlayers : List Step := [
  .event (.connected 1 "ace"),
  .event (.connected 2 "bo"),
  .event (.udpReady 1 ⟨.v4 (.replicate 4 10), 7001⟩),
  .event (.udpReady 2 ⟨.v4 (.replicate 4 10), 7002⟩),
  .event (.input 1 ⟨0, 1, Wire.shootButton, 1, 0⟩),
  .tick ⟨0x3c888889⟩]

/-- What a third player does before leaving again. -/
def thirdPlayerEvents : List Event := [
  .udpReady 3 ⟨.v4 (.replicate 4 10), 7003⟩,
  .input 3 ⟨0, 3, Wire.shootButton, 0, 1⟩,
  .endpointChanged 3 ⟨.v4 (.replicate 4 10), 7013⟩]

theorem run_restores_of_twoPlayers : ∃ o slot,
    (start .default (.ofSeed 0)).run twoPlayers = .ok o ∧
    o.simulation.world.players.get? 3 = none ∧
    Restores o.simulation
      ((Event.connected 3 "cy" :: thirdPlayerEvents ++ [Event.disconnected 3]).foldl handle
        o.simulation) ∧
    o.simulation.world.players.get? 1 = some slot ∧
    slot.endpoint = some ⟨.v4 (.replicate 4 10), 7001⟩ ∧
    Rejoins o.simulation 1 slot (o.simulation.handle (.connected 1 "ace"))
      ((o.simulation.handle (.disconnected 1)).handle (.connected 1 "ace")) := by
  have hends : ((start .default (.ofSeed 0)).run twoPlayers).toOption.any (fun o =>
      o.simulation.world.players.get? 3 = none &&
        (o.simulation.world.players.get? 1).any fun slot =>
          slot.endpoint = some ⟨.v4 (.replicate 4 10), 7001⟩) = true := by decide +kernel
  obtain ⟨o, ho, hends⟩ := (Option.any_eq_true _ _).mp hends
  rw [Bool.and_eq_true, decide_eq_true_eq] at hends
  obtain ⟨slot, hslot, hend⟩ := (Option.any_eq_true _ _).mp hends.2
  have hrun := eq_ok_of_toOption ho
  exact ⟨o, slot, hrun, hends.1,
    (run_restores hrun 3 "cy").1 hends.1 thirdPlayerEvents (by decide), hslot,
    of_decide_eq_true hend, (run_restores hrun 1 "ace").2 slot hslot⟩

end Simulation

end Skirmish
