import Skirmish.Proofs.Systems
/-!
# A world in order

Whatever players do, and in whatever order, the world stays in order (`Simulation.InOrder`): entities
have the components of their kind, network ids tell them apart, every player has an avatar and every
avatar a player, and nobody is condemned between two steps. The invariant is carried by `Sound`, which
also knows where the network ids have got to; every event and every step of time keeps it (`Sound.step`),
so every run does.

Coming and going are the delicate events. A player who comes again, or goes, has an avatar that must
end at once. In between the slot is vacant, and `Bound` with that vacancy says what still holds then.
-/

namespace Skirmish

open World

/-! ## Avatars that end -/

namespace World

variable {w : World}

/-- Who the players are makes no difference to what entities are made of. -/
theorem Embodied.withPlayers (he : w.Embodied) (ps : SortedMap UInt8 Slot) :
    ({ w with players := ps } : World).Embodied :=
  he.of_kept (.refl _)

theorem Numbered.withPlayers (hn : w.Numbered) (ps : SortedMap UInt8 Slot) :
    ({ w with players := ps } : World).Numbered :=
  hn.of_kept (.refl _) rfl

/-- The only one that is condemned. -/
def condemnedAlone (h : Handle) : HandleSet := (∅ : HandleSet).insertAll [h]

theorem mem_condemnedAlone {h k : Handle} : k ∈ condemnedAlone h ↔ k = h := by
  rw [condemnedAlone, HandleSet.mem_insertAll, List.mem_singleton]
  simp

/-- An avatar ends, when the players are these. -/
def evict (w : World) (ps : SortedMap UInt8 Slot) (h : Handle) : World × List Dispatch :=
  ({ w with players := ps } : World).reap (condemnedAlone h)

theorem Embodied.get?_evict (he : w.Embodied) (ps : SortedMap UInt8 Slot) (h : Handle)
    (c : ComponentType) (k : Handle) :
    (w.evict ps h).1.registry.get? c k = if k = h then none else w.registry.get? c k := by
  rw [evict, (he.withPlayers ps).get?_reap]
  simp only [mem_condemnedAlone]

theorem get?_players_evict {ps : SortedMap UInt8 Slot} {h : Handle} {q : UInt8} {slot : Slot}
    (hslot : ps.get? q = some slot) (hent : slot.entity ≠ some h) :
    (w.evict ps h).1.players.get? q = some slot := by
  show (ps.map fun _ => releasedFrom (reaped { w with players := ps } (condemnedAlone h))).get? q = _
  rw [SortedMap.get?_map, hslot, Option.map_some, releasedFrom]
  split
  · rename_i k hk
    have hgone : k ∉ reaped { w with players := ps } (condemnedAlone h) := by
      intro hm
      rw [mem_condemnedAlone.mp (mem_reaped.mp hm).1] at hk
      exact hent hk
    rw [if_neg hgone]
  · rfl

theorem get?_players_evict_eq_none {ps : SortedMap UInt8 Slot} {h : Handle} {q : UInt8} :
    (w.evict ps h).1.players.get? q = none ↔ ps.get? q = none := by
  show (ps.map fun _ => releasedFrom (reaped { w with players := ps } (condemnedAlone h))).get? q =
    none ↔ _
  rw [SortedMap.get?_map, Option.map_eq_none_iff]

/-- The slots of all others are as they were. -/
theorem Bound.get?_players_evict (hb : w.Bound none) {p : UInt8} {h : Handle}
    (howner : w.registry.get? .owner h = some p) {ps : SortedMap UInt8 Slot}
    (hps : ∀ q, q ≠ p → ps.get? q = w.players.get? q) {q : UInt8} (hne : q ≠ p) :
    (w.evict ps h).1.players.get? q = w.players.get? q := by
  rw [← hps q hne]
  cases hslot : ps.get? q with
  | none => exact get?_players_evict_eq_none.mpr hslot
  | some slot =>
    refine World.get?_players_evict hslot fun hent => ?_
    obtain ⟨k, hk, -, hown⟩ := hb.of_slot ((hps q hne).symm.trans hslot) (by simp)
    rw [hent, Option.some.injEq] at hk
    rw [← hk, howner, Option.some.injEq] at hown
    exact hne hown.symm

/-- When the avatar of a player ends, everyone else is as before. -/
theorem Bound.evict (hb : w.Bound none) (he : w.Embodied) {p : UInt8} {h : Handle}
    (howner : w.registry.get? .owner h = some p)
    (honly : ∀ {k}, w.registry.get? .kind k = some .player →
      w.registry.get? .owner k = some p → k = h)
    {ps : SortedMap UInt8 Slot} (hps : ∀ q, q ≠ p → ps.get? q = w.players.get? q) :
    (w.evict ps h).1.Bound (some p) := by
  constructor
  · intro q slot hslot hv
    have hne : q ≠ p := fun e => hv (by rw [e])
    rw [hb.get?_players_evict howner hps hne] at hslot
    obtain ⟨k, hent, hkind, hown⟩ := hb.of_slot hslot (by simp)
    -- the avatars of others are other entities
    have hk : k ≠ h := by
      intro heq
      subst heq
      rw [howner, Option.some.injEq] at hown
      exact hne hown.symm
    exact ⟨k, hent, by rw [he.get?_evict, if_neg hk, hkind],
      by rw [he.get?_evict, if_neg hk, hown]⟩
  · intro k hkind
    rw [he.get?_evict] at hkind
    split at hkind
    · exact absurd hkind (by simp)
    · rename_i hk
      obtain ⟨q, slot, hown, -, hslot, hent⟩ := hb.of_avatar hkind
      have hne : q ≠ p := by
        -- the avatar of the player was the only one, so those that are left are of others
        intro heq
        subst heq
        exact hk (honly hkind hown)
      exact ⟨q, slot, by rw [he.get?_evict, if_neg hk, hown],
        fun e => hne (Option.some.inj e).symm,
        by rw [hb.get?_players_evict howner hps hne, hslot], hent⟩

/-- A player has one avatar. -/
theorem Bound.avatar_unique (hb : w.Bound none) {p : UInt8} {slot : Slot} {h k : Handle}
    (hslot : w.players.get? p = some slot) (hent : slot.entity = some h)
    (hkind : w.registry.get? .kind k = some .player)
    (howner : w.registry.get? .owner k = some p) : k = h := by
  obtain ⟨q, slot', hown, -, hslot', hent'⟩ := hb.of_avatar hkind
  rw [howner, Option.some.injEq] at hown
  subst hown
  rw [hslot, Option.some.injEq] at hslot'
  subst hslot'
  rw [hent, Option.some.injEq] at hent'
  exact hent'.symm

/-- A player without a slot has no avatar, so the slot may as well be called vacant. -/
theorem Bound.vacant_of_none (hb : w.Bound none) {p : UInt8} (hp : w.players.get? p = none) :
    w.Bound (some p) where
  of_slot hslot _ := hb.of_slot hslot (by simp)
  of_avatar hkind := by
    obtain ⟨q, slot, howner, -, hslot, hent⟩ := hb.of_avatar hkind
    refine ⟨q, slot, howner, ?_, hslot, hent⟩
    intro e
    rw [← Option.some.inj e, hp] at hslot
    cases hslot

/-- A vacancy that nobody has a slot for is none. -/
theorem Bound.of_vacant (hb : w.Bound (some p)) (hp : w.players.get? p = none) :
    w.Bound none where
  of_slot {q slot} hslot _ := by
    refine hb.of_slot hslot fun e => ?_
    rw [← Option.some.inj e, hp] at hslot
    cases hslot
  of_avatar hkind := by
    obtain ⟨q, slot, howner, -, hslot, hent⟩ := hb.of_avatar hkind
    exact ⟨q, slot, howner, by simp, hslot, hent⟩

/-! ## Avatars that are born -/

theorem registry_spawnPlayer (t : Tuning) (p : UInt8) (username : String) :
    (w.spawnPlayer t p username).2.registry = (w.summon (avatarParts t p)).2.registry := by
  rw [spawnPlayer_snd]

theorem get?_players_spawnPlayer (t : Tuning) (p q : UInt8) (username : String) :
    (w.spawnPlayer t p username).2.players.get? q =
      if p = q then some ⟨username, some w.registry.spawn.1, none, none, none⟩
      else w.players.get? q := by
  rw [spawnPlayer_snd, SortedMap.get?_insert]

theorem owner_avatarParts (t : Tuning) (p : UInt8) (n : UInt32) :
    partOf? .owner (⟨.networkId, n⟩ :: avatarParts t p) = some p := rfl

/-- A new avatar fills the vacancy. -/
theorem Bound.spawnPlayer {p : UInt8} (hb : w.Bound (some p)) (he : w.Embodied) (t : Tuning)
    (username : String) : (w.spawnPlayer t p username).2.Bound none := by
  have hkind_new : (w.spawnPlayer t p username).2.registry.get? .kind w.registry.spawn.1 =
      some .player := by
    rw [registry_spawnPlayer, he.get?_newborn, (complete_avatar t p).kind]
  have howner_new : (w.spawnPlayer t p username).2.registry.get? .owner w.registry.spawn.1 =
      some p := by
    rw [registry_spawnPlayer, he.get?_newborn, owner_avatarParts]
  -- everyone else keeps what they have
  have hold : ∀ {h : Handle} {c : ComponentType} {v : c.Value},
      w.registry.get? c h = some v →
        (w.spawnPlayer t p username).2.registry.get? c h = some v := by
    intro h c v hv
    rw [registry_spawnPlayer, he.get?_summon_of_some hv]
  constructor
  · intro q slot hslot _
    rw [get?_players_spawnPlayer] at hslot
    split at hslot
    · rename_i hpq
      rw [Option.some.injEq] at hslot
      subst hslot hpq
      exact ⟨_, rfl, hkind_new, howner_new⟩
    · rename_i hpq
      obtain ⟨h, hent, hkind, howner⟩ := hb.of_slot hslot fun e => hpq (Option.some.inj e)
      exact ⟨h, hent, hold hkind, hold howner⟩
  · intro h hkind
    rw [registry_spawnPlayer] at hkind
    rcases get?_summon_cases hkind with rfl | ⟨-, hkind'⟩
    · exact ⟨p, _, howner_new, by simp, by rw [get?_players_spawnPlayer, if_pos rfl], rfl⟩
    · obtain ⟨q, slot, howner, hv, hslot, hent⟩ := hb.of_avatar hkind'
      have hpq : p ≠ q := fun e => hv (by rw [e])
      exact ⟨q, slot, hold howner, by simp, by rw [get?_players_spawnPlayer, if_neg hpq, hslot],
        hent⟩

theorem nextNetworkId_spawnPlayer (t : Tuning) (p : UInt8) (username : String) :
    (w.spawnPlayer t p username).2.nextNetworkId = followingId w.nextNetworkId := by
  rw [spawnPlayer_snd, nextNetworkId_summon]

end World

/-! ## Events -/

namespace Simulation

variable {s : Simulation}

/-- A player comes who is not there. -/
theorem connect_of_none {id : UInt8} (h : s.world.players.get? id = none) (username : String) :
    s.connect id username =
      { s with world := (s.world.spawnPlayer s.tuning id username).2 } := by
  have hp : s.world.playerEntity? id = none := by simp [playerEntity?, h]
  simp only [connect, hp]

/-- A player comes who is there: the avatar ends first. -/
theorem connect_of_some (he : s.world.Embodied) (hb : s.world.Bound none) (hc : s.condemned = ∅)
    {id : UInt8} {slot : Slot} {h : Handle} (hslot : s.world.players.get? id = some slot)
    (hent : slot.entity = some h) (username : String) :
    s.connect id username =
      { s with
        world := ((s.world.evict s.world.players h).1.spawnPlayer s.tuning id username).2
        outbox := s.outbox ++ (s.world.evict s.world.players h).2 } := by
  obtain ⟨k, hk, hp, -⟩ := playerEntity?_of_slot he hb hslot
  rw [hent, Option.some.injEq] at hk
  subst hk
  simp only [connect, hp]
  simp only [condemn, Simulation.reap, say, hc]
  rfl

/-- A player goes who is there. -/
theorem disconnect_of_some (hc : s.condemned = ∅) {id : UInt8} {slot : Slot} {h : Handle}
    (hslot : s.world.players.get? id = some slot) (hent : slot.entity = some h) :
    s.disconnect id =
      { s with
        world := (s.world.evict (s.world.players.erase id) h).1
        outbox := s.outbox ++ (s.world.evict (s.world.players.erase id) h).2 } := by
  simp only [disconnect, hslot, hent]
  simp only [condemn, Simulation.reap, say, hc]
  rfl

/-- A player comes: an avatar that is still there ends first. -/
theorem connect_cases (he : s.world.Embodied) (hb : s.world.Bound none) (hc : s.condemned = ∅)
    (id : UInt8) (username : String) :
    (s.world.players.get? id = none ∧
      s.connect id username =
        { s with world := (s.world.spawnPlayer s.tuning id username).2 }) ∨
    (∃ slot h, s.world.players.get? id = some slot ∧ slot.entity = some h ∧
      s.connect id username =
        { s with
          world := ((s.world.evict s.world.players h).1.spawnPlayer s.tuning id username).2
          outbox := s.outbox ++ (s.world.evict s.world.players h).2 }) := by
  cases hslot : s.world.players.get? id with
  | none => exact .inl ⟨rfl, connect_of_none hslot username⟩
  | some slot =>
    obtain ⟨h, hent, -⟩ := hb.of_slot hslot (by simp)
    exact .inr ⟨slot, h, rfl, hent, connect_of_some he hb hc hslot hent username⟩

/-- A player goes, and the avatar with the player. -/
theorem disconnect_cases (hb : s.world.Bound none) (hc : s.condemned = ∅) (id : UInt8) :
    (s.world.players.get? id = none ∧ s.disconnect id = s) ∨
    (∃ slot h, s.world.players.get? id = some slot ∧ slot.entity = some h ∧
      s.disconnect id =
        { s with
          world := (s.world.evict (s.world.players.erase id) h).1
          outbox := s.outbox ++ (s.world.evict (s.world.players.erase id) h).2 }) := by
  cases hslot : s.world.players.get? id with
  | none =>
    refine .inl ⟨rfl, ?_⟩
    simp only [disconnect, hslot]
  | some slot =>
    obtain ⟨h, hent, -⟩ := hb.of_slot hslot (by simp)
    exact .inr ⟨slot, h, rfl, hent, disconnect_of_some hc hslot hent⟩

/-- The world in which a player can be reached. -/
def reached (s : Simulation) (id : UInt8) (endpoint : Endpoint) : World :=
  s.world.modifySlot id fun slot => { slot with endpoint := some endpoint }

theorem get?_players_reached (id q : UInt8) (endpoint : Endpoint) :
    (s.reached id endpoint).players.get? q =
      if id = q then (s.world.players.get? q).map fun slot => { slot with endpoint := some endpoint }
      else s.world.players.get? q :=
  get?_players_modifySlot _ _ _

/-- A player can be reached, and is told of everyone, and everyone of the player. -/
theorem welcome_of_some {id : UInt8} {slot : Slot} (h : s.world.players.get? id = some slot)
    (endpoint : Endpoint) : s.welcome id endpoint =
      { s with world := s.reached id endpoint }.say
        (catchUp (s.reached id endpoint) slot.entity endpoint ++
          introduction (s.reached id endpoint) slot.entity) := by
  unfold welcome
  rw [h]
  rfl

/-- Whoever has no slot is not waited for. -/
theorem welcome_of_none {id : UInt8} (h : s.world.players.get? id = none) (endpoint : Endpoint) :
    s.welcome id endpoint = s := by
  unfold welcome
  rw [h]

/-! ## The invariant -/

/-- The world is in order but for the network ids. -/
structure Settled (s : Simulation) : Prop where
  embodied : s.world.Embodied
  bound : s.world.Bound none
  condemned : s.condemned = ∅

/-- The world is in order after `n` births. -/
structure Sound (n : Nat) (s : Simulation) : Prop extends Settled s where
  numbered : s.world.Numbered
  nextNetworkId : s.world.nextNetworkId.toNat = n + 1

theorem get?_register_all (types : List ComponentType) (r : Registry ComponentType.Value)
    (c : ComponentType) (h : Handle) : (types.foldl Registry.register r).get? c h = r.get? c h := by
  induction types generalizing r with
  | nil => rfl
  | cons d rest ih => rw [List.foldl_cons, ih, Registry.get?_register]

theorem pool_register_all (types : List ComponentType) (r : Registry ComponentType.Value) :
    (types.foldl Registry.register r).pool = r.pool := by
  induction types generalizing r with
  | nil => rfl
  | cons d rest ih =>
    rw [List.foldl_cons, ih]
    rfl

/-- A new game has nothing in it that could be out of order. -/
theorem sound_start (settings : Settings) (entropy : Generator) :
    Sound 0 (start settings entropy) := by
  have hpool : World.empty.registry.pool = .empty := pool_register_all _ _
  have hnone : ∀ c h, World.empty.registry.get? c h = none := fun c h =>
    get?_register_all _ _ c h
  have hdead : ∀ h, World.empty.registry.isAlive h = false := fun h => by
    rw [Registry.isAlive, hpool, Pool.isLive_empty]
  have habsurd : ∀ {c h} {v : c.Value}, World.empty.registry.get? c h = some v → False := by
    intro c h v hv
    rw [hnone] at hv
    cases hv
  -- nobody is there in the beginning, so nothing is out of order
  refine ⟨⟨⟨?_, fun _ c => hnone c _, fun {h} ha => ?_, fun hx => (habsurd hx).elim⟩,
    ⟨fun hslot _ => ?_, fun hx => (habsurd hx).elim⟩, rfl⟩,
    ⟨fun hx _ => (habsurd hx).elim, fun hx => (habsurd hx).elim, fun hx => (habsurd hx).elim⟩, rfl⟩
  · show World.empty.registry.pool.Valid
    rw [hpool]
    exact Pool.valid_empty
  · have ha : World.empty.registry.isAlive h = true := ha
    rw [hdead] at ha
    cases ha
  · cases hslot

/-! ### All but the network ids -/

/-- Whatever happens to slots but for their entities leaves the world in order. -/
theorem Settled.modifySlot (hs : Settled s) (id : UInt8) {f : Slot → Slot}
    (hf : ∀ slot, (f slot).entity = slot.entity) (outbox : List Dispatch) :
    Settled { s with world := s.world.modifySlot id f, outbox } where
  embodied := hs.embodied.of_kept (.refl _)
  bound := hs.bound.modifySlot id hf
  condemned := hs.condemned

theorem Settled.welcome (hs : Settled s) (id : UInt8) (endpoint : Endpoint) :
    Settled (s.welcome id endpoint) := by
  cases hslot : s.world.players.get? id with
  | none =>
    rw [welcome_of_none hslot]
    exact hs
  | some slot =>
    rw [welcome_of_some hslot]
    exact hs.modifySlot id (f := fun slot => { slot with endpoint := some endpoint })
      (fun _ => rfl) _

/-- The world without the avatar of a player. -/
theorem Settled.evict (hs : Settled s) {p : UInt8} {slot : Slot} {h : Handle}
    (hslot : s.world.players.get? p = some slot) (hent : slot.entity = some h)
    {ps : SortedMap UInt8 Slot} (hps : ∀ q, q ≠ p → ps.get? q = s.world.players.get? q) :
    (s.world.evict ps h).1.Embodied ∧ (s.world.evict ps h).1.Bound (some p) := by
  obtain ⟨k, hk, -, howner⟩ := hs.bound.of_slot hslot (by simp)
  rw [hent, Option.some.injEq] at hk
  subst hk
  exact ⟨(hs.embodied.withPlayers ps).reap _,
    hs.bound.evict hs.embodied howner (hs.bound.avatar_unique hslot hent) hps⟩

/-- The slots of all others are as they were. -/
theorem Settled.get?_players_evict (hs : Settled s) {p : UInt8} {slot : Slot} {h : Handle}
    (hslot : s.world.players.get? p = some slot) (hent : slot.entity = some h)
    {ps : SortedMap UInt8 Slot} (hps : ∀ q, q ≠ p → ps.get? q = s.world.players.get? q)
    {q : UInt8} (hne : q ≠ p) :
    (s.world.evict ps h).1.players.get? q = s.world.players.get? q := by
  obtain ⟨k, hk, -, howner⟩ := hs.bound.of_slot hslot (by simp)
  rw [hent, Option.some.injEq] at hk
  subst hk
  exact hs.bound.get?_players_evict howner hps hne

/-- A new avatar fills a vacancy, in a world that is otherwise in order. -/
theorem settled_spawnPlayer {w : World} {p : UInt8} (he : w.Embodied) (hb : w.Bound (some p))
    (t : Tuning) (username : String) : (w.spawnPlayer t p username).2.Embodied ∧
      (w.spawnPlayer t p username).2.Bound none := by
  refine ⟨?_, hb.spawnPlayer he t username⟩
  rw [spawnPlayer_snd]
  exact (he.summon (complete_avatar t p)).withPlayers _

theorem Settled.connect (hs : Settled s) (id : UInt8) (username : String) :
    Settled (s.connect id username) := by
  rcases connect_cases hs.embodied hs.bound hs.condemned id username with
    ⟨hslot, heq⟩ | ⟨slot, h, hslot, hent, heq⟩
  · -- nobody has the number
    obtain ⟨h1, h2⟩ := settled_spawnPlayer hs.embodied (hs.bound.vacant_of_none hslot) s.tuning
      username
    rw [heq]
    exact ⟨h1, h2, hs.condemned⟩
  · -- somebody has: the old avatar ends first
    obtain ⟨he, hb⟩ := hs.evict hslot hent fun _ _ => rfl
    obtain ⟨h1, h2⟩ := settled_spawnPlayer he hb s.tuning username
    rw [heq]
    exact ⟨h1, h2, hs.condemned⟩

theorem Settled.disconnect (hs : Settled s) (id : UInt8) : Settled (s.disconnect id) := by
  rcases disconnect_cases hs.bound hs.condemned id with ⟨-, heq⟩ | ⟨slot, h, hslot, hent, heq⟩
  · rw [heq]
    exact hs
  · have hps : ∀ q, q ≠ id → (s.world.players.erase id).get? q = s.world.players.get? q :=
      fun _ => SortedMap.get?_erase_of_ne _
    obtain ⟨he, hb⟩ := hs.evict hslot hent hps
    -- the slot is gone as well, so nothing is vacant
    have hgone : (s.world.evict (s.world.players.erase id) h).1.players.get? id = none := by
      rw [get?_players_evict_eq_none, SortedMap.get?_erase, if_pos rfl]
    rw [heq]
    exact ⟨he, hb.of_vacant hgone, hs.condemned⟩

theorem Settled.handle (hs : Settled s) (e : Event) : Settled (s.handle e) := by
  cases e with
  | connected id username => exact hs.connect id username
  | udpReady id endpoint => exact hs.welcome id endpoint
  | endpointChanged id endpoint =>
    exact hs.modifySlot id (f := fun slot => { slot with endpoint := some endpoint })
      (fun _ => rfl) s.outbox
  | disconnected id => exact hs.disconnect id
  | input id i =>
    exact hs.modifySlot id (f := fun slot => { slot with pending := some i }) (fun _ => rfl) s.outbox

theorem Settled.tick (hs : Settled s) {dt : Single} {s' : Simulation} {sent : List Dispatch}
    (h : s.tick dt = .ok (s', sent)) : Settled s' := by
  obtain ⟨w, out, condemned, hev, hspares, hworld, hc, -, -⟩ :=
    tick_cases hs.embodied hs.bound hs.condemned h
  have he := hev.embodied hs.embodied
  refine ⟨?_, ?_, hc⟩
  · rw [hworld]
    exact he.reap condemned
  · rw [hworld]
    exact (hev.bound hs.embodied hs.bound).reap he hspares

theorem Settled.step (hs : Settled s) {x : Step} {s' : Simulation} {sent : List Dispatch}
    (h : s.step x = .ok (s', sent)) : Settled s' := by
  cases x with
  | event e =>
    cases h
    exact hs.handle e
  | tick dt => exact hs.tick h

/-- What holds after any run, whatever has become of the network ids. -/
theorem Settled.run (hs : Settled s) {steps : List Step} {o : Outcome}
    (h : s.run steps = .ok o) : Settled o.simulation :=
  run_invariant (P := fun _ => Settled) (fun hs _ hstep => hs.step hstep) hs
    (Nat.lt_succ_self (0 + o.ids)) h

/-! ### The network ids -/

variable {n : Nat}

/-- A slot is no matter of network ids. -/
theorem Sound.of_registry (hs : Sound n s) {s' : Simulation} (hs' : Settled s')
    (hreg : s'.world.registry = s.world.registry)
    (hnext : s'.world.nextNetworkId = s.world.nextNetworkId) : Sound n s' where
  toSettled := hs'
  numbered := hs.numbered.of_kept (hreg ▸ .refl _) hnext
  nextNetworkId := by rw [hnext, hs.nextNetworkId]

theorem Sound.welcome (hs : Sound n s) (id : UInt8) (endpoint : Endpoint) :
    Sound n (s.welcome id endpoint) := by
  have hsettled := hs.toSettled.welcome id endpoint
  cases hslot : s.world.players.get? id with
  | none =>
    rw [welcome_of_none hslot]
    exact hs
  | some slot =>
    rw [welcome_of_some hslot] at hsettled ⊢
    exact hs.of_registry hsettled rfl rfl

theorem Sound.evict (hs : Sound n s) (ps : SortedMap UInt8 Slot) (h : Handle) :
    (s.world.evict ps h).1.Numbered :=
  (hs.numbered.withPlayers ps).reap (hs.embodied.withPlayers ps) _

/-- A new avatar is numbered after all others. -/
theorem numbered_spawnPlayer {w : World} (he : w.Embodied) (hn : w.Numbered)
    (hnext : w.nextNetworkId.toNat = n + 1) (hroom : n + 1 < 0xffffffff) (t : Tuning) (p : UInt8)
    (username : String) : (w.spawnPlayer t p username).2.Numbered ∧
      (w.spawnPlayer t p username).2.nextNetworkId.toNat = n + 1 + 1 := by
  have hplace := hn.summon he (complete_avatar t p) (by omega) (by omega)
  refine ⟨?_, ?_⟩
  · rw [spawnPlayer_snd]
    exact hplace.withPlayers _
  · rw [nextNetworkId_spawnPlayer, toNat_followingId (by omega), hnext]

theorem Sound.connect (hs : Sound n s) (hroom : n + 1 < 0xffffffff) (id : UInt8)
    (username : String) : Sound (n + 1) (s.connect id username) := by
  have hsettled := hs.toSettled.connect id username
  rcases connect_cases hs.embodied hs.bound hs.condemned id username with
    ⟨-, heq⟩ | ⟨slot, h, hslot, hent, heq⟩
  · obtain ⟨h1, h2⟩ := numbered_spawnPlayer hs.embodied hs.numbered hs.nextNetworkId hroom
      s.tuning id username
    rw [heq] at hsettled ⊢
    exact ⟨hsettled, h1, h2⟩
  · obtain ⟨he, -⟩ := hs.toSettled.evict hslot hent fun _ _ => rfl
    obtain ⟨h1, h2⟩ := numbered_spawnPlayer he (hs.evict s.world.players h) hs.nextNetworkId hroom
      s.tuning id username
    rw [heq] at hsettled ⊢
    exact ⟨hsettled, h1, h2⟩

theorem Sound.disconnect (hs : Sound n s) (id : UInt8) : Sound n (s.disconnect id) := by
  have hsettled := hs.toSettled.disconnect id
  rcases disconnect_cases hs.bound hs.condemned id with ⟨-, heq⟩ | ⟨slot, h, -, -, heq⟩
  · rw [heq]
    exact hs
  · rw [heq] at hsettled ⊢
    exact ⟨hsettled, hs.evict _ _, hs.nextNetworkId⟩

/-- **Every event keeps the world in order.** -/
theorem Sound.handle (hs : Sound n s) (e : Event)
    (hroom : n + s.births (.event e) < 0xffffffff) :
    Sound (n + s.births (.event e)) (s.handle e) := by
  cases e with
  | connected id username => exact hs.connect hroom id username
  | udpReady id endpoint => exact hs.welcome id endpoint
  | endpointChanged id endpoint => exact hs.of_registry (hs.toSettled.handle _) rfl rfl
  | disconnected id => exact hs.disconnect id
  | input id i => exact hs.of_registry (hs.toSettled.handle _) rfl rfl

/-- **Every step of time keeps the world in order.** -/
theorem Sound.tick (hs : Sound n s) {dt : Single} {s' : Simulation} {sent : List Dispatch}
    (hroom : n + s.births (.tick dt) < 0xffffffff) (h : s.tick dt = .ok (s', sent)) :
    Sound (n + s.births (.tick dt)) s' := by
  obtain ⟨w, out, condemned, hev, -, hworld, -, -, -⟩ :=
    tick_cases hs.embodied hs.bound hs.condemned h
  have hnext := hs.nextNetworkId
  obtain ⟨hn, hnext'⟩ := hev.numbered hs.embodied hs.numbered (by omega) (by omega)
  refine ⟨hs.toSettled.tick h, ?_, ?_⟩
  · rw [hworld]
    exact hn.reap (hev.embodied hs.embodied) condemned
  · rw [hworld, nextNetworkId_reap, hnext', hnext]
    omega

theorem Sound.step (hs : Sound n s) {x : Step} {s' : Simulation} {sent : List Dispatch}
    (hroom : n + s.births x < 0xffffffff) (h : s.step x = .ok (s', sent)) :
    Sound (n + s.births x) s' := by
  cases x with
  | event e =>
    cases h
    exact hs.handle e hroom
  | tick dt => exact hs.tick hroom h

/-- What holds after any run, as long as there are network ids left. -/
theorem Sound.run (hs : Sound n s) {steps : List Step} {o : Outcome}
    (hroom : n + o.ids < 0xffffffff) (h : s.run steps = .ok o) :
    Sound (n + o.ids) o.simulation :=
  run_invariant (P := Sound) (fun hs hroom hstep => hs.step hroom hstep) hs hroom h

/-! ## What the invariant says -/

/-- A world in order, between two steps. -/
structure InOrder (s : Simulation) : Prop where
  /-- Whoever is alive has a network id, and nobody else has. -/
  alive_iff : ∀ h, s.world.registry.isAlive h = true ↔
    (s.world.registry.get? .networkId h).isSome
  /-- Everyone has a place, a velocity, a shape, an owner and one of three kinds. -/
  carries : ∀ h, s.world.registry.isAlive h = true →
    (s.world.registry.get? .position h).isSome ∧ (s.world.registry.get? .velocity h).isSome ∧
    (s.world.registry.get? .drawable h).isSome ∧ (s.world.registry.get? .owner h).isSome ∧
    ∃ k, s.world.registry.get? .kind h = some k ∧
      (k = .player ∨ k = .enemy ∨ k = .playerBullet)
  /-- Avatars and enemies can be hurt, and neither do damage nor grow old. -/
  mortal : ∀ h, s.world.registry.get? .kind h = some .player ∨
      s.world.registry.get? .kind h = some .enemy →
    (∃ x, s.world.registry.get? .health h = some x ∧ x.current ≤ x.max) ∧
    s.world.registry.get? .damage h = none ∧ s.world.registry.get? .lifetime h = none
  /-- Bullets do damage and grow old, and cannot be hurt. -/
  bullet : ∀ h, s.world.registry.get? .kind h = some .playerBullet →
    (s.world.registry.get? .damage h).isSome ∧ (s.world.registry.get? .lifetime h).isSome ∧
    s.world.registry.get? .health h = none
  /-- The dead leave nothing behind. -/
  dead : ∀ h, s.world.registry.isAlive h = false → ∀ c, s.world.registry.get? c h = none
  /-- Network ids tell entities apart. -/
  distinct : ∀ h h' n, s.world.registry.get? .networkId h = some n →
    s.world.registry.get? .networkId h' = some n → h = h'
  /-- Network ids lie between zero and the next one. -/
  numbered : ∀ h n, s.world.registry.get? .networkId h = some n →
    n ≠ 0 ∧ n < s.world.nextNetworkId
  /-- Every player has an avatar. -/
  avatar_of_slot : ∀ p slot, s.world.players.get? p = some slot →
    ∃ h, slot.entity = some h ∧ s.world.registry.isAlive h = true ∧
      s.world.registry.get? .kind h = some .player ∧ s.world.registry.get? .owner h = some p
  /-- Every avatar has a player. -/
  slot_of_avatar : ∀ h, s.world.registry.isAlive h = true →
    s.world.registry.get? .kind h = some .player →
    ∃ p slot, s.world.registry.get? .owner h = some p ∧ s.world.players.get? p = some slot ∧
      slot.entity = some h
  /-- Nobody is left to be reaped later, when the handle may be somebody else's. -/
  nobody_condemned : s.condemned = ∅

theorem Sound.inOrder (hs : Sound n s) : s.InOrder := by
  have he := hs.embodied
  have hnone : ∀ {h k c}, s.world.registry.get? .kind h = some k → c ∉ k.anatomy →
      s.world.registry.get? c h = none := by
    intro h k c hk hc
    rw [← Option.not_isSome_iff_eq_none, he.isSome_iff hk]
    exact hc
  -- every field is read off an invariant, most of them off what an entity of its kind has
  refine ⟨fun h => he.isSome_networkId_iff.symm, fun h ha => ?_, fun h hk => ?_, fun h hk => ?_,
    fun h ha c => he.of_dead ha c, fun _ _ _ h h' => hs.numbered.inj h h', fun h n hn => ?_,
    fun p slot hslot => ?_, fun h _ hkind => ?_, hs.condemned⟩
  · obtain ⟨k, hk, hc⟩ := he.of_alive ha
    simp only [hc]
    rcases he.kind_mem hk with rfl | rfl | rfl <;> simp [EntityKind.anatomy, hk]
  · have hhealth : ∃ x, s.world.registry.get? .health h = some x := by
      rcases hk with hk | hk <;> exact he.get?_of_mem hk (by simp [EntityKind.anatomy])
    obtain ⟨x, hx⟩ := hhealth
    refine ⟨⟨x, hx, he.health_le hx⟩, ?_⟩
    rcases hk with hk | hk <;>
      exact ⟨hnone hk (by simp [EntityKind.anatomy]), hnone hk (by simp [EntityKind.anatomy])⟩
  · rw [he.isSome_iff hk, he.isSome_iff hk]
    exact ⟨by simp [EntityKind.anatomy], by simp [EntityKind.anatomy],
      hnone hk (by simp [EntityKind.anatomy])⟩
  · have hpos := hs.numbered.pos hn
    refine ⟨?_, UInt32.lt_iff_toNat_lt.mpr (hs.numbered.lt_next hn)⟩
    intro heq
    subst heq
    exact absurd hpos (by simp)
  · obtain ⟨h, hent, hkind, howner⟩ := hs.bound.of_slot hslot (by simp)
    exact ⟨h, hent, he.isAlive_of_get? hkind, hkind, howner⟩
  · obtain ⟨p, slot, howner, -, hslot, hent⟩ := hs.bound.of_avatar hkind
    exact ⟨p, slot, howner, hslot, hent⟩

/-- **The world stays in order.** Whatever events come, in whatever order, and however time passes:
wherever a new game gets to without a fault, its world is in order, as long as there have been network
ids to hand out. -/
theorem run_inOrder {settings : Settings} {entropy : Generator} {steps : List Step} {o : Outcome}
    (h : (start settings entropy).run steps = .ok o) (hids : o.ids < 0xffffffff) :
    o.simulation.InOrder :=
  ((sound_start settings entropy).run (by omega) h).inOrder

/-- A player comes, is reached, fires, comes again over the avatar that is still there, and goes. -/
def reconnection : List Step := [
  .event (.connected 1 "ace"),
  .event (.udpReady 1 ⟨.v4 (.replicate 4 10), 7001⟩),
  .event (.input 1 ⟨0, 1, Wire.shootButton, 1, 0⟩),
  .tick ⟨0x3c888889⟩,
  .event (.connected 1 "ace"),
  .tick ⟨0x3c888889⟩,
  .event (.disconnected 1),
  .event (.disconnected 1)]

theorem run_inOrder_of_reconnection : ∃ o, (start .default (.ofSeed 0)).run reconnection = .ok o ∧
    o.ids < 0xffffffff ∧ o.simulation.InOrder := by
  obtain ⟨o, ho, hids⟩ : ∃ o, (start .default (.ofSeed 0)).run reconnection = .ok o ∧ o.ids = 3 :=
    exists_outcome (by decide +kernel)
  have hlt : o.ids < 0xffffffff := by omega
  exact ⟨o, ho, hlt, run_inOrder ho hlt⟩

end Simulation

end Skirmish
