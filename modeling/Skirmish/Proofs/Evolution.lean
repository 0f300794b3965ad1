import Mathlib.Data.List.Basic
import Skirmish.Proofs.Anatomy
import Skirmish.Proofs.Run
/-!
# What a step does to the world

A step of time does a great deal, but only three sorts of things: it changes values in place, it lets
bullets and enemies be born, each birth announced at once to everyone who can be reached, and at the
end it reaps some who are not avatars. `World.Evolves` says the first two, with the announcements and
the number of births, and `Simulation.tick_cases` says that a step is nothing else. Whatever is to be
proved of all steps is proved of these three sorts of things.

That the avatars are spared rests on how players and avatars belong together (`World.Bound`).
-/

namespace Skirmish

/-- A slot without what only the steering of its player looks at. -/
def Slot.standing (s : Slot) : Slot := { s with lastShot := none, pending := none }

namespace World

/-! ## Players -/

/-- The slots, without what only the steering looks at. -/
def roll (w : World) : SortedMap UInt8 Slot := w.players.map fun _ s => s.standing

theorem get?_roll (w : World) (q : UInt8) : w.roll.get? q = (w.players.get? q).map Slot.standing :=
  SortedMap.get?_map _ _ _

theorem endpoints_eq (w : World) : w.endpoints = w.roll.values.filterMap Slot.endpoint := by
  simp only [endpoints, roll, SortedMap.values, SortedMap.map, List.map_map, List.filterMap_map]
  rfl

theorem endpoints_congr {w w' : World} (h : w'.roll = w.roll) : w'.endpoints = w.endpoints := by
  rw [endpoints_eq, h, endpoints_eq]

theorem endpoints_summon (w : World) (parts : List Part) :
    (w.summon parts).2.endpoints = w.endpoints := by
  rw [endpoints, players_summon, endpoints]

/-- The same player has a slot in both, with the same name, entity and endpoint. -/
theorem slot_of_roll {w w' : World} (h : w'.roll = w.roll) {q : UInt8} {slot' : Slot}
    (hq : w'.players.get? q = some slot') :
    ∃ slot, w.players.get? q = some slot ∧ slot'.username = slot.username ∧
      slot'.entity = slot.entity ∧ slot'.endpoint = slot.endpoint := by
  have hg := w.get?_roll q
  rw [← h, get?_roll, hq, Option.map_some] at hg
  obtain ⟨slot, hslot, hst⟩ := Option.map_eq_some_iff.mp hg.symm
  have hst := Slot.mk.inj hst
  exact ⟨slot, hslot, hst.1.symm, hst.2.1.symm, hst.2.2.1.symm⟩

theorem roll_modifySlot (w : World) (id : UInt8) {f : Slot → Slot}
    (hf : ∀ s, (f s).standing = s.standing) : (w.modifySlot id f).roll = w.roll := by
  refine SortedMap.ext_get? fun q => ?_
  rw [get?_roll, get?_roll]
  show ((w.players.modify id f).get? q).map Slot.standing = _
  rw [SortedMap.get?_modify]
  split
  · rw [Option.map_map]
    congr 1
    exact funext hf
  · rfl

/-! ## Players who can be reached -/

/-- The players who can be reached, ascending, each with the endpoint. -/
def addresses (w : World) : List (UInt8 × Endpoint) :=
  w.players.toList.filterMap fun (q, slot) => slot.endpoint.map fun e => (q, e)

theorem mem_addresses {w : World} {q : UInt8} {e : Endpoint} : (q, e) ∈ w.addresses ↔
    ∃ slot, w.players.get? q = some slot ∧ slot.endpoint = some e := by
  simp only [addresses, List.mem_filterMap, Prod.exists, SortedMap.get?_eq_some_iff]
  constructor
  · intro hex
    obtain ⟨q', slot, hmem, he⟩ := hex
    obtain ⟨e', hend, heq⟩ := Option.map_eq_some_iff.mp he
    obtain ⟨rfl, rfl⟩ := Prod.mk.inj heq
    exact ⟨slot, hmem, hend⟩
  · intro hex
    obtain ⟨slot, hmem, hend⟩ := hex
    exact ⟨q, slot, hmem, by rw [hend]; rfl⟩

/-- A player has one endpoint. -/
theorem eq_of_mem_addresses {w : World} {q : UInt8} {e e' : Endpoint} (h : (q, e) ∈ w.addresses)
    (h' : (q, e') ∈ w.addresses) : e = e' := by
  obtain ⟨slot, hslot, hend⟩ := mem_addresses.mp h
  obtain ⟨slot', hslot', hend'⟩ := mem_addresses.mp h'
  rw [hslot, Option.some.injEq] at hslot'
  rw [← hslot', hend, Option.some.injEq] at hend'
  exact hend'

theorem addresses_ascending (w : World) : w.addresses.Pairwise fun a b => a.1 < b.1 := by
  refine w.players.ascending.filterMap _ fun x y hlt a ha b hb => ?_
  obtain ⟨_, -, rfl⟩ := Option.map_eq_some_iff.mp ha
  obtain ⟨_, -, rfl⟩ := Option.map_eq_some_iff.mp hb
  exact UInt8.lt_iff_toNat_lt.mpr hlt

theorem endpoints_eq_addresses (w : World) : w.endpoints = w.addresses.map Prod.snd := by
  rw [endpoints, SortedMap.values, List.filterMap_map, addresses, List.map_filterMap]
  refine List.filterMap_congr fun x _ => ?_
  rw [Option.map_map]
  exact Option.map_id'.symm

theorem mem_endpoints_of_mem_addresses {w : World} {q : UInt8} {e : Endpoint}
    (h : (q, e) ∈ w.addresses) : e ∈ w.endpoints := by
  rw [endpoints_eq_addresses]
  exact List.mem_map_of_mem h

/-- **A broadcast goes to every player who can be reached**, in the order of the players. -/
theorem broadcast_endpoints (w : World) (p : Wire.Payload) :
    broadcast w.endpoints p = w.addresses.map fun a => ⟨a.2, p⟩ := by
  rw [broadcast, endpoints_eq_addresses, List.map_map]
  rfl

theorem addresses_eq (w : World) :
    w.addresses = w.roll.toList.filterMap fun (q, slot) => slot.endpoint.map fun e => (q, e) := by
  simp only [addresses, roll, SortedMap.map, List.filterMap_map]
  rfl

theorem addresses_congr {w w' : World} (h : w'.roll = w.roll) : w'.addresses = w.addresses := by
  rw [addresses_eq, h, addresses_eq]

/-- Without the slot of a player, the others can be reached as before. -/
theorem addresses_erase (w : World) (p : UInt8) :
    ({ w with players := w.players.erase p } : World).addresses =
      w.addresses.filter fun a => a.1 ≠ p := by
  show ((w.players.toList.filter fun x => x.1 ≠ p).filterMap _) = _
  rw [addresses, List.filterMap_filter, List.filter_filterMap]
  refine List.filterMap_congr fun x _ => ?_
  obtain ⟨q, slot⟩ := x
  dsimp only
  cases slot.endpoint with
  | none => simp
  | some e => by_cases hq : q = p <;> simp [Option.filter, hq]

/-! ## Players and avatars -/

/-- Players and avatars belong together: every slot points to an avatar of its player, and every
avatar is the one that the slot of its owner points to. A vacant slot is left out. -/
structure Bound (w : World) (vacant : Option UInt8) : Prop where
  of_slot : ∀ {q slot}, w.players.get? q = some slot → vacant ≠ some q →
    ∃ h, slot.entity = some h ∧ w.registry.get? .kind h = some .player ∧
      w.registry.get? .owner h = some q
  of_avatar : ∀ {h}, w.registry.get? .kind h = some .player →
    ∃ q slot, w.registry.get? .owner h = some q ∧ vacant ≠ some q ∧
      w.players.get? q = some slot ∧ slot.entity = some h

/-! ## Changes in place -/

/-- Nobody comes or goes, and everyone is still who they were. -/
structure Quiet (w w' : World) : Prop where
  kept : w.registry.Kept w'.registry
  nextNetworkId : w'.nextNetworkId = w.nextNetworkId
  roll : w'.roll = w.roll

theorem Quiet.refl (w : World) : w.Quiet w := ⟨.refl _, rfl, rfl⟩

theorem Quiet.trans {w w' w'' : World} (h : w.Quiet w') (h' : w'.Quiet w'') : w.Quiet w'' :=
  ⟨h.kept.trans h'.kept, h'.nextNetworkId.trans h.nextNetworkId, h'.roll.trans h.roll⟩

/-- Only the registry is touched. -/
theorem quiet_of_kept {w : World} {r : Registry ComponentType.Value} (h : w.registry.Kept r) :
    w.Quiet { w with registry := r } := ⟨h, rfl, rfl⟩

theorem quiet_modifySlot (w : World) (id : UInt8) {f : Slot → Slot}
    (hf : ∀ s, (f s).standing = s.standing) : w.Quiet (w.modifySlot id f) :=
  ⟨.refl _, rfl, w.roll_modifySlot id hf⟩

/-- Who belongs to whom is a matter of the entities in the slots and of who the entities are. -/
theorem Bound.of_kept {w w' : World} {vacant : Option UInt8} (hb : w.Bound vacant)
    (hk : w.registry.Kept w'.registry)
    (hent : ∀ q, (w'.players.get? q).map Slot.entity = (w.players.get? q).map Slot.entity) :
    w'.Bound vacant := by
  constructor
  · intro q slot' hslot' hv
    have hq := hent q
    rw [hslot', Option.map_some] at hq
    obtain ⟨slot, hslot, hsame⟩ := Option.map_eq_some_iff.mp hq.symm
    obtain ⟨h, he, hkind, howner⟩ := hb.of_slot hslot hv
    exact ⟨h, hsame ▸ he, by rw [hk.kind, hkind], by rw [hk.owner, howner]⟩
  · intro h hkind
    rw [hk.kind] at hkind
    obtain ⟨q, slot, howner, hv, hslot, he⟩ := hb.of_avatar hkind
    have hq := hent q
    rw [hslot, Option.map_some] at hq
    obtain ⟨slot', hslot', hsame⟩ := Option.map_eq_some_iff.mp hq
    exact ⟨q, slot', by rw [hk.owner, howner], hv, hslot', hsame.trans he⟩

theorem Bound.of_quiet {w w' : World} {vacant : Option UInt8} (hb : w.Bound vacant)
    (hq : w.Quiet w') : w'.Bound vacant := by
  have hent : ∀ v : World, ∀ q,
      (v.players.get? q).map Slot.entity = (v.roll.get? q).map Slot.entity := by
    intro v q
    rw [get?_roll, Option.map_map]
    rfl
  exact hb.of_kept hq.kept fun q => by rw [hent, hq.roll, hent]

theorem Bound.modifySlot {w : World} {vacant : Option UInt8} (hb : w.Bound vacant) (id : UInt8)
    {f : Slot → Slot} (hf : ∀ s, (f s).entity = s.entity) : (w.modifySlot id f).Bound vacant := by
  refine hb.of_kept (.refl _) fun q => ?_
  show ((w.players.modify id f).get? q).map Slot.entity = _
  rw [SortedMap.get?_modify]
  split
  · rw [Option.map_map]
    congr 1
    exact funext hf
  · rfl

/-! ## Births and changes, one after the other -/

/-- What everyone is told of an entity. -/
def announce (w : World) (h : Handle) : List Dispatch :=
  match w.spawnMessage? h with
  | some message => broadcast w.endpoints (.spawn message)
  | none => []

/-- A world turns into another by changes in place and births that are announced. No avatar is
born. The number is that of the births. -/
inductive Evolves : World → List Dispatch → Nat → World → Prop
  | refl (w : World) : Evolves w [] 0 w
  | quiet {w w' w'' : World} {out : List Dispatch} {n : Nat} (h : Evolves w out n w')
      (hq : w'.Quiet w'') : Evolves w out n w''
  | birth {w w' : World} {out : List Dispatch} {n : Nat} {k : EntityKind} {parts : List Part}
      (h : Evolves w out n w') (hp : Complete k parts) (hk : k ≠ .player) :
      Evolves w (out ++ (w'.summon parts).2.announce w'.registry.spawn.1) (n + 1)
        (w'.summon parts).2

theorem Evolves.of_quiet {w w' : World} (h : w.Quiet w') : Evolves w [] 0 w' :=
  (Evolves.refl w).quiet h

theorem Evolves.trans {w w' w'' : World} {out out' : List Dispatch} {n n' : Nat}
    (h : Evolves w out n w') (h' : Evolves w' out' n' w'') :
    Evolves w (out ++ out') (n + n') w'' := by
  induction h' with
  | refl => simpa using h
  | quiet _ hq ih => exact ih.quiet hq
  | birth _ hp hk ih =>
    rw [← List.append_assoc, ← Nat.add_assoc]
    exact ih.birth hp hk

theorem Evolves.embodied {w w' : World} {out : List Dispatch} {n : Nat} (h : Evolves w out n w')
    (he : w.Embodied) : w'.Embodied := by
  induction h with
  | refl => exact he
  | quiet _ hq ih => exact ih.of_kept hq.kept
  | birth _ hp _ ih => exact ih.summon hp

theorem Evolves.roll {w w' : World} {out : List Dispatch} {n : Nat} (h : Evolves w out n w') :
    w'.roll = w.roll := by
  induction h with
  | refl => rfl
  | quiet _ hq ih => exact hq.roll.trans ih
  | birth _ _ _ ih => exact ih

/-- Somebody who is no avatar is born. -/
theorem Bound.summon {w : World} {vacant : Option UInt8} {k : EntityKind} {parts : List Part}
    (hb : w.Bound vacant) (he : w.Embodied) (hp : Complete k parts) (hk : k ≠ .player) :
    (w.summon parts).2.Bound vacant := by
  constructor
  · intro q slot hslot hv
    obtain ⟨h, hent, hkind, howner⟩ := hb.of_slot hslot hv
    exact ⟨h, hent, he.get?_summon_of_some hkind, he.get?_summon_of_some howner⟩
  · intro h hkind
    -- an avatar is not the one who was born, so it was there before
    rcases get?_summon_cases hkind with rfl | ⟨-, hkind'⟩
    · rw [he.get?_newborn, hp.kind, Option.some.injEq] at hkind
      exact absurd hkind hk
    · obtain ⟨q, slot, howner, hv, hslot, hent⟩ := hb.of_avatar hkind'
      exact ⟨q, slot, he.get?_summon_of_some howner, hv, hslot, hent⟩

theorem Evolves.bound {w w' : World} {out : List Dispatch} {n : Nat} {vacant : Option UInt8}
    (h : Evolves w out n w') (he : w.Embodied) (hb : w.Bound vacant) : w'.Bound vacant := by
  induction h with
  | refl => exact hb
  | quiet _ hq ih => exact ih.of_quiet hq
  | birth h hp hk ih => exact ih.summon (h.embodied he) hp hk

/-- Ids are handed out one after the other, as long as there are any. -/
theorem Evolves.numbered {w w' : World} {out : List Dispatch} {n : Nat} (h : Evolves w out n w')
    (he : w.Embodied) (hn : w.Numbered) (hpos : 0 < w.nextNetworkId.toNat)
    (hroom : w.nextNetworkId.toNat + n ≤ 0xffffffff) :
    w'.Numbered ∧ w'.nextNetworkId.toNat = w.nextNetworkId.toNat + n := by
  induction h with
  | refl => exact ⟨hn, rfl⟩
  | quiet _ hq ih =>
    obtain ⟨hn', hnext⟩ := ih hroom
    exact ⟨hn'.of_kept hq.kept hq.nextNetworkId, by rw [hq.nextNetworkId, hnext]⟩
  | birth h hp _ ih =>
    obtain ⟨hn', hnext⟩ := ih (by omega)
    refine ⟨hn'.summon (h.embodied he) hp (by omega) (by omega), ?_⟩
    rw [nextNetworkId_summon, toNat_followingId (by omega)]
    omega

end World

end Skirmish
