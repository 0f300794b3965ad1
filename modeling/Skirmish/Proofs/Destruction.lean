import Skirmish.Proofs.Recipients
import Skirmish.Proofs.PendingInput
/-!
# What reaping destroys

Whoever is condemned may have been condemned twice, may be dead already, or may never have lived.
Reaping takes those who are alive, each once, in the order of their handles, and touches nobody else
(`Simulation.DestroysQueued`). It says so in any world, in order or not: several slots may point to
one of the condemned, and the dead may still own something.

`World.reap` settles all of this at once. It comes to the same as destroying one after the other
(`World.reap_eq_destroyEach`), because the end of one changes neither where the news goes nor
anything about those who come later.
-/

namespace Skirmish

open Wire

namespace World

variable {w : World}

/-! ## One after the other -/

/-- The world without some entities. The slots that pointed to them point to nothing. -/
def without (w : World) (gone : List Handle) : World :=
  { w with
    registry := w.registry.destroyAll gone
    players := w.players.map fun _ => releasedFrom gone }

/-- The news that an entity is gone, to those at the endpoints. -/
def destroyNoticesTo (endpoints : List Endpoint) (w : World) (h : Handle) : List Dispatch :=
  match w.registry.get? .networkId h with
  | some networkId => broadcast endpoints (.destroy networkId)
  | none => []

theorem reap_eq (w : World) (condemned : HandleSet) : w.reap condemned =
    (w.without (w.reaped condemned),
      (w.reaped condemned).flatMap (w.destroyNoticesTo w.endpoints)) := rfl

theorem releasedFrom_nil : releasedFrom [] = id := by
  funext slot
  unfold releasedFrom
  split <;> simp

theorem releasedFrom_cons (h : Handle) (rest : List Handle) (slot : Slot) :
    releasedFrom rest (releasedFrom [h] slot) = releasedFrom (h :: rest) slot := by
  obtain ⟨_, entity, _, _, _⟩ := slot
  cases entity with
  | none => rfl
  | some k => by_cases hk : k = h <;> simp [releasedFrom, hk]

theorem isAlive_without (gone : List Handle) (h : Handle) :
    (w.without gone).registry.isAlive h = if h ∈ gone then false else w.registry.isAlive h :=
  Registry.isAlive_destroyAll gone h

theorem get?_without (gone : List Handle) (c : ComponentType) (h : Handle) :
    (w.without gone).registry.get? c h =
      if h ∈ gone ∧ w.registry.isAlive h = true then none else w.registry.get? c h :=
  Registry.get?_destroyAll gone c h

theorem get?_players_without (gone : List Handle) (q : UInt8) :
    (w.without gone).players.get? q = (w.players.get? q).map (releasedFrom gone) :=
  SortedMap.get?_map _ _ _

theorem without_nil (w : World) : w.without [] = w := by
  refine eq_of_slots rfl rfl fun q => ?_
  rw [get?_players_without, releasedFrom_nil, Option.map_id]
  rfl

theorem without_cons (w : World) (h : Handle) (rest : List Handle) :
    (w.without [h]).without rest = w.without (h :: rest) := by
  refine eq_of_slots rfl rfl fun q => ?_
  rw [get?_players_without, get?_players_without, get?_players_without, Option.map_map]
  exact congrArg (fun f => (w.players.get? q).map f) (funext (releasedFrom_cons h rest))

/-! ### One after the other -/

/-- One of the condemned, unless dead already, is let go by the slots and destroyed, and those at the
endpoints are told. -/
def destroyOne (endpoints : List Endpoint) (w : World) (h : Handle) : World × List Dispatch :=
  if w.registry.isAlive h then (w.without [h], w.destroyNoticesTo endpoints h) else (w, [])

/-- The condemned are destroyed one after the other. -/
def destroyEach (endpoints : List Endpoint) : World → List Handle → World × List Dispatch
  | w, [] => (w, [])
  | w, h :: rest =>
    let (next, said) := w.destroyOne endpoints h
    let (last, said') := next.destroyEach endpoints rest
    (last, said ++ said')

/-- The end of one is nothing to those who come later. -/
theorem destroyed_later {h : Handle} {rest : List Handle} (hh : h ∉ rest) :
    rest.filter (w.without [h]).registry.isAlive = rest.filter w.registry.isAlive ∧
      ∀ endpoints, ∀ k ∈ rest,
        (w.without [h]).destroyNoticesTo endpoints k = w.destroyNoticesTo endpoints k := by
  have hne : ∀ k ∈ rest, k ∉ [h] := fun k hk heq => hh (List.mem_singleton.mp heq ▸ hk)
  constructor
  · exact List.filter_congr fun k hk => by rw [isAlive_without, if_neg (hne k hk)]
  · intro endpoints k hk
    rw [destroyNoticesTo, get?_without, if_neg fun hand => hne k hk hand.1, destroyNoticesTo]

/-- Destroying one after the other leaves the world without those who were alive, and each of them
is announced once. -/
theorem destroyEach_eq (endpoints : List Endpoint) {condemned : List Handle}
    (hnd : condemned.Nodup) :
    ∀ w : World, w.destroyEach endpoints condemned =
      (w.without (condemned.filter w.registry.isAlive),
        (condemned.filter w.registry.isAlive).flatMap (w.destroyNoticesTo endpoints)) := by
  -- on the list, for any world, since the rest is destroyed in a world without the first one
  induction condemned with
  | nil => exact fun w => congrArg (·, []) w.without_nil.symm
  | cons h rest ih =>
    intro w
    obtain ⟨hh, hrest⟩ := List.nodup_cons.mp hnd
    cases ha : w.registry.isAlive h with
    | true =>
      -- the first end changes neither who else is alive nor where the news goes
      obtain ⟨hlater, hnews⟩ := destroyed_later (w := w) hh
      have hsame :
          (rest.filter w.registry.isAlive).flatMap ((w.without [h]).destroyNoticesTo endpoints) =
          (rest.filter w.registry.isAlive).flatMap (w.destroyNoticesTo endpoints) :=
        List.flatMap_congr fun k hk => hnews endpoints k (List.mem_filter.mp hk).1
      simp only [destroyEach, destroyOne, ha, if_true, ih hrest, hlater, hsame, without_cons,
        List.filter_cons_of_pos, List.flatMap_cons]
    | false =>
      -- whoever is dead already is passed over, on both sides
      simp only [destroyEach, destroyOne, ha, Bool.false_eq_true, if_false, ih hrest,
        not_false_eq_true, List.filter_cons_of_neg, List.nil_append]

/-- **Reaping destroys one after the other**, in the order of the handles. The endpoints are those
of the players before the first of them. -/
theorem reap_eq_destroyEach (w : World) (condemned : HandleSet) :
    w.reap condemned = w.destroyEach w.endpoints condemned.toList :=
  (destroyEach_eq w.endpoints condemned.members.keys_nodup w).symm

/-! ## What is said -/

/-- Those who had a network id are announced to whoever can be reached. -/
theorem flatMap_destroyNoticesTo (w : World) (gone : List Handle) :
    gone.flatMap (w.destroyNoticesTo w.endpoints) =
      (gone.filterMap fun h => w.registry.get? .networkId h).flatMap fun n =>
        w.addresses.map fun a => ⟨a.2, .destroy n⟩ := by
  induction gone with
  | nil => rfl
  | cons h rest ih =>
    rw [List.flatMap_cons, ih, destroyNoticesTo]
    cases hid : w.registry.get? .networkId h with
    | none => rw [List.filterMap_cons_none hid, List.nil_append]
    | some n =>
      rw [List.filterMap_cons_some hid, List.flatMap_cons]
      exact congrArg (· ++ _) (w.broadcast_endpoints (.destroy n))

end World

/-! ## The queue of the condemned -/

namespace Simulation

open World

/-- What becomes of a simulation when those in a queue are reaped, and who is gone. -/
structure DestroysQueued (s : Simulation) (queue gone : List Handle) (s' : Simulation) : Prop where
  /-- Gone are those in the queue who were alive, each once. -/
  mem_gone : ∀ h, h ∈ gone ↔ h ∈ queue ∧ s.world.registry.isAlive h = true
  ascending : gone.Pairwise fun h k => h.index < k.index
  /-- The queue is empty. -/
  nobody_condemned : s'.condemned = ∅
  /-- They are dead and have lost everything. -/
  dead : ∀ h ∈ gone, s'.world.registry.isAlive h = false ∧ ∀ c, s'.world.registry.get? c h = none
  /-- Everyone else is as before. -/
  others : ∀ h, h ∉ gone → s'.world.registry.isAlive h = s.world.registry.isAlive h ∧
    ∀ c, s'.world.registry.get? c h = s.world.registry.get? c h
  /-- The slots let go of whoever is gone, and of nothing else. -/
  unbound : ∀ q slot h, s.world.players.get? q = some slot → slot.entity = some h → h ∈ gone →
    s'.world.players.get? q = some { slot with entity := none }
  bound : ∀ q slot, s.world.players.get? q = some slot → (∀ h ∈ gone, slot.entity ≠ some h) →
    s'.world.players.get? q = some slot
  slots : ∀ q, s'.world.players.get? q = none ↔ s.world.players.get? q = none
  nextNetworkId : s'.world.nextNetworkId = s.world.nextNetworkId
  /-- Whoever can be reached is told of each who had a network id, in the order of the players. -/
  outbox : s'.outbox = s.outbox ++
    (gone.filterMap fun h => s.world.registry.get? .networkId h).flatMap fun n =>
      s.world.addresses.map fun a => ⟨a.2, .destroy n⟩
  players_ascending : s.world.addresses.Pairwise fun a b => a.1 < b.1
  /-- Nothing else has changed. -/
  rest : s' = { s with world := s'.world, condemned := s'.condemned, outbox := s'.outbox }
  /-- To do it again makes no difference. -/
  again : s'.reap = s'

/-- When nobody is condemned, nobody is reaped. -/
theorem reap_of_nobody {s : Simulation} (hc : s.condemned = ∅) : s.reap = s := by
  have hnone : s.world.reap ∅ = (s.world, []) := by
    rw [reap_eq_destroyEach]
    rfl
  simp only [reap, hc, hnone, say, List.append_nil]
  rw [← hc]

theorem releasedFrom_of_mem {gone : List Handle} {slot : Slot} {h : Handle}
    (hent : slot.entity = some h) (hh : h ∈ gone) :
    releasedFrom gone slot = { slot with entity := none } := by
  rw [releasedFrom, hent]
  exact if_pos hh

theorem releasedFrom_of_not_mem {gone : List Handle} {slot : Slot}
    (hent : ∀ h ∈ gone, slot.entity ≠ some h) : releasedFrom gone slot = slot := by
  unfold releasedFrom
  split
  · rename_i h hh
    exact if_neg fun hm => hent h hm hh
  · rfl

/-- **The condemned are destroyed, and nobody else.** Whatever the world is like and whoever is in
the queue, in whatever order and however often. -/
theorem reap_destroysQueued (s : Simulation) (queue : List Handle) :
    ∃ gone, DestroysQueued s queue gone ({ s with condemned := ∅ }.condemn queue).reap := by
  let condemned : HandleSet := (∅ : HandleSet).insertAll queue
  -- a queue with repetitions condemns everybody in it once
  have hmem : ∀ h, h ∈ s.world.reaped condemned ↔
      h ∈ queue ∧ s.world.registry.isAlive h = true := by
    intro h
    rw [mem_reaped, HandleSet.mem_insertAll]
    simp
  have hreap : ({ s with condemned := ∅ }.condemn queue).reap =
      { s with
        world := s.world.without (s.world.reaped condemned)
        condemned := ∅
        outbox := s.outbox ++ (s.world.reap condemned).2 } := rfl
  refine ⟨s.world.reaped condemned, ?_⟩
  rw [hreap]
  exact {
    mem_gone := hmem
    ascending := condemned.toList_ascending.filter _
    nobody_condemned := rfl
    dead := fun h hh => by
      refine ⟨by rw [isAlive_without, if_pos hh], fun c => ?_⟩
      rw [get?_without, if_pos ⟨hh, ((hmem h).mp hh).2⟩]
    others := fun h hh => by
      refine ⟨by rw [isAlive_without, if_neg hh], fun c => ?_⟩
      rw [get?_without, if_neg fun hand => hh hand.1]
    unbound := fun q slot h hslot hent hh => by
      rw [get?_players_without, hslot, Option.map_some, releasedFrom_of_mem hent hh]
    bound := fun q slot hslot hent => by
      rw [get?_players_without, hslot, Option.map_some, releasedFrom_of_not_mem hent]
    slots := fun q => by rw [get?_players_without, Option.map_eq_none_iff]
    nextNetworkId := rfl
    outbox := by rw [reap_eq, flatMap_destroyNoticesTo]
    players_ascending := s.world.addresses_ascending
    rest := rfl
    again := reap_of_nobody rfl }

end Simulation

end Skirmish
