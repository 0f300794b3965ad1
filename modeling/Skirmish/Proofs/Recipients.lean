import Mathlib.Data.List.Forall2
import Skirmish.Proofs.Targeting
import Skirmish.Proofs.Mirror
/-!
# Who is told, and in which order

Whatever everyone is told goes to the players who can be reached, ascending by player
(`World.addresses`), and where their endpoints differ it comes to each of them once. Whatever is
told of several entities is told ascending by network id (`World.registered`): never descending in
any world, and strictly ascending where network ids tell entities apart. No handle is in either
order, so it makes no difference which of them are used again.
-/

namespace Skirmish

open Wire

/-! ## Lists side by side -/

/-- Everything is turned into something that it is related to. -/
theorem forall₂_filterMap {α β : Type} {R : α → β → Prop} {f : α → Option β} {as : List α}
    (h : ∀ a ∈ as, ∃ b, f a = some b ∧ R a b) : List.Forall₂ R as (as.filterMap f) := by
  induction as with
  | nil => exact .nil
  | cons a rest ih =>
    obtain ⟨b, hb, hab⟩ := h a List.mem_cons_self
    rw [List.filterMap_cons_some hb]
    exact .cons hab (ih fun a' ha' => h a' (List.mem_cons_of_mem _ ha'))

namespace World

variable {w : World}

/-! ## A broadcast -/

/-- Where no two players have the same endpoint, a broadcast comes to each of them once. -/
theorem reaches_of_nodup (hnd : w.endpoints.Nodup) {e : Endpoint} (he : e ∈ w.endpoints) :
    w.Reaches e := by
  rw [Reaches, List.filter_eq, List.count_eq_one_of_mem hnd he]
  rfl

/-! ## Entities that have a network id -/

/-- The entities that have a network id, ascending by it. -/
def registered (w : World) : List Handle := w.networked.map Prod.snd

theorem idOf_of_mem_networked {x : UInt32 × Handle} (hx : x ∈ w.networked) : w.idOf x.2 = x.1 := by
  rw [idOf, mem_networked.mp hx, Option.getD_some]

theorem mem_registered {h : Handle} :
    h ∈ w.registered ↔ (w.registry.get? .networkId h).isSome := by
  rw [registered, List.mem_map, Option.isSome_iff_exists]
  constructor
  · intro hex
    obtain ⟨x, hx, rfl⟩ := hex
    exact ⟨x.1, mem_networked.mp hx⟩
  · intro hex
    obtain ⟨n, hn⟩ := hex
    exact ⟨(n, h), mem_networked.mpr hn, rfl⟩

theorem registered_nodup (w : World) : w.registered.Nodup := by
  show (List.map Prod.snd (List.mergeSort _ _)).Nodup
  rw [((List.mergeSort_perm _ _).map Prod.snd).nodup_iff, List.map_map]
  refine List.pairwise_map.mpr ((Column.entries_ascending _).imp fun {a b} hlt heq => ?_)
  rw [show a.1 = b.1 from heq] at hlt
  exact Nat.lt_irrefl _ hlt

theorem registered_sorted (w : World) : w.registered.Pairwise fun h k => w.idOf h ≤ w.idOf k := by
  refine List.pairwise_map.mpr ?_
  refine (sorted_mergeSort Prod.fst _).imp_of_mem fun {a b} ha hb hle => ?_
  rw [idOf_of_mem_networked ha, idOf_of_mem_networked hb]
  exact hle

/-- No two have the same network id. -/
theorem Distinct.registered_ascending (hd : w.Distinct) :
    w.registered.Pairwise fun h k => w.idOf h < w.idOf k := by
  refine (w.registered_sorted.and w.registered_nodup).imp_of_mem fun {h k} hh hk hlt => ?_
  refine UInt32.lt_of_le_of_ne hlt.1 fun heq => hlt.2 ?_
  obtain ⟨n, hn⟩ := Option.isSome_iff_exists.mp (mem_registered.mp hh)
  obtain ⟨m, hm⟩ := Option.isSome_iff_exists.mp (mem_registered.mp hk)
  rw [idOf, idOf, hn, hm] at heq
  exact hd h k n hn (by rw [hm]; exact congrArg some heq.symm)

theorem Embodied.mem_registered (he : w.Embodied) {h : Handle} :
    h ∈ w.registered ↔ w.registry.isAlive h = true :=
  World.mem_registered.trans he.isSome_networkId_iff

theorem Numbered.distinct (hn : w.Numbered) : w.Distinct := fun _ _ _ => hn.inj

end World

/-! ## What comes to an endpoint -/

theorem bytesFor_eq (endpoint : Endpoint) (said : List Dispatch) : bytesFor endpoint said =
    (said.filter fun d => d.recipient = endpoint).map fun d => d.packet.encode := by
  rw [bytesFor, List.filter_map, List.map_map]
  rfl

theorem bytesFor_append (endpoint : Endpoint) (said said' : List Dispatch) :
    bytesFor endpoint (said ++ said') = bytesFor endpoint said ++ bytesFor endpoint said' := by
  simp only [bytesFor_eq, List.filter_append, List.map_append]

/-- A broadcast comes once. -/
theorem World.Reaches.bytesFor_broadcast {w : World} {endpoint : Endpoint}
    (h : w.Reaches endpoint) (payload : Payload) :
    bytesFor endpoint (broadcast w.endpoints payload) =
      [Packet.encode ⟨serverToken, payload⟩] := by
  rw [bytesFor_eq, h.filter_broadcast]
  rfl

end Skirmish
