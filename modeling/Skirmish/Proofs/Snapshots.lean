import Skirmish.Proofs.Recipients
/-!
# What a snapshot shows

A snapshot shows everyone the same, and it shows everything: one entry for each entity that can be
seen, in the order of the network ids, cut into batches of ten (`World.ShowsWorld`). None of the
batches is empty and only the last may have room left (`Wire.Batch.Packs`), so nothing is lost or
doubled where one batch ends and the next begins.
-/

namespace Skirmish

open Wire

/-! ## Batches -/

namespace Wire.Batch

/-- Batches hold these entries in order. There is something in each of them, and ten entries are in each but
perhaps the last. -/
structure Packs (batches : List Batch) (entries : List Entry) : Prop where
  whole : batches.flatMap Batch.entries = entries
  inhabited : ∀ b ∈ batches, b.entries ≠ []
  full : ∀ b ∈ batches.dropLast, b.entries.length = 10

theorem packs_nil : Packs [] [] := ⟨rfl, by simp, by simp⟩

/-- A batch in front of others. It is full if there are any. -/
theorem Packs.cons {batches : List Batch} {entries : List Entry} (h : Packs batches entries)
    {b : Batch} (hb : b.entries ≠ []) (hfull : entries ≠ [] → b.entries.length = 10) :
    Packs (b :: batches) (b.entries ++ entries) where
  whole := by rw [List.flatMap_cons, h.whole]
  inhabited := List.forall_mem_cons.mpr ⟨hb, h.inhabited⟩
  full := by
    cases batches with
    | nil => simp
    | cons b' rest =>
      have hne : entries ≠ [] := by
        rw [← h.whole, List.flatMap_cons]
        exact List.append_ne_nil_of_left_ne_nil (h.inhabited b' List.mem_cons_self) _
      rw [List.dropLast_cons_of_ne_nil (List.cons_ne_nil b' rest)]
      exact List.forall_mem_cons.mpr ⟨hfull hne, h.full⟩

theorem packs_chunks (entries : List Entry) : Packs (chunks entries) entries := by
  induction entries using induction_chunks with
  | nil => exact packs_nil
  | step entries hne ih =>
    have hpos : 0 < entries.length := List.length_pos_iff.mpr hne
    have htake : entries.take maxEntries ≠ [] := by
      rw [← List.length_pos_iff, List.length_take, maxEntries]
      omega
    -- there are others only if more than ten entries are left
    have hfull : entries.drop maxEntries ≠ [] → (entries.take maxEntries).length = 10 := by
      rw [← List.length_pos_iff, List.length_drop, List.length_take, maxEntries]
      omega
    have hcons := ih.cons (b := ⟨entries.take maxEntries, List.length_take_le _ _⟩) htake hfull
    rw [chunks_of_ne_nil hne]
    rwa [List.take_append_drop] at hcons

theorem Packs.eq_nil_iff {batches : List Batch} {entries : List Entry} (h : Packs batches entries) :
    batches = [] ↔ entries = [] := by
  constructor
  · rintro rfl
    exact h.whole.symm
  · intro hnil
    rw [← h.whole, List.flatMap_eq_nil_iff] at hnil
    exact List.eq_nil_iff_forall_not_mem.mpr fun b hb => h.inhabited b hb (hnil b hb)

end Wire.Batch

namespace World

variable {w : World}

/-! ## Entries -/

/-- An entry says where an entity is, and how well. -/
structure Locates (w : World) (h : Handle) (x : Entry) : Prop where
  networkId : w.registry.get? .networkId h = some x.networkId
  position : w.registry.get? .position h = some x.position
  health : x.health = ((w.registry.get? .health h).map Health.current).getD 100

/-- The entities that can be seen, in the order of their network ids. -/
def seen (w : World) : List Handle :=
  w.registered.filter fun h => w.registry.has .drawable h && w.registry.has .position h

theorem mem_seen {h : Handle} : h ∈ w.seen ↔ (w.registry.get? .networkId h).isSome ∧
    (w.registry.get? .position h).isSome ∧ (w.registry.get? .drawable h).isSome := by
  rw [seen, List.mem_filter, mem_registered, Bool.and_eq_true]
  exact and_congr_right' and_comm

/-- There is an entry for each of them. -/
theorem batchEntries_eq (w : World) : w.batchEntries = w.seen.filterMap fun h =>
    (w.registry.get? .position h).map fun position => ⟨w.idOf h, position, w.reportedHealth h⟩ := by
  rw [seen, registered, List.filter_map, List.filterMap_map, List.filterMap_filter, batchEntries]
  refine List.filterMap_congr fun x hx => ?_
  obtain ⟨n, h⟩ := x
  have hid : w.idOf h = n := idOf_of_mem_networked hx
  cases hdraw : w.registry.has .drawable h with
  | false => simp [hdraw]
  | true =>
    cases hpos : w.registry.get? .position h <;> simp [Registry.has, hpos, hid]

theorem batchEntries_locate (w : World) : List.Forall₂ w.Locates w.seen w.batchEntries := by
  rw [batchEntries_eq]
  refine forall₂_filterMap fun h hh => ?_
  obtain ⟨hid, hpos, -⟩ := mem_seen.mp hh
  obtain ⟨n, hn⟩ := Option.isSome_iff_exists.mp hid
  obtain ⟨position, hposition⟩ := Option.isSome_iff_exists.mp hpos
  refine ⟨⟨w.idOf h, position, w.reportedHealth h⟩, by rw [hposition]; rfl, ?_, hposition, rfl⟩
  rw [idOf, hn]
  rfl

/-- Whatever order the network ids of entities are in, the entries are in it. -/
theorem pairwise_batchEntries {R : UInt32 → UInt32 → Prop}
    (h : w.registered.Pairwise fun h k => R (w.idOf h) (w.idOf k)) :
    w.batchEntries.Pairwise fun x y => R x.networkId y.networkId := by
  rw [batchEntries_eq]
  refine (h.filter _).filterMap _ fun h k hR x hx y hy => ?_
  obtain ⟨_, -, rfl⟩ := Option.map_eq_some_iff.mp hx
  obtain ⟨_, -, rfl⟩ := Option.map_eq_some_iff.mp hy
  exact hR

/-! ## Snapshots -/

/-- Several messages to everyone are sent, and all of them come. -/
theorem Reaches.bytesFor_broadcasts {endpoint : Endpoint} (hr : w.Reaches endpoint)
    (batches : List Batch) :
    bytesFor endpoint (batches.flatMap fun b => broadcast w.endpoints (.batch b)) =
      batches.map fun b => Packet.encode ⟨serverToken, .batch b⟩ := by
  induction batches with
  | nil => rfl
  | cons b rest ih =>
    rw [List.flatMap_cons, bytesFor_append, hr.bytesFor_broadcast, ih]
    rfl

/-- Nothing is said if nobody can be reached, or if there is nothing to be said. -/
theorem broadcasts_eq_nil_iff (endpoints : List Endpoint) (batches : List Batch) :
    (batches.flatMap fun b => broadcast endpoints (.batch b)) = [] ↔
      endpoints = [] ∨ batches = [] := by
  rw [List.flatMap_eq_nil_iff]
  constructor
  · intro hnone
    cases batches with
    | nil => exact .inr rfl
    | cons b rest => exact .inl (List.map_eq_nil_iff.mp (hnone b List.mem_cons_self))
  · rintro (rfl | rfl)
    · exact fun _ _ => rfl
    · simp

/-- What is said shows a world to everyone who can be reached, batch by batch: these are the entities that
are seen, and these are the batches. -/
structure ShowsWorld (w : World) (seen : List Handle) (batches : List Batch) (said : List Dispatch) :
    Prop where
  mem_seen : ∀ h, h ∈ seen ↔ w.registry.isAlive h = true ∧
    (w.registry.get? .networkId h).isSome ∧ (w.registry.get? .position h).isSome ∧
    (w.registry.get? .drawable h).isSome
  nodup : seen.Nodup
  /-- One entry for each of them, and in it what is so. -/
  located : List.Forall₂ w.Locates seen (batches.flatMap Batch.entries)
  sorted : (batches.flatMap Batch.entries).Pairwise fun x y => x.networkId ≤ y.networkId
  inhabited : ∀ b ∈ batches, b.entries ≠ []
  full : ∀ b ∈ batches.dropLast, b.entries.length = 10
  /-- Whoever reads everything that comes has the batches, in order. -/
  heard : w.endpoints.Nodup → ∀ e ∈ w.endpoints,
    (bytesFor e said).map Packet.decode = batches.map fun b => .ok ⟨serverToken, .batch b⟩
  /-- The same bytes come to everyone. -/
  alike : w.endpoints.Nodup → ∀ e ∈ w.endpoints, ∀ e' ∈ w.endpoints,
    bytesFor e said = bytesFor e' said
  /-- Nobody else is told. -/
  recipients : ∀ d ∈ said, d.recipient ∈ w.endpoints
  silent_iff : said = [] ↔ w.endpoints = [] ∨ seen = []

/-- In a world where everyone with a component is alive, a snapshot shows everything. -/
theorem Embodied.showsWorld_snapshot (he : w.Embodied) :
    w.ShowsWorld w.seen (Batch.chunks w.batchEntries) w.snapshot := by
  -- the packing into batches is a matter of the list, and the list one of the entities in order
  have hpacks := Batch.packs_chunks w.batchEntries
  have hbytes : w.endpoints.Nodup → ∀ e ∈ w.endpoints, bytesFor e w.snapshot =
      (Batch.chunks w.batchEntries).map fun b => Packet.encode ⟨serverToken, .batch b⟩ :=
    fun hnd e hmem => (reaches_of_nodup hnd hmem).bytesFor_broadcasts _
  have hlocated := w.batchEntries_locate
  exact {
    mem_seen := fun h => by
      rw [World.mem_seen]
      exact ⟨fun hh => ⟨he.isSome_networkId_iff.mp hh.1, hh⟩, And.right⟩
    nodup := w.registered_nodup.filter _
    located := by rw [hpacks.whole]; exact hlocated
    sorted := by rw [hpacks.whole]; exact pairwise_batchEntries w.registered_sorted
    inhabited := hpacks.inhabited
    full := hpacks.full
    heard := fun hnd e hmem => by
      rw [hbytes hnd e hmem, List.map_map]
      exact List.map_congr_left fun b _ => Packet.decode_encode_arrived ⟨serverToken, .batch b⟩
    -- everybody hears the same bytes, since a broadcast comes to each endpoint once
    alike := fun hnd e hmem e' hmem' => by rw [hbytes hnd e hmem, hbytes hnd e' hmem']
    recipients := fun d hd => by
      obtain ⟨b, -, hd⟩ := List.mem_flatMap.mp hd
      obtain ⟨e, hmem, rfl⟩ := List.mem_map.mp hd
      exact hmem
    silent_iff := by
      rw [snapshot, broadcasts_eq_nil_iff, hpacks.eq_nil_iff, ← List.length_eq_zero_iff (l := w.seen),
        hlocated.length_eq, List.length_eq_zero_iff] }

end World

/-! ## Wherever a game gets to -/

namespace Simulation

open World

/-- **A snapshot is one complete and ordered picture of the world.** Wherever a new game gets to,
all that can be seen is in it, and nothing else; the network ids are in order, strictly so as long
as fewer than 2³² - 1 of them have been handed out. And no list of entries loses anything by being
cut into batches. -/
theorem run_showsWorld {settings : Settings} {entropy : Generator} {steps : List Step} {o : Outcome}
    (h : (start settings entropy).run steps = .ok o) :
    (∃ seen batches, o.simulation.world.ShowsWorld seen batches o.simulation.world.snapshot ∧
      (o.ids < 0xffffffff → (batches.flatMap Batch.entries).Pairwise fun x y =>
        x.networkId < y.networkId)) ∧
    ∀ entries, (Batch.chunks entries).flatMap Batch.entries = entries := by
  have hstart := sound_start settings entropy
  have he := (hstart.toSettled.run h).embodied
  refine ⟨⟨_, _, he.showsWorld_snapshot, fun hids => ?_⟩, Batch.entries_chunks⟩
  have hnumbered := (hstart.run (by omega) h).numbered
  rw [Batch.entries_chunks]
  exact pairwise_batchEntries hnumbered.distinct.registered_ascending

/-- Eleven players come, and two of them can be reached. -/
def elevenPlayers : List Step :=
  ((List.range 11).map fun i => .event (.connected (UInt8.ofNat (i + 1)) "ace")) ++
    [.event (.udpReady 4 ⟨.v4 (.replicate 4 10), 7004⟩),
      .event (.udpReady 9 ⟨.v4 (.replicate 4 10), 7009⟩)]

theorem run_showsWorld_of_elevenPlayers : ∃ o seen batches,
    (start .default (.ofSeed 0)).run elevenPlayers = .ok o ∧ o.ids < 0xffffffff ∧
    o.simulation.world.endpoints =
      [⟨.v4 (.replicate 4 10), 7004⟩, ⟨.v4 (.replicate 4 10), 7009⟩] ∧
    o.simulation.world.ShowsWorld seen batches o.simulation.world.snapshot ∧
    ((batches.flatMap Batch.entries).Pairwise fun x y => x.networkId < y.networkId) ∧
    (∀ i < 11, ⟨i⟩ ∈ seen) := by
  have hends : ((start .default (.ofSeed 0)).run elevenPlayers).toOption.any (fun o =>
      o.ids = 11 && o.simulation.world.endpoints =
        [⟨.v4 (.replicate 4 10), 7004⟩, ⟨.v4 (.replicate 4 10), 7009⟩] &&
      (List.range 11).all fun i => o.simulation.world.registry.isAlive ⟨i⟩ &&
        o.simulation.world.registry.has .networkId ⟨i⟩ &&
        o.simulation.world.registry.has .position ⟨i⟩ &&
        o.simulation.world.registry.has .drawable ⟨i⟩) = true := by decide +kernel
  obtain ⟨o, ho, hends⟩ := (Option.any_eq_true _ _).mp hends
  simp only [Bool.and_eq_true, decide_eq_true_eq, List.all_eq_true, List.mem_range] at hends
  obtain ⟨⟨hids, hendpoints⟩, hall⟩ := hends
  have hrun := eq_ok_of_toOption ho
  have hlt : o.ids < 0xffffffff := by omega
  obtain ⟨⟨seen, batches, hshowsWorld, hstrict⟩, -⟩ := run_showsWorld hrun
  refine ⟨o, seen, batches, hrun, hlt, hendpoints, hshowsWorld, hstrict hlt, fun i hi => ?_⟩
  obtain ⟨⟨⟨ha, hn⟩, hp⟩, hd⟩ := hall i hi
  exact (hshowsWorld.mem_seen ⟨i⟩).mpr ⟨ha, hn, hp, hd⟩

end Simulation

end Skirmish
