import Skirmish.Proofs.Hearing
import Skirmish.Proofs.Order
/-!
# What a replica shows of a world

`World.Shows` says that a replica shows certain entities of a world and no others, each as who it is.
Where they are is another matter (`World.IsCurrent`): only a snapshot tells that of everyone.

There is one lemma for each thing that the server says. An announcement adds an entity to those that
are shown (`Shows.apply_spawn`), the news of an end takes away those who are reaped (`Shows.reap`),
a snapshot brings positions and healths up to date (`isCurrent_snapshot`), and what is not said
leaves everything as it was (`Shows.of_same`).
-/

namespace Skirmish

open Wire

namespace World

/-! ## Who an entity is -/

/-- Who an entity is, as a client learns it from the announcement. -/
def identity? (w : World) (h : Handle) : Option (UInt32 × EntityKind × UInt8 × String) :=
  (w.spawnMessage? h).map fun s => (s.networkId, s.kind, s.owner, NameField.kept s.username)

theorem identity?_eq (w : World) (h : Handle) :
    w.identity? h = (w.registry.get? .networkId h).map fun n =>
      let kind := (w.registry.get? .kind h).getD .obstacle
      let owner := (w.registry.get? .owner h).getD serverOwner
      (n, kind, owner, NameField.kept
        (if kind = .player then ((w.players.get? owner).map Slot.username).getD "" else "")) := by
  rw [identity?, spawnMessage?, Option.map_map]
  rfl

/-- An entity is who it was if its identifying components are the same and, for an avatar, the
name of its player. -/
theorem identity?_congr {w w' : World} {h : Handle}
    (hn : w'.registry.get? .networkId h = w.registry.get? .networkId h)
    (hk : w'.registry.get? .kind h = w.registry.get? .kind h)
    (ho : w'.registry.get? .owner h = w.registry.get? .owner h)
    (hname : w.registry.get? .kind h = some .player → ∀ q,
      (w.registry.get? .owner h).getD serverOwner = q →
        (w'.players.get? q).map Slot.username = (w.players.get? q).map Slot.username) :
    w'.identity? h = w.identity? h := by
  rw [identity?_eq, identity?_eq, hn, hk, ho]
  cases hkind : w.registry.get? .kind h with
  | none => rfl
  | some k =>
    by_cases hp : k = .player
    · subst hp
      simp only [Option.getD_some, hname hkind _ rfl]
    · simp only [Option.getD_some, if_neg hp]

/-! ## Shown entities -/

/-- The replica has these entities of the world and no others, and they are who they are. -/
structure Shows (w : World) (shown : Handle → Prop) (m : Replica) : Prop where
  of_live : ∀ {h n}, w.registry.get? .networkId h = some n → shown h → (m.get? n).isSome
  of_seen : ∀ {n e}, m.get? n = some e → ∃ h, w.registry.get? .networkId h = some n ∧ shown h ∧
    w.identity? h = some e.identity

variable {w w' : World} {shown shown' : Handle → Prop} {m m' : Replica} {endpoint : Endpoint}

theorem shows_empty (w : World) : w.Shows (fun _ => False) .empty where
  of_live _ h := h.elim
  of_seen h := by cases h

/-- The same entities are shown, and nobody's identity has changed, neither in the world nor in the
replica. -/
theorem Shows.of_same (hs : w.Shows shown m)
    (hnew : ∀ {h n}, w'.registry.get? .networkId h = some n → shown' h →
      w.registry.get? .networkId h = some n ∧ shown h)
    (hold : ∀ {h n}, w.registry.get? .networkId h = some n → shown h →
      w'.registry.get? .networkId h = some n ∧ shown' h ∧ w'.identity? h = w.identity? h)
    (hm : ∀ n, (m'.get? n).map Sighting.identity = (m.get? n).map Sighting.identity) :
    w'.Shows shown' m' := by
  constructor
  · intro h n hn hsh
    obtain ⟨hn, hsh⟩ := hnew hn hsh
    have hsome := hs.of_live hn hsh
    rw [← Option.isSome_map (f := Sighting.identity), ← hm, Option.isSome_map] at hsome
    exact hsome
  · intro n e' he'
    have hmap := hm n
    rw [he', Option.map_some] at hmap
    obtain ⟨e, he, hident⟩ := Option.map_eq_some_iff.mp hmap.symm
    obtain ⟨h, hn, hsh, hid⟩ := hs.of_seen he
    obtain ⟨hn', hsh', hid'⟩ := hold hn hsh
    exact ⟨h, hn', hsh', by rw [hid', hid, hident]⟩

/-- An entity is announced. -/
theorem Shows.apply_spawn (hs : w.Shows shown m) {h : Handle} {s : Spawn}
    (hmsg : w.spawnMessage? h = some s) :
    w.Shows (fun k => shown k ∨ k = h) (m.apply (Payload.spawn s).arrived) := by
  -- the announcement is about the handle, so the entry it makes is the one under this id
  have hid : w.registry.get? .networkId h = some s.networkId := by
    obtain ⟨n, hn, rfl⟩ := Option.map_eq_some_iff.mp hmsg
    exact hn
  have hget : ∀ n, (m.apply (Payload.spawn s).arrived).get? n =
      if s.networkId = n then some (Replica.sighting { s with username := NameField.kept s.username })
      else m.get? n := fun n => Replica.get?_applySpawn _ _ n
  -- everybody who was shown still is, and the entity of the announcement is shown as well
  constructor
  · intro k n hk hsh
    rw [hget]
    split
    · rfl
    · rename_i hne
      rcases hsh with hsh | rfl
      · exact hs.of_live hk hsh
      · rw [hid, Option.some.injEq] at hk
        exact absurd hk hne
  · intro n e he
    rw [hget] at he
    split at he
    · rename_i hsn
      subst hsn
      obtain rfl := Option.some.inj he
      refine ⟨h, hid, .inr rfl, ?_⟩
      rw [identity?, hmsg]
      rfl
    · -- an entry under another id is there from before
      obtain ⟨k, hk, hsh, hident⟩ := hs.of_seen he
      exact ⟨k, hk, .inl hsh, hident⟩

/-- Whoever has a network id can be announced, and is shown afterwards. -/
theorem Shows.after_announce (hs : w.Shows shown m) (hr : w.Reaches endpoint) {h : Handle}
    {n : UInt32} (hid : w.registry.get? .networkId h = some n) :
    w.Shows (fun k => shown k ∨ k = h) (m.after endpoint (w.announce h)) := by
  have hsome : (w.spawnMessage? h).isSome := by
    rw [spawnMessage?, hid]
    rfl
  obtain ⟨s, hmsg⟩ := Option.isSome_iff_exists.mp hsome
  have hheard : m.after endpoint (w.announce h) = m.apply (Payload.spawn s).arrived := by
    rw [announce, hmsg]
    exact hr.after_broadcast m _
  rw [hheard]
  exact hs.apply_spawn hmsg

/-- What matters is which entities are shown that have a network id. -/
theorem Shows.of_iff (hs : w.Shows shown m)
    (h : ∀ {k n}, w.registry.get? .networkId k = some n → (shown' k ↔ shown k)) :
    w.Shows shown' m :=
  hs.of_same (fun hid hsh => ⟨hid, (h hid).mp hsh⟩) (fun hid hsh => ⟨hid, (h hid).mpr hsh, rfl⟩)
    fun _ => rfl

/-- An entity is born and not announced. -/
theorem Shows.birth (hs : w.Shows shown m) {newborn : Handle}
    (hnone : w.registry.get? .networkId newborn = none)
    (hget : ∀ (c : ComponentType) {h : Handle}, newborn ≠ h →
      w'.registry.get? c h = w.registry.get? c h)
    (hnames : ∀ {h q}, w.registry.get? .kind h = some .player →
      (w.registry.get? .owner h).getD serverOwner = q →
        (w'.players.get? q).map Slot.username = (w.players.get? q).map Slot.username) :
    w'.Shows (fun h => newborn ≠ h ∧ shown h) m := by
  refine hs.of_same ?_ ?_ fun _ => rfl
  · rintro h n hid ⟨hne, hsh⟩
    exact ⟨by rw [← hget _ hne, hid], hsh⟩
  · intro h n hid hsh
    have hne : newborn ≠ h := by
      intro heq
      subst heq
      rw [hnone] at hid
      cases hid
    exact ⟨by rw [hget _ hne, hid], ⟨hne, hsh⟩,
      identity?_congr (hget _ hne) (hget _ hne) (hget _ hne) fun hk q hq => hnames hk hq⟩

/-! ## The news of an end -/

theorem get?_after_destroyNotices (hr : w.Reaches endpoint) (gone : List Handle) (m : Replica)
    (n : UInt32) (e : Sighting) :
    (m.after endpoint (gone.flatMap w.destroyNotices)).get? n = some e ↔
      m.get? n = some e ∧ ∀ h ∈ gone, w.registry.get? .networkId h ≠ some n := by
  induction gone generalizing m with
  | nil => simp
  | cons h rest ih =>
    rw [List.flatMap_cons, Replica.after_append, ih, destroyNotices]
    cases hid : w.registry.get? .networkId h with
    | none => simp [hid]
    | some k =>
      -- an id is taken out; whether it is this one decides
      simp only [hr.after_broadcast, Payload.arrived, Replica.get?_applyDestroy]
      by_cases hk : k = n
      · simp [hk, hid]
      · simp [hk, hid]

/-- Being released changes no name. -/
theorem username_reap (w : World) (condemned : HandleSet) (q : UInt8) :
    ((w.reap condemned).1.players.get? q).map Slot.username =
      (w.players.get? q).map Slot.username := by
  show ((w.players.map fun _ => releasedFrom _).get? q).map Slot.username = _
  rw [SortedMap.get?_map, Option.map_map]
  congr 1
  funext slot
  dsimp only [Function.comp, releasedFrom]
  split
  · split <;> rfl
  · rfl

/-- Whoever is not reaped is who they were, when the players are these. -/
theorem Embodied.identity?_reap (he : w.Embodied) {ps : SortedMap UInt8 Slot}
    {condemned : HandleSet} {h : Handle} (hc : h ∉ condemned)
    (hnames : w.registry.get? .kind h = some .player → ∀ q,
      (w.registry.get? .owner h).getD serverOwner = q →
        (ps.get? q).map Slot.username = (w.players.get? q).map Slot.username) :
    (({ w with players := ps } : World).reap condemned).1.identity? h = w.identity? h := by
  have hget : ∀ c : ComponentType,
      (({ w with players := ps } : World).reap condemned).1.registry.get? c h =
        w.registry.get? c h := by
    intro c
    rw [(he.withPlayers ps).get?_reap, if_neg hc]
  refine identity?_congr (hget _) (hget _) (hget _) fun hk q hq => ?_
  rw [username_reap, ← hnames hk q hq]

/-- Some entities are reaped, when the players are these. -/
theorem Shows.reap (hs : w.Shows shown m) (he : w.Embodied) (hn : w.Numbered)
    {ps : SortedMap UInt8 Slot} (hr : ({ w with players := ps } : World).Reaches endpoint)
    (condemned : HandleSet)
    (hnames : ∀ {h q}, h ∉ condemned → w.registry.get? .kind h = some .player →
      (w.registry.get? .owner h).getD serverOwner = q →
        (ps.get? q).map Slot.username = (w.players.get? q).map Slot.username) :
    (({ w with players := ps } : World).reap condemned).1.Shows shown
      (m.after endpoint (({ w with players := ps } : World).reap condemned).2) := by
  let v : World := { w with players := ps }
  have hv : v.Embodied := he.withPlayers ps
  -- whoever is not reaped keeps every component
  have hget : ∀ (c : ComponentType) {h : Handle}, h ∉ condemned →
      (v.reap condemned).1.registry.get? c h = w.registry.get? c h := by
    intro c h hc
    rw [hv.get?_reap, if_neg hc]
  have hafter := get?_after_destroyNotices hr (v.reaped condemned) m
  constructor
  · intro h n hid hsh
    have hc : h ∉ condemned := by
      intro hc
      rw [hv.get?_reap, if_pos hc] at hid
      cases hid
    rw [hget _ hc] at hid
    obtain ⟨e, hme⟩ := Option.isSome_iff_exists.mp (hs.of_live hid hsh)
    -- whoever is reaped has another id
    have hothers : ∀ k ∈ v.reaped condemned, v.registry.get? .networkId k ≠ some n := by
      intro k hk hkid
      rw [hn.inj hkid hid] at hk
      exact hc (mem_reaped.mp hk).1
    exact Option.isSome_iff_exists.mpr ⟨e, (hafter n e).mpr ⟨hme, hothers⟩⟩
  · intro n e hme
    obtain ⟨hme, hothers⟩ := (hafter n e).mp hme
    obtain ⟨h, hid, hsh, hident⟩ := hs.of_seen hme
    have hc : h ∉ condemned := fun hc =>
      hothers h (mem_reaped.mpr ⟨hc, hv.isAlive_of_get? hid⟩) hid
    exact ⟨h, by rw [hget _ hc, hid], hsh,
      (he.identity?_reap hc fun hk _ hq => hnames hc hk hq).trans hident⟩

/-! ## Snapshots -/

/-- Everything the replica has is where it is in the world, and as well. -/
def IsCurrent (w : World) (m : Replica) : Prop :=
  ∀ n e h, m.get? n = some e → w.registry.get? .networkId h = some n →
    w.registry.get? .position h = some e.position ∧ e.health = w.reportedHealth h

theorem mem_networked {n : UInt32} {h : Handle} :
    (n, h) ∈ w.networked ↔ w.registry.get? .networkId h = some n := by
  rw [networked, List.mem_mergeSort, List.mem_map, ← Registry.mem_entries]
  constructor
  · intro hex
    obtain ⟨⟨k, n'⟩, hmem, heq⟩ := hex
    obtain ⟨rfl, rfl⟩ := Prod.mk.inj heq
    exact hmem
  · intro hmem
    exact ⟨(h, n), hmem, rfl⟩

theorem mem_batchEntries {x : Entry} : x ∈ w.batchEntries ↔
    ∃ h, w.registry.get? .networkId h = some x.networkId ∧ w.registry.has .drawable h = true ∧
      w.registry.get? .position h = some x.position ∧ x.health = w.reportedHealth h := by
  rw [batchEntries, List.mem_filterMap]
  constructor
  · intro hex
    obtain ⟨⟨n, h⟩, hmem, hx⟩ := hex
    dsimp only at hx
    split at hx
    · rename_i hdraw
      obtain ⟨position, hpos, rfl⟩ := Option.map_eq_some_iff.mp hx
      exact ⟨h, mem_networked.mp hmem, hdraw, hpos, rfl⟩
    · cases hx
  · intro hex
    obtain ⟨h, hid, hdraw, hpos, hhealth⟩ := hex
    refine ⟨(x.networkId, h), mem_networked.mpr hid, ?_⟩
    dsimp only
    rw [if_pos hdraw, hpos, Option.map_some, ← hhealth]

/-- A snapshot is heard entry by entry. -/
theorem Reaches.get?_after_snapshot (hr : w.Reaches endpoint) (m : Replica) (n : UInt32) :
    (m.after endpoint w.snapshot).get? n = (w.batchEntries.foldl Replica.applyEntry m).get? n := by
  have key : ∀ (batches : List Batch) (m : Replica),
      m.after endpoint (batches.flatMap fun b => broadcast w.endpoints (.batch b)) =
        batches.foldl Replica.applyBatch m := by
    intro batches
    induction batches with
    | nil => exact fun _ => rfl
    | cons b rest ih =>
      intro m
      rw [List.flatMap_cons, Replica.after_append, hr.after_broadcast, ih]
      rfl
  rw [snapshot, key, Replica.get?, Replica.entities_applyBatches, Batch.entries_chunks]
  rfl

/-- A snapshot changes nobody's identity. -/
theorem Reaches.identity_after_snapshot (hr : w.Reaches endpoint) (m : Replica) (n : UInt32) :
    ((m.after endpoint w.snapshot).get? n).map Sighting.identity =
      (m.get? n).map Sighting.identity := by
  rw [hr.get?_after_snapshot, Replica.identity_applyEntries]

/-- After a snapshot everything is where it is in the world. -/
theorem isCurrent_snapshot (he : w.Embodied) (hn : w.Numbered) (hr : w.Reaches endpoint)
    (m : Replica) : w.IsCurrent (m.after endpoint w.snapshot) := by
  intro n e h hme hid
  rw [hr.get?_after_snapshot] at hme
  -- whoever has an id has a shape and a place, so there is an entry for it
  obtain ⟨k, hk, -⟩ := he.of_alive (he.isAlive_of_get? hid)
  have hparts : ComponentType.position ∈ k.anatomy ∧ ComponentType.drawable ∈ k.anatomy := by
    rcases he.kind_mem hk with rfl | rfl | rfl <;> simp [EntityKind.anatomy]
  obtain ⟨position, hpos⟩ := he.get?_of_mem hk hparts.1
  have hdraw : w.registry.has .drawable h = true := (he.isSome_iff hk _).mpr hparts.2
  have hentry : (⟨n, position, w.reportedHealth h⟩ : Entry) ∈ w.batchEntries :=
    mem_batchEntries.mpr ⟨h, hid, hdraw, hpos, rfl⟩
  -- all entries about the id say the same, since the id is one entity's
  have hall : ∀ x ∈ w.batchEntries, x.networkId = n →
      x.position = position ∧ x.health = w.reportedHealth h := by
    intro x hx hxn
    obtain ⟨h', hid', -, hpos', hhealth'⟩ := mem_batchEntries.mp hx
    rw [hxn] at hid'
    rw [hn.inj hid' hid] at hpos' hhealth'
    rw [hpos, Option.some.injEq] at hpos'
    exact ⟨hpos'.symm, hhealth'⟩
  obtain ⟨h₁, h₂⟩ := Replica.get?_applyEntries hall (.inl ⟨_, hentry, rfl⟩) hme
  exact ⟨by rw [hpos, h₁], h₂⟩

end World

end Skirmish
