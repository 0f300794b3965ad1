import Skirmish.Client.Replica
import Skirmish.Proofs.Evolution
import Skirmish.Proofs.RoundTrip
/-!
# What a client hears

A client reads the datagrams that come to its endpoint and applies their messages in order
(`Replica.hearAll`). Everything the server sends can be read, so what becomes of a replica is a fold
over the messages as they arrive (`hearAll_bytesFor`), and a broadcast is heard once at an endpoint
that one player has (`World.Reaches`).

What is left of a message in a replica is said through look-ups: an announcement puts an entity in, an
end takes it out, and the entries of a snapshot move what is there and change nobody's identity.
-/

namespace Skirmish

open Wire

/-! ## Datagrams -/

/-- What goes to an endpoint, in the order in which it is sent. -/
def bytesFor (endpoint : Endpoint) (said : List Dispatch) : List (List UInt8) :=
  ((said.map Dispatch.datagram).filter fun d => d.recipient = endpoint).map Datagram.bytes

namespace Replica

/-- A datagram comes. -/
def hear (m : Replica) (bytes : List UInt8) : Except Wire.Error Replica :=
  (Packet.decode bytes).map fun packet => m.apply packet.payload

/-- Datagrams come, one after the other. -/
def hearAll (m : Replica) (datagrams : List (List UInt8)) : Except Wire.Error Replica :=
  datagrams.foldlM hear m

/-- What becomes of a replica at an endpoint when all of this is sent. -/
def after (m : Replica) (endpoint : Endpoint) (said : List Dispatch) : Replica :=
  (said.filter fun d => d.recipient = endpoint).foldl (fun m d => m.apply d.payload.arrived) m

/-- Everything that is sent can be read. -/
theorem hearAll_bytesFor (m : Replica) (endpoint : Endpoint) (said : List Dispatch) :
    m.hearAll (bytesFor endpoint said) = .ok (m.after endpoint said) := by
  induction said generalizing m with
  | nil => rfl
  | cons d rest ih =>
    by_cases hd : d.recipient = endpoint
    · have hhear : m.hear d.packet.encode = .ok (m.apply d.payload.arrived) := by
        rw [hear, Packet.decode_encode_arrived]
        rfl
      have hbytes : bytesFor endpoint (d :: rest) = d.packet.encode :: bytesFor endpoint rest := by
        simp [bytesFor, Dispatch.datagram, hd]
      have hafter : m.after endpoint (d :: rest) =
          (m.apply d.payload.arrived).after endpoint rest := by
        simp [after, hd]
      rw [hbytes, hafter, ← ih, hearAll, List.foldlM_cons, hhear]
      rfl
    · have hbytes : bytesFor endpoint (d :: rest) = bytesFor endpoint rest := by
        simp [bytesFor, Dispatch.datagram, hd]
      have hafter : m.after endpoint (d :: rest) = m.after endpoint rest := by
        simp [after, hd]
      rw [hbytes, hafter, ih]

@[simp]
theorem after_nil (m : Replica) (endpoint : Endpoint) : m.after endpoint [] = m := rfl

theorem after_append (m : Replica) (endpoint : Endpoint) (said said' : List Dispatch) :
    m.after endpoint (said ++ said') = (m.after endpoint said).after endpoint said' := by
  rw [after, List.filter_append, List.foldl_append]
  rfl

/-- What goes elsewhere is not heard. -/
theorem after_of_elsewhere (m : Replica) {endpoint : Endpoint} {said : List Dispatch}
    (h : ∀ d ∈ said, d.recipient ≠ endpoint) : m.after endpoint said = m := by
  have hnone : (said.filter fun d => d.recipient = endpoint) = [] := by
    rw [List.filter_eq_nil_iff]
    intro d hd
    simpa using h d hd
  rw [after, hnone]
  rfl

end Replica

/-! ## Broadcasts -/

namespace World

/-- A broadcast goes to this endpoint, and goes there once. -/
def Reaches (w : World) (endpoint : Endpoint) : Prop :=
  (w.endpoints.filter fun e => e = endpoint) = [endpoint]

variable {w : World} {endpoint : Endpoint}

/-- An endpoint that one player has is reached once. -/
theorem reaches_of_slot {p : UInt8} {slot : Slot} (hslot : w.players.get? p = some slot)
    (hend : slot.endpoint = some endpoint)
    (halone : ∀ q slot', q ≠ p → w.players.get? q = some slot' → slot'.endpoint ≠ some endpoint) :
    w.Reaches endpoint := by
  obtain ⟨before, behind, hlist, hothers⟩ := SortedMap.exists_split hslot
  -- nobody before or behind the player has the endpoint
  have hnone : ∀ part : List (UInt8 × Slot), (∀ e ∈ part, e ∈ w.players.toList ∧ e.1 ≠ p) →
      ((part.map Prod.snd).filterMap Slot.endpoint).filter (fun e => e = endpoint) = [] := by
    intro part hpart
    rw [List.filter_eq_nil_iff]
    intro e he
    obtain ⟨slot', hmem, hslot'⟩ := List.mem_filterMap.mp he
    obtain ⟨⟨q, _⟩, hq, rfl⟩ := List.mem_map.mp hmem
    obtain ⟨hin, hne⟩ := hpart _ hq
    have := halone q _ hne (SortedMap.get?_eq_some_iff.mpr hin)
    rw [hslot'] at this
    simpa using this
  have h₁ := hnone before fun e he =>
    ⟨by rw [hlist]; exact List.mem_append_left _ he, hothers e (List.mem_append_left _ he)⟩
  have h₂ := hnone behind fun e he =>
    ⟨by rw [hlist]; exact List.mem_append_right _ (List.mem_cons_of_mem _ he),
      hothers e (List.mem_append_right _ he)⟩
  rw [Reaches, endpoints, SortedMap.values, hlist, List.map_append, List.map_cons,
    List.filterMap_append, List.filterMap_cons, List.filter_append, h₁, List.nil_append]
  simp only [hend, List.filter_cons, h₂]
  -- what is left is this one slot
  simp

theorem Reaches.congr {w' : World} (h : w.Reaches endpoint) (he : w'.endpoints = w.endpoints) :
    w'.Reaches endpoint := by
  rw [Reaches, he]
  exact h

theorem Reaches.filter_broadcast (h : w.Reaches endpoint) (payload : Payload) :
    ((broadcast w.endpoints payload).filter fun d => d.recipient = endpoint) =
      [⟨endpoint, payload⟩] := by
  rw [broadcast, List.filter_map]
  show (w.endpoints.filter fun e => e = endpoint).map _ = _
  rw [h]
  rfl

/-- A broadcast is heard once. -/
theorem Reaches.after_broadcast (h : w.Reaches endpoint) (m : Replica) (payload : Payload) :
    m.after endpoint (broadcast w.endpoints payload) = m.apply payload.arrived := by
  rw [Replica.after, h.filter_broadcast]
  rfl

end World

/-! ## What messages leave behind -/

namespace Sighting

/-- Who is seen, apart from where and in what state. -/
def identity (e : Sighting) : UInt32 × EntityKind × UInt8 × String :=
  (e.networkId, e.kind, e.owner, e.username)

end Sighting

namespace Replica

variable {m : Replica} {n : UInt32}

theorem get?_applySpawn (m : Replica) (s : Spawn) (n : UInt32) :
    (m.applySpawn s).get? n = if s.networkId = n then some (sighting s) else m.get? n :=
  SortedMap.get?_insert _ _ _ _

theorem get?_applyDestroy (m : Replica) (k n : UInt32) :
    (m.apply (.destroy k)).get? n = if k = n then none else m.get? n :=
  SortedMap.get?_erase _ _ _

/-- Where an entry says that an entity is. -/
def moved (x : Entry) (e : Sighting) : Sighting :=
  { e with position := x.position, health := x.health }

theorem get?_applyEntry (m : Replica) (x : Entry) (n : UInt32) :
    (m.applyEntry x).get? n =
      if x.networkId = n then (m.get? n).map (moved x) else m.get? n := by
  unfold applyEntry
  split
  · exact SortedMap.get?_modify _ _ _ _
  · rename_i hnone
    split
    · rename_i hid
      have hget : m.get? n = none := by
        rw [← hid, get?]
        simpa [SortedMap.contains] using hnone
      show m.get? n = _
      rw [hget]
      rfl
    · rfl

/-- Entries change nobody's identity, and nobody comes or goes. -/
theorem identity_applyEntries (entries : List Entry) (m : Replica) (n : UInt32) :
    ((entries.foldl applyEntry m).get? n).map Sighting.identity =
      (m.get? n).map Sighting.identity := by
  induction entries generalizing m with
  | nil => rfl
  | cons x rest ih =>
    rw [List.foldl_cons, ih, get?_applyEntry]
    split
    · rw [Option.map_map]
      rfl
    · rfl

/-- Once all entries about an entity say the same, and there is one, the entity is seen like that. -/
theorem get?_applyEntries {entries : List Entry} {position : Vector2} {health : UInt8}
    (hall : ∀ x ∈ entries, x.networkId = n → x.position = position ∧ x.health = health)
    (hsome : (∃ x ∈ entries, x.networkId = n) ∨
      ∀ e, m.get? n = some e → e.position = position ∧ e.health = health)
    {e : Sighting} (he : (entries.foldl applyEntry m).get? n = some e) :
    e.position = position ∧ e.health = health := by
  induction entries generalizing m with
  | nil =>
    -- nobody in the list is the entity, so it was as wanted before
    rcases hsome with ⟨x, hx, -⟩ | hsome
    · exact absurd hx (by simp)
    · exact hsome e he
  | cons x rest ih =>
    refine ih (fun y hy => hall y (List.mem_cons_of_mem _ hy)) ?_ he
    -- an entry about the entity settles the matter, others leave it as it is
    by_cases hid : x.networkId = n
    · obtain ⟨hpos, hhealth⟩ := hall x List.mem_cons_self hid
      refine .inr fun e' he' => ?_
      rw [get?_applyEntry, if_pos hid] at he'
      obtain ⟨e₀, -, rfl⟩ := Option.map_eq_some_iff.mp he'
      exact ⟨hpos, hhealth⟩
    · rcases hsome with ⟨y, hy, hyid⟩ | hsome
      · rcases List.mem_cons.mp hy with rfl | hy
        · exact absurd hyid hid
        · exact .inl ⟨y, hy, hyid⟩
      · refine .inr fun e' he' => ?_
        rw [get?_applyEntry, if_neg hid] at he'
        exact hsome e' he'

/-- Batches of entries do to the entities what the entries do. -/
theorem entities_applyBatches (batches : List Batch) (m : Replica) :
    (batches.foldl applyBatch m).entities =
      ((batches.flatMap Batch.entries).foldl applyEntry m).entities := by
  -- the counters make no difference to the entities
  have hcongr : ∀ (entries : List Entry) {m m' : Replica}, m.entities = m'.entities →
      (entries.foldl applyEntry m).entities = (entries.foldl applyEntry m').entities := by
    intro entries
    induction entries with
    | nil => exact id
    | cons x rest ih =>
      intro m m' h
      refine ih ?_
      unfold applyEntry
      rw [h]
      split
      · rfl
      · rfl
  induction batches generalizing m with
  | nil => rfl
  | cons b rest ih =>
    rw [List.foldl_cons, ih, List.flatMap_cons, List.foldl_append, applyBatch]
    exact hcongr _ (hcongr _ rfl)

end Replica

/-! ## Batches -/

namespace Wire.Batch

/-- It makes no difference how many rounds there are, if there are enough. -/
theorem chunksWithin_eq : ∀ {rounds rounds' : Nat} {entries : List Entry}, entries.length ≤ rounds →
    entries.length ≤ rounds' → chunksWithin rounds entries = chunksWithin rounds' entries := by
  intro rounds
  induction rounds with
  | zero =>
    intro rounds' entries h _
    rw [List.length_eq_zero_iff.mp (Nat.le_zero.mp h)]
    cases rounds' <;> rfl
  | succ rounds ih =>
    intro rounds' entries h h'
    by_cases hne : entries = []
    · subst hne
      cases rounds' <;> rfl
    · have hpos : 0 < entries.length := List.length_pos_iff.mpr hne
      obtain ⟨rounds', rfl⟩ := Nat.exists_eq_succ_of_ne_zero (n := rounds') (by omega)
      -- a round takes something away as long as anything is left
      have hdrop : (entries.drop maxEntries).length + 1 ≤ entries.length := by
        rw [List.length_drop, maxEntries]
        omega
      have hrest : chunksWithin rounds (entries.drop maxEntries) =
          chunksWithin rounds' (entries.drop maxEntries) := ih (by omega) (by omega)
      simp only [chunksWithin, if_neg hne, hrest]

/-- The first ten entries are in the first batch, the others in those that follow. -/
theorem chunks_of_ne_nil {entries : List Entry} (hne : entries ≠ []) :
    chunks entries = ⟨entries.take maxEntries, List.length_take_le _ _⟩ ::
      chunks (entries.drop maxEntries) := by
  have hpos : 0 < entries.length := List.length_pos_iff.mpr hne
  obtain ⟨rounds, hrounds⟩ := Nat.exists_eq_succ_of_ne_zero (n := entries.length) (by omega)
  have hdrop : (entries.drop maxEntries).length ≤ rounds := by
    rw [List.length_drop, maxEntries]
    omega
  rw [chunks, hrounds, chunksWithin, if_neg hne, chunks, chunksWithin_eq hdrop (Nat.le_refl _)]

/-- Whatever is taken ten at a time is taken completely. -/
theorem induction_chunks {P : List Entry → Prop} (nil : P [])
    (step : ∀ entries, entries ≠ [] → P (entries.drop maxEntries) → P entries)
    (entries : List Entry) : P entries := by
  by_cases hne : entries = []
  · rw [hne]
    exact nil
  · exact step entries hne (induction_chunks nil step (entries.drop maxEntries))
termination_by entries.length
decreasing_by
  have hpos : 0 < entries.length := List.length_pos_iff.mpr hne
  rw [List.length_drop, maxEntries]
  omega

/-- Batches hold all the entries, in order. -/
theorem entries_chunks (entries : List Entry) : (chunks entries).flatMap Batch.entries = entries := by
  induction entries using induction_chunks with
  | nil => rfl
  | step entries hne ih => rw [chunks_of_ne_nil hne, List.flatMap_cons, ih, List.take_append_drop]

end Wire.Batch

end Skirmish
