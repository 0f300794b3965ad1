import Skirmish.Proofs.Mirror
/-!
# How entities end on the wire

A network id that has been handed out is past as soon as no live entity has it (`World.IsPast`), and
stays so. What a step says fits to that (`World.Reports`): only ids that are not past are shown, and
an id is called off exactly when it becomes past, once to everyone who can be reached at that moment
(`World.AnnouncesEnds`). Both compose, so they are shown for the few things that a step is made of,
then for every step (`Simulation.Sound.reports_step`), and for every run.

Ids that become past within a step are included: a bullet whose lifetime is over in the step in which
it was fired never shows between two steps, but it is announced and called off like any other.
-/

namespace Skirmish

open Wire

/-! ## Messages about entities -/

namespace Wire.Payload

/-- What a server tells its players. -/
def IsNews (p : Payload) : Prop := p.kind = .spawn ∨ p.kind = .destroy ∨ p.kind = .batch

/-- The payload announces the entity with a network id or says where it is. -/
def Shows (p : Payload) (n : UInt32) : Prop :=
  match p with
  | spawn s => s.networkId = n
  | batch b => ∃ x ∈ b.entries, x.networkId = n
  | _ => False

theorem arrived_eq_destroy_iff {p : Payload} {n : UInt32} :
    p.arrived = .destroy n ↔ p = .destroy n := by
  cases p <;> simp [arrived]

theorem shows_arrived {p : Payload} {n : UInt32} : p.arrived.Shows n ↔ p.Shows n := by
  cases p <;> rfl

theorem isNews_arrived {p : Payload} : p.arrived.IsNews ↔ p.IsNews := by
  cases p <;> rfl

end Wire.Payload

/-- Whoever gets the datagram reads this payload in it, with the token of the server. -/
def Dispatch.Reads (d : Dispatch) (p : Payload) : Prop :=
  Packet.decode d.datagram.bytes = .ok ⟨0, p⟩

theorem Dispatch.reads_iff {d : Dispatch} {p : Payload} : d.Reads p ↔ d.payload.arrived = p := by
  have hdecode : Packet.decode d.datagram.bytes = .ok ⟨0, d.payload.arrived⟩ :=
    Packet.decode_encode_arrived d.packet
  rw [Reads, hdecode, Except.ok.injEq, Packet.mk.injEq]
  exact and_iff_right rfl

theorem mem_broadcast {endpoints : List Endpoint} {p : Payload} {d : Dispatch}
    (h : d ∈ broadcast endpoints p) : d.payload = p := by
  obtain ⟨e, -, rfl⟩ := List.mem_map.mp h
  rfl

namespace World

variable {w w' w'' : World} {n : UInt32}

/-! ## Ids that are past -/

/-- A live entity has the network id. -/
def Lives (w : World) (n : UInt32) : Prop :=
  ∃ h, w.registry.isAlive h = true ∧ w.registry.get? .networkId h = some n

/-- The network id has been handed out, and whoever had it is gone. -/
structure IsPast (w : World) (n : UInt32) : Prop where
  pos : 0 < n.toNat
  lt_next : n.toNat < w.nextNetworkId.toNat
  gone : ¬ w.Lives n

theorem Embodied.lives_iff (he : w.Embodied) :
    w.Lives n ↔ ∃ h, w.registry.get? .networkId h = some n := by
  constructor
  · intro hex
    obtain ⟨h, -, hid⟩ := hex
    exact ⟨h, hid⟩
  · intro hex
    obtain ⟨h, hid⟩ := hex
    exact ⟨h, he.isAlive_of_get? hid, hid⟩

theorem Lives.not_isPast (h : w.Lives n) : ¬ w.IsPast n := fun hp => hp.gone h

theorem isPast_of_kept (hk : w.registry.Kept w'.registry)
    (hnext : w'.nextNetworkId = w.nextNetworkId) : w'.IsPast n ↔ w.IsPast n := by
  have hlives : w'.Lives n ↔ w.Lives n := by
    simp only [Lives, hk.isAlive, hk.networkId]
  constructor
  · exact fun h => ⟨h.pos, hnext ▸ h.lt_next, fun hl => h.gone (hlives.mpr hl)⟩
  · exact fun h => ⟨h.pos, hnext ▸ h.lt_next, fun hl => h.gone (hlives.mp hl)⟩

theorem Embodied.lives_summon (he : w.Embodied) {k : EntityKind} {parts : List Part}
    (hp : Complete k parts) :
    (w.summon parts).2.Lives n ↔ n = w.nextNetworkId ∨ w.Lives n := by
  rw [(he.summon hp).lives_iff, he.lives_iff]
  constructor
  · intro hex
    obtain ⟨h, hid⟩ := hex
    rcases get?_summon_cases hid with rfl | ⟨-, hold⟩
    · rw [he.get?_newborn, hp.networkId, Option.some.injEq] at hid
      exact .inl hid.symm
    · exact .inr ⟨h, hold⟩
  · intro hor
    rcases hor with rfl | ⟨h, hid⟩
    · exact ⟨w.registry.spawn.1, by rw [he.get?_newborn, hp.networkId]⟩
    · exact ⟨h, he.get?_summon_of_some hid⟩

/-- Who the players are is another matter. -/
theorem isPast_withPlayers (ps : SortedMap UInt8 Slot) :
    ({ w with players := ps } : World).IsPast n ↔ w.IsPast n :=
  isPast_of_kept (.refl _) rfl

/-- A birth makes nothing past, and the id that is handed out was not past before. -/
theorem Embodied.isPast_summon (he : w.Embodied) {k : EntityKind} {parts : List Part}
    (hp : Complete k parts) (hroom : w.nextNetworkId.toNat < 0xffffffff) :
    (w.summon parts).2.IsPast n ↔ w.IsPast n := by
  have hnext : (w.summon parts).2.nextNetworkId.toNat = w.nextNetworkId.toNat + 1 :=
    toNat_followingId hroom
  constructor
  · intro h
    have hlt := h.lt_next
    have hne : n.toNat ≠ w.nextNetworkId.toNat := fun heq =>
      h.gone ((he.lives_summon hp).mpr (.inl (UInt32.toNat_inj.mp heq)))
    exact ⟨h.pos, by omega, fun hl => h.gone ((he.lives_summon hp).mpr (.inr hl))⟩
  · intro h
    have hlt := h.lt_next
    refine ⟨h.pos, by omega, fun hl => ?_⟩
    rcases (he.lives_summon hp).mp hl with rfl | hl
    · exact Nat.lt_irrefl _ hlt
    · exact h.gone hl

theorem Embodied.lives_reap (he : w.Embodied) (condemned : HandleSet) :
    (w.reap condemned).1.Lives n ↔
      ∃ h, w.registry.get? .networkId h = some n ∧ h ∉ condemned := by
  rw [(he.reap condemned).lives_iff]
  constructor
  · intro hex
    obtain ⟨h, hid⟩ := hex
    rw [he.get?_reap] at hid
    split at hid
    · cases hid
    · rename_i hc
      exact ⟨h, hid, hc⟩
  · intro hex
    obtain ⟨h, hid, hc⟩ := hex
    exact ⟨h, by rw [he.get?_reap, if_neg hc, hid]⟩

/-! ## Reports -/

/-- What is said while one world turns into another fits to the network ids that are past. -/
structure Reports (w : World) (out : List Dispatch) (w' : World) : Prop where
  past : ∀ {n}, w.IsPast n → w'.IsPast n
  news : ∀ d ∈ out, d.payload.IsNews
  /-- Nothing is shown that was past. -/
  shown : ∀ d ∈ out, ∀ n, d.payload.Shows n → ¬ w.IsPast n
  /-- What is called off becomes past. -/
  ended : ∀ d ∈ out, ∀ n, d.payload = .destroy n → ¬ w.IsPast n ∧ w'.IsPast n
  /-- What has been called off is not shown any more. -/
  final : out.Pairwise fun d d' => ∀ n, d.payload = .destroy n → ¬ d'.payload.Shows n

/-- Every network id that becomes past is called off once, in one go, to all of these players. -/
def AnnouncesEnds (w : World) (audience : List (UInt8 × Endpoint)) (out : List Dispatch) (w' : World) :
    Prop :=
  ∀ n, ¬ w.IsPast n → w'.IsPast n → ∃ before after,
    out = before ++ (audience.map fun a => ⟨a.2, .destroy n⟩) ++ after ∧
    ∀ d ∈ before ++ after, d.payload ≠ .destroy n

variable {out out' : List Dispatch} {audience : List (UInt8 × Endpoint)}

theorem Reports.trans (h : w.Reports out w') (h' : w'.Reports out' w'') :
    w.Reports (out ++ out') w'' where
  past hp := h'.past (h.past hp)
  news d hd := (List.mem_append.mp hd).elim (h.news d) (h'.news d)
  shown d hd n hs := by
    rcases List.mem_append.mp hd with hd | hd
    · exact h.shown d hd n hs
    · exact fun hp => h'.shown d hd n hs (h.past hp)
  ended d hd n he := by
    rcases List.mem_append.mp hd with hd | hd
    · obtain ⟨h₁, h₂⟩ := h.ended d hd n he
      exact ⟨h₁, h'.past h₂⟩
    · obtain ⟨h₁, h₂⟩ := h'.ended d hd n he
      exact ⟨fun hp => h₁ (h.past hp), h₂⟩
  final := by
    refine List.pairwise_append.mpr ⟨h.final, h'.final, fun d hd d' hd' n he hs => ?_⟩
    -- whoever ends in the first part has ended when the second begins
    exact h'.shown d' hd' n hs (h.ended d hd n he).2

theorem AnnouncesEnds.trans (hm : w.AnnouncesEnds audience out w')
    (hm' : w'.AnnouncesEnds audience out' w'')
    (h : w.Reports out w') (h' : w'.Reports out' w'') :
    w.AnnouncesEnds audience (out ++ out') w'' := by
  intro n hbefore hafter
  by_cases hn : w'.IsPast n
  · obtain ⟨b, a, rfl, hno⟩ := hm n hbefore hn
    refine ⟨b, a ++ out', (List.append_assoc _ _ _), fun d hd => ?_⟩
    rw [← List.append_assoc] at hd
    rcases List.mem_append.mp hd with hd | hd
    · exact hno d hd
    · exact fun he => (h'.ended d hd n he).1 hn
  · obtain ⟨b, a, rfl, hno⟩ := hm' n hn hafter
    refine ⟨out ++ b, a, by simp only [List.append_assoc], fun d hd => ?_⟩
    rw [List.append_assoc] at hd
    rcases List.mem_append.mp hd with hd | hd
    · exact fun he => hn (h.ended d hd n he).2
    · exact hno d hd

/-- All that matters of the worlds is what is past. -/
theorem Reports.congr {v v' : World} (h : w.Reports out w') (hpast : ∀ n, v.IsPast n ↔ w.IsPast n)
    (hpast' : ∀ n, v'.IsPast n ↔ w'.IsPast n) : v.Reports out v' where
  past hp := (hpast' _).mpr (h.past ((hpast _).mp hp))
  news := h.news
  shown d hd n hs hp := h.shown d hd n hs ((hpast n).mp hp)
  ended d hd n he := by
    rw [hpast, hpast']
    exact h.ended d hd n he
  final := h.final

theorem AnnouncesEnds.congr {v v' : World} (h : w.AnnouncesEnds audience out w')
    (hpast : ∀ n, v.IsPast n ↔ w.IsPast n) (hpast' : ∀ n, v'.IsPast n ↔ w'.IsPast n) :
    v.AnnouncesEnds audience out v' := by
  intro n hbefore hafter
  exact h n (fun hp => hbefore ((hpast n).mpr hp)) ((hpast' n).mp hafter)

/-- Where nothing becomes past, nothing is to be called off. -/
theorem announcesEnds_of_same (hpast : ∀ n, w'.IsPast n ↔ w.IsPast n) :
    w.AnnouncesEnds audience out w' :=
  fun n hbefore hafter => absurd ((hpast n).mp hafter) hbefore

/-- The payload shows live entities and calls nobody off. -/
structure Presents (w : World) (p : Payload) : Prop where
  kind : p.kind = .spawn ∨ p.kind = .batch
  lives : ∀ n, p.Shows n → w.Lives n

theorem Presents.ne_destroy {p : Payload} (h : w.Presents p) (n : UInt32) : p ≠ .destroy n := by
  intro heq
  subst heq
  rcases h.kind with hk | hk <;> cases hk

theorem reports_of_presents (hpast : ∀ n, w'.IsPast n ↔ w.IsPast n)
    (hout : ∀ d ∈ out, w'.Presents d.payload) : w.Reports out w' where
  past hp := (hpast _).mpr hp
  news d hd := by
    rcases (hout d hd).kind with hk | hk
    · exact .inl hk
    · exact .inr (.inr hk)
  shown d hd n hs hp := ((hout d hd).lives n hs).not_isPast ((hpast n).mpr hp)
  ended d hd n he := absurd he ((hout d hd).ne_destroy n)
  final := List.pairwise_of_forall_mem_list fun d hd _ _ n he =>
    absurd he ((hout d hd).ne_destroy n)

theorem reports_nil (hpast : ∀ n, w'.IsPast n ↔ w.IsPast n) : w.Reports [] w' :=
  reports_of_presents hpast fun _ hd => absurd hd (by simp)

/-! ## What is said of the living -/

theorem Embodied.presents_spawn (he : w.Embodied) {h : Handle} {s : Spawn}
    (hm : w.spawnMessage? h = some s) : w.Presents (.spawn s) where
  kind := .inl rfl
  lives n hs := by
    obtain ⟨k, hk, rfl⟩ := Option.map_eq_some_iff.mp hm
    obtain rfl : k = n := hs
    exact ⟨h, he.isAlive_of_get? hk, hk⟩

theorem mem_announce {h : Handle} {d : Dispatch} (hd : d ∈ w.announce h) :
    ∃ x, w.spawnMessage? h = some x ∧ d.payload = .spawn x := by
  unfold announce at hd
  split at hd
  · rename_i x hm
    exact ⟨x, hm, mem_broadcast hd⟩
  · exact absurd hd (by simp)

theorem mem_introduction {own : Option Handle} {d : Dispatch}
    (hd : d ∈ Simulation.introduction w own) :
    ∃ h x, w.spawnMessage? h = some x ∧ d.payload = .spawn x := by
  unfold Simulation.introduction at hd
  split at hd
  · rename_i x hm
    obtain ⟨h, -, hm⟩ := Option.bind_eq_some_iff.mp hm
    exact ⟨h, x, hm, mem_broadcast hd⟩
  · exact absurd hd (by simp)

theorem mem_catchUp {own : Option Handle} {endpoint : Endpoint} {d : Dispatch}
    (hd : d ∈ Simulation.catchUp w own endpoint) :
    ∃ h x, w.spawnMessage? h = some x ∧ d.payload = .spawn x := by
  obtain ⟨⟨n, h⟩, -, hd⟩ := List.mem_filterMap.mp hd
  dsimp only at hd
  split at hd
  · cases hd
  · obtain ⟨x, hm, rfl⟩ := Option.map_eq_some_iff.mp hd
    exact ⟨h, x, hm, rfl⟩

/-- What a player who can be reached now is told of, and the others of the player. -/
theorem mem_welcome {own : Option Handle} {endpoint : Endpoint} {d : Dispatch}
    (hd : d ∈ Simulation.catchUp w own endpoint ++ Simulation.introduction w own) :
    ∃ h x, w.spawnMessage? h = some x ∧ d.payload = .spawn x := by
  rcases List.mem_append.mp hd with hd | hd
  · exact mem_catchUp hd
  · exact mem_introduction hd

theorem mem_snapshot {d : Dispatch} (hd : d ∈ w.snapshot) :
    ∃ b ∈ Batch.chunks w.batchEntries, d.payload = .batch b := by
  obtain ⟨b, hb, hd⟩ := List.mem_flatMap.mp hd
  exact ⟨b, hb, mem_broadcast hd⟩

theorem Embodied.presents_announce (he : w.Embodied) (h : Handle) :
    ∀ d ∈ w.announce h, w.Presents d.payload := by
  intro d hd
  obtain ⟨x, hm, hp⟩ := mem_announce hd
  rw [hp]
  exact he.presents_spawn hm

theorem Embodied.presents_snapshot (he : w.Embodied) :
    ∀ d ∈ w.snapshot, w.Presents d.payload := by
  intro d hd
  obtain ⟨b, hb, hp⟩ := mem_snapshot hd
  rw [hp]
  refine ⟨.inr rfl, fun n hs => ?_⟩
  obtain ⟨x, hx, rfl⟩ := hs
  -- the entry is one of those that were cut into batches
  have hentry : x ∈ w.batchEntries := by
    rw [← Batch.entries_chunks w.batchEntries]
    exact List.mem_flatMap.mpr ⟨b, hb, hx⟩
  obtain ⟨h, hid, -⟩ := mem_batchEntries.mp hentry
  exact ⟨h, he.isAlive_of_get? hid, hid⟩

/-! ## Births, ends and changes -/

theorem isPast_of_quiet (hq : w.Quiet w') : w'.IsPast n ↔ w.IsPast n :=
  isPast_of_kept hq.kept hq.nextNetworkId

/-- Births and changes make nothing past. -/
theorem Evolves.reports {k : Nat} (h : Evolves w out k w') (he : w.Embodied)
    (hnum : w.Numbered) (hpos : 0 < w.nextNetworkId.toNat)
    (hroom : w.nextNetworkId.toNat + k ≤ 0xffffffff) :
    w.Reports out w' ∧ ∀ n, w'.IsPast n ↔ w.IsPast n := by
  induction h with
  | refl => exact ⟨reports_nil fun _ => .rfl, fun _ => .rfl⟩
  | quiet _ hq ih =>
    obtain ⟨hr, hpast⟩ := ih hroom
    exact ⟨hr.congr (fun _ => .rfl) fun _ => isPast_of_quiet hq,
      fun n => (isPast_of_quiet hq).trans (hpast n)⟩
  | birth h hp _ ih =>
    obtain ⟨hr, hpast⟩ := ih (by omega)
    have he' := h.embodied he
    obtain ⟨-, hnext⟩ := h.numbered he hnum hpos (by omega)
    have hsame := fun n => he'.isPast_summon (n := n) hp (by omega)
    exact ⟨hr.trans (reports_of_presents hsame ((he'.summon hp).presents_announce _)),
      fun n => (hsame n).trans (hpast n)⟩

theorem mem_destroyNotices {h : Handle} {d : Dispatch} (hd : d ∈ w.destroyNotices h) :
    ∃ n, w.registry.get? .networkId h = some n ∧ d.payload = .destroy n := by
  unfold destroyNotices at hd
  split at hd
  · rename_i n hid
    exact ⟨n, hid, mem_broadcast hd⟩
  · exact absurd hd (by simp)

theorem reaped_nodup (condemned : HandleSet) : (w.reaped condemned).Nodup :=
  condemned.members.keys_nodup.sublist List.filter_sublist

/-- Whoever is reaped is called off. -/
theorem Embodied.reports_reap (he : w.Embodied) (hn : w.Numbered) (condemned : HandleSet) :
    w.Reports (w.reap condemned).2 (w.reap condemned).1 := by
  -- everything said here is the end of somebody reaped, and that shows nothing
  have hnews : ∀ d ∈ (w.reap condemned).2, ∃ h n, h ∈ w.reaped condemned ∧
      w.registry.get? .networkId h = some n ∧ d.payload = .destroy n := by
    intro d hd
    obtain ⟨h, hh, hd⟩ := List.mem_flatMap.mp hd
    obtain ⟨n, hid, hp⟩ := mem_destroyNotices hd
    exact ⟨h, n, hh, hid, hp⟩
  have hquiet : ∀ d ∈ (w.reap condemned).2, ∀ n, ¬ d.payload.Shows n := by
    intro d hd n hs
    obtain ⟨-, k, -, -, hp⟩ := hnews d hd
    rw [hp] at hs
    exact hs
  constructor
  · intro n hp
    -- an id is past if nobody has it, and reaping gives no ids away
    refine ⟨hp.pos, hp.lt_next, fun hl => ?_⟩
    obtain ⟨h, hid, -⟩ := (he.lives_reap condemned).mp hl
    exact hp.gone (he.lives_iff.mpr ⟨h, hid⟩)
  · intro d hd
    obtain ⟨-, k, -, -, hp⟩ := hnews d hd
    rw [hp]
    exact .inr (.inl rfl)
  · exact fun d hd n hs => absurd hs (hquiet d hd n)
  · intro d hd n hdn
    obtain ⟨h, k, hh, hid, hp⟩ := hnews d hd
    obtain rfl : k = n := Payload.destroy.inj (hp.symm.trans hdn)
    refine ⟨Lives.not_isPast (he.lives_iff.mpr ⟨h, hid⟩), hn.pos hid, hn.lt_next hid, fun hl => ?_⟩
    -- nobody else had the id
    obtain ⟨h', hid', hc⟩ := (he.lives_reap condemned).mp hl
    rw [hn.inj hid' hid] at hc
    exact hc (mem_reaped.mp hh).1
  · exact List.pairwise_of_forall_mem_list fun _ _ d' hd' n _ => hquiet d' hd' n

theorem Embodied.announcesEnds_reap (he : w.Embodied) (hn : w.Numbered) (condemned : HandleSet) :
    w.AnnouncesEnds w.addresses (w.reap condemned).2 (w.reap condemned).1 := by
  intro n hbefore hafter
  -- whoever had the id is among those who are reaped
  have hlives : w.Lives n := Classical.byContradiction fun hl =>
    hbefore ⟨hafter.pos, hafter.lt_next, hl⟩
  obtain ⟨h, hid⟩ := he.lives_iff.mp hlives
  have hc : h ∈ condemned := Decidable.byContradiction fun hc =>
    hafter.gone ((he.lives_reap condemned).mpr ⟨h, hid, hc⟩)
  have hmem : h ∈ w.reaped condemned := mem_reaped.mpr ⟨hc, he.isAlive_of_get? hid⟩
  obtain ⟨earlier, later, hsplit⟩ := List.append_of_mem hmem
  have hnd := w.reaped_nodup condemned
  rw [hsplit, List.perm_middle.nodup_iff, List.nodup_cons] at hnd
  refine ⟨earlier.flatMap w.destroyNotices, later.flatMap w.destroyNotices, ?_, fun d hd hdn => ?_⟩
  · show (w.reaped condemned).flatMap w.destroyNotices = _
    -- what is told of one end is told to every slot with an endpoint
    have hob : w.destroyNotices h = w.addresses.map fun a => ⟨a.2, .destroy n⟩ := by
      rw [destroyNotices, hid]
      exact w.broadcast_endpoints (.destroy n)
    rw [hsplit, List.flatMap_append, List.flatMap_cons, hob, List.append_assoc]
  · -- the queue has everybody once, and nobody else has the id, so no other notice bears it
    rw [← List.flatMap_append] at hd
    obtain ⟨k, hk, hd⟩ := List.mem_flatMap.mp hd
    obtain ⟨n', hid', hp⟩ := mem_destroyNotices hd
    obtain rfl : n' = n := Payload.destroy.inj (hp.symm.trans hdn)
    rw [hn.inj hid' hid] at hk
    exact hnd.1 hk

/-- An avatar ends, when the players are these. -/
theorem Embodied.reports_evict (he : w.Embodied) (hn : w.Numbered) (ps : SortedMap UInt8 Slot)
    (h : Handle) : w.Reports (w.evict ps h).2 (w.evict ps h).1 ∧
      w.AnnouncesEnds ({ w with players := ps } : World).addresses (w.evict ps h).2
        (w.evict ps h).1 := by
  have hr := (he.withPlayers ps).reports_reap (hn.withPlayers ps) (condemnedAlone h)
  have hm := (he.withPlayers ps).announcesEnds_reap (hn.withPlayers ps) (condemnedAlone h)
  have hsame := fun n => (isPast_withPlayers (w := w) (n := n) ps).symm
  exact ⟨hr.congr hsame fun _ => .rfl, hm.congr hsame fun _ => .rfl⟩

theorem Embodied.isPast_spawnPlayer (he : w.Embodied)
    (hroom : w.nextNetworkId.toNat < 0xffffffff) (t : Tuning) (p : UInt8) (username : String) :
    (w.spawnPlayer t p username).2.IsPast n ↔ w.IsPast n := by
  rw [spawnPlayer_snd, isPast_withPlayers]
  exact he.isPast_summon (complete_avatar t p) hroom

end World

namespace Simulation

open World

variable {s s' : Simulation} {k : Nat} {sent : List Dispatch} {steps : List Step}

/-! ## Steps -/

/-- Who is told of those who end in a step: the players who have an endpoint when it begins, but for
a player who goes. -/
def audience (s : Simulation) : Step → List (UInt8 × Endpoint)
  | .event (.disconnected id) => s.world.addresses.filter fun a => a.1 ≠ id
  | _ => s.world.addresses

theorem Sound.reports_connect (hs : Sound k s) (hroom : k + 1 < 0xffffffff) (id : UInt8)
    (username : String) : ∃ out, (s.connect id username).outbox = s.outbox ++ out ∧
      s.world.Reports out (s.connect id username).world ∧
      s.world.AnnouncesEnds s.world.addresses out (s.connect id username).world := by
  have hnext := hs.nextNetworkId
  rcases connect_cases hs.embodied hs.bound hs.condemned id username with
    ⟨-, heq⟩ | ⟨slot, h, hslot, hent, heq⟩
  · have hsame := fun n =>
      hs.embodied.isPast_spawnPlayer (n := n) (by omega) s.tuning id username
    rw [heq]
    exact ⟨[], (List.append_nil _).symm, reports_nil hsame, announcesEnds_of_same hsame⟩
  · -- the old avatar is called off, the new one is not announced yet
    obtain ⟨he, -⟩ := hs.toSettled.evict hslot hent fun _ _ => rfl
    have hnext' : (s.world.evict s.world.players h).1.nextNetworkId.toNat = k + 1 := hnext
    have hsame := fun n => he.isPast_spawnPlayer (n := n) (by omega) s.tuning id username
    obtain ⟨hr, hm⟩ := hs.embodied.reports_evict hs.numbered s.world.players h
    rw [heq]
    exact ⟨_, rfl, hr.congr (fun _ => .rfl) hsame, hm.congr (fun _ => .rfl) hsame⟩

theorem Sound.reports_disconnect (hs : Sound k s) (id : UInt8) : ∃ out,
    (s.disconnect id).outbox = s.outbox ++ out ∧
    s.world.Reports out (s.disconnect id).world ∧
    s.world.AnnouncesEnds (s.audience (.event (.disconnected id))) out (s.disconnect id).world := by
  rcases disconnect_cases hs.bound hs.condemned id with ⟨-, heq⟩ | ⟨slot, h, -, -, heq⟩
  · rw [heq]
    exact ⟨[], (List.append_nil _).symm, reports_nil fun _ => .rfl,
      announcesEnds_of_same fun _ => .rfl⟩
  · obtain ⟨hr, hm⟩ := hs.embodied.reports_evict hs.numbered (s.world.players.erase id) h
    -- the slot is gone before the avatar is
    rw [addresses_erase] at hm
    rw [heq]
    exact ⟨_, rfl, hr, hm⟩

theorem Sound.reports_welcome (hs : Sound k s) (id : UInt8) (endpoint : Endpoint) : ∃ out,
    (s.welcome id endpoint).outbox = s.outbox ++ out ∧
    s.world.Reports out (s.welcome id endpoint).world ∧
    s.world.AnnouncesEnds s.world.addresses out (s.welcome id endpoint).world := by
  cases hslot : s.world.players.get? id with
  | none =>
    rw [welcome_of_none hslot]
    exact ⟨[], (List.append_nil _).symm, reports_nil fun _ => .rfl,
      announcesEnds_of_same fun _ => .rfl⟩
  | some slot =>
    rw [welcome_of_some hslot]
    have he : (s.reached id endpoint).Embodied := hs.embodied.of_kept (.refl _)
    have hsame : ∀ n, (s.reached id endpoint).IsPast n ↔ s.world.IsPast n :=
      fun _ => isPast_withPlayers _
    refine ⟨_, rfl, reports_of_presents hsame fun d hd => ?_, announcesEnds_of_same hsame⟩
    obtain ⟨h, x, hm, hp⟩ := mem_welcome hd
    rw [hp]
    exact he.presents_spawn hm

theorem Sound.reports_tick (hs : Sound k s) {dt : Single}
    (hroom : k + s.births (.tick dt) < 0xffffffff) (h : s.tick dt = .ok (s', sent)) : ∃ out,
      sent ++ s'.outbox = s.outbox ++ out ∧ s.world.Reports out s'.world ∧
      s.world.AnnouncesEnds s.world.addresses out s'.world := by
  obtain ⟨w, out, condemned, hev, -, hworld, -, hout, hsent⟩ :=
    tick_cases hs.embodied hs.bound hs.condemned h
  have he' := (hs.tick hroom h).embodied
  have hnext := hs.nextNetworkId
  have he := hev.embodied hs.embodied
  obtain ⟨hn, -⟩ := hev.numbered hs.embodied hs.numbered (by omega) (by omega)
  -- births and changes, then ends, then perhaps a snapshot
  obtain ⟨hr₁, hsame⟩ := hev.reports hs.embodied hs.numbered (by omega) (by omega)
  have hr₂ := he.reports_reap hn condemned
  have hm₂ := he.announcesEnds_reap hn condemned
  rw [← hworld] at hr₂ hm₂
  have hr₃ : s'.world.Reports (s'.edition (s.isDue dt)) s'.world := by
    refine reports_of_presents (fun _ => .rfl) fun d hd => ?_
    unfold edition at hd
    split at hd
    · exact he'.presents_snapshot d hd
    · exact absurd hd (by simp)
  rw [addresses_congr hev.roll] at hm₂
  refine ⟨out ++ ((w.reap condemned).2 ++ s'.edition (s.isDue dt)), ?_,
    hr₁.trans (hr₂.trans hr₃), ?_⟩
  · rw [hout, hsent]
    simp only [List.append_nil, List.append_assoc]
  · exact (announcesEnds_of_same hsame).trans
      (hm₂.trans (announcesEnds_of_same fun _ => .rfl) hr₂ hr₃) hr₁
      (hr₂.trans hr₃)

/-- **What a step says fits to who is there**, and whoever ends in it is called off. -/
theorem Sound.reports_step (hs : Sound k s) {x : Step} (hroom : k + s.births x < 0xffffffff)
    (h : s.step x = .ok (s', sent)) : ∃ out,
      sent ++ s'.outbox = s.outbox ++ out ∧ s.world.Reports out s'.world ∧
      s.world.AnnouncesEnds (s.audience x) out s'.world := by
  cases x with
  | tick dt => exact hs.reports_tick hroom h
  -- an event says nothing at once; all it says waits in the outbox for the next step of time
  | event e =>
    cases h
    simp only [List.nil_append]
    cases e with
    | connected id username => exact hs.reports_connect hroom id username
    | udpReady id endpoint => exact hs.reports_welcome id endpoint
    | disconnected id => exact hs.reports_disconnect id
    -- only a slot changes, so no id ends
    | endpointChanged id endpoint =>
      have hsame : ∀ n, (s.handle (.endpointChanged id endpoint)).world.IsPast n ↔
        s.world.IsPast n := fun _ => isPast_withPlayers _
      exact ⟨[], (List.append_nil _).symm, reports_nil hsame, announcesEnds_of_same hsame⟩
    | input id i =>
      have hsame : ∀ n, (s.handle (.input id i)).world.IsPast n ↔ s.world.IsPast n :=
        fun _ => isPast_withPlayers _
      exact ⟨[], (List.append_nil _).symm, reports_nil hsame, announcesEnds_of_same hsame⟩

/-! ## Runs -/

/-- What holds of the worlds of every step, and of what is said in it, holds of those of a run. -/
theorem Sound.said_run {R : World → List Dispatch → World → Prop} (nil : ∀ w, R w [] w)
    (trans : ∀ {w out w' out' w''}, R w out w' → R w' out' w'' → R w (out ++ out') w'')
    (step : ∀ {k s x s' sent}, Sound k s → k + s.births x < 0xffffffff →
      s.step x = .ok (s', sent) →
        ∃ out, sent ++ s'.outbox = s.outbox ++ out ∧ R s.world out s'.world)
    {steps : List Step} : ∀ {k : Nat} {s : Simulation} {o : Outcome},
    Sound k s → k + o.ids < 0xffffffff → s.run steps = .ok o →
      ∃ out, o.said = s.outbox ++ out ∧ R s.world out o.simulation.world := by
  induction steps with
  | nil =>
    intro k s o _ _ h
    cases h
    exact ⟨[], by rw [Outcome.said, List.nil_append, List.append_nil], nil _⟩
  | cons x rest ih =>
    intro k s o hs hroom h
    obtain ⟨next, sent, o', hx, hrest, rfl⟩ := run_cons h
    have hsum : k + (s.births x + o'.ids) < 0xffffffff := hroom
    obtain ⟨out, hsaid, hr⟩ := step hs (by omega) hx
    obtain ⟨out', hsaid', hr'⟩ := ih (hs.step (by omega) hx) (by omega) hrest
    -- what waits in the outbox after the step is said by the rest, in front of its own
    refine ⟨out ++ out', ?_, trans hr hr'⟩
    have hnext : o'.sent ++ o'.simulation.outbox = next.outbox ++ out' := hsaid'
    rw [Outcome.said, List.append_assoc, hnext, ← List.append_assoc, hsaid, List.append_assoc]

theorem Sound.reports_run {o : Outcome} (hs : Sound k s) (hroom : k + o.ids < 0xffffffff)
    (h : s.run steps = .ok o) :
    ∃ out, o.said = s.outbox ++ out ∧ s.world.Reports out o.simulation.world := by
  refine said_run (fun _ => reports_nil fun _ => .rfl) Reports.trans
    (fun hs hroom hx => ?_) hs hroom h
  obtain ⟨out, hsaid, hr, -⟩ := hs.reports_step hroom hx
  exact ⟨out, hsaid, hr⟩

/-- The step of a run in which a network id becomes past: the entity that has it, or that is born
with it in this very step, is gone afterwards. -/
structure Ending (s : Simulation) (steps : List Step) (n : UInt32) where
  before : List Step
  step : Step
  after : List Step
  /-- Where the run has got to before the step. -/
  reached : Outcome
  /-- Where the step leads. -/
  next : Simulation
  /-- What the step hands over. -/
  sent : List Dispatch
  split : steps = before ++ step :: after
  run_before : s.run before = .ok reached
  run_step : reached.simulation.step step = .ok (next, sent)
  not_past : ¬ reached.simulation.world.IsPast n
  past : next.world.IsPast n

namespace Ending

variable {n : UInt32} (e : Ending s steps n)

/-- What is to be told of the end: one message to the endpoint of each of these players. -/
def destroyNotices : List Dispatch :=
  (e.reached.simulation.audience e.step).map fun a => ⟨a.2, .destroy n⟩

/-- Everything that has been said up to the end of the step. -/
def said : List Dispatch := e.reached.sent ++ (e.sent ++ e.next.outbox)

end Ending

/-- A run in which an id becomes past has a step in which it does. -/
theorem exists_ending {n : UInt32} {steps : List Step} : ∀ {s : Simulation} {o : Outcome},
    s.run steps = .ok o → ¬ s.world.IsPast n → o.simulation.world.IsPast n →
      Nonempty (Ending s steps n) := by
  induction steps with
  | nil =>
    intro s o h hbefore hafter
    cases h
    exact absurd hafter hbefore
  | cons x rest ih =>
    intro s o h hbefore hafter
    obtain ⟨next, sent, o', hx, hrest, rfl⟩ := run_cons h
    by_cases hn : next.world.IsPast n
    · exact ⟨⟨[], x, rest, _, next, sent, rfl, run_nil s, hx, hbefore, hn⟩⟩
    · obtain ⟨e⟩ := ih hrest hn hafter
      exact ⟨⟨x :: e.before, e.step, e.after, _, e.next, e.sent, congrArg (x :: ·) e.split,
        run_cons_of_step hx e.run_before, e.run_step, e.not_past, e.past⟩⟩

/-- An end is announced within its step, and neither before nor afterwards. -/
theorem Sound.destroyNotices_of_ending (hs : Sound k s) (hempty : s.outbox = []) {o : Outcome}
    (hroom : k + o.ids < 0xffffffff) (h : s.run steps = .ok o) {n : UInt32}
    (e : Ending s steps n) : ∃ earlier later,
      o.said = earlier ++ e.destroyNotices ++ later ∧ e.reached.said <+: earlier ∧
      earlier ++ e.destroyNotices <+: e.said ∧ ∀ d ∈ earlier ++ later, d.payload ≠ .destroy n := by
  -- the run is what comes before the step, the step, and what comes after it
  rw [e.split] at h
  obtain ⟨o₁, o₂, h₁, h₂, rfl⟩ := run_append h
  obtain rfl : e.reached = o₁ := Except.ok.inj (e.run_before.symm.trans h₁)
  obtain ⟨next, sent, o₃, hx, h₃, rfl⟩ := run_cons h₂
  obtain ⟨hnext, hsent⟩ := Prod.mk.inj (Except.ok.inj (e.run_step.symm.trans hx))
  subst hnext hsent
  have hsum : k + (e.reached.ids + (e.reached.simulation.births e.step + o₃.ids)) < 0xffffffff :=
    hroom
  have hs₁ := hs.run (by omega) h₁
  obtain ⟨out₁, hsaid₁, hr₁⟩ := hs.reports_run (by omega) h₁
  obtain ⟨out₂, hsaid₂, hr₂, hm₂⟩ := hs₁.reports_step (by omega) e.run_step
  obtain ⟨out₃, hsaid₃, hr₃⟩ := (hs₁.step (by omega) e.run_step).reports_run (by omega) h₃
  rw [hempty, List.nil_append] at hsaid₁
  have hsaid : e.said = out₁ ++ out₂ := by
    rw [Ending.said, hsaid₂, ← List.append_assoc]
    exact congrArg (· ++ out₂) hsaid₁
  -- the step in which the id goes has the notices, once, and they stand between these two parts
  obtain ⟨b, a, rfl, hno⟩ := hm₂ n e.not_past e.past
  refine ⟨out₁ ++ b, a ++ out₃, ?_, ?_, ?_, fun d hd hdn => ?_⟩
  · show e.reached.sent ++ (e.sent ++ o₃.sent) ++ o₃.simulation.outbox = _
    have hlast : o₃.sent ++ o₃.simulation.outbox = e.next.outbox ++ out₃ := hsaid₃
    rw [List.append_assoc, List.append_assoc, hlast, ← List.append_assoc e.sent,
      ← List.append_assoc e.reached.sent]
    show e.said ++ out₃ = _
    rw [hsaid, Ending.destroyNotices]
    simp only [List.append_assoc]
  · rw [hsaid₁]
    exact List.prefix_append _ _
  · rw [hsaid, Ending.destroyNotices]
    exact ⟨a, by simp only [List.append_assoc]⟩
  · -- before the step the id is not past, and after it nothing past is called off
    rw [List.append_assoc, List.mem_append, ← List.append_assoc, List.mem_append] at hd
    rcases hd with hd | hd | hd
    · exact e.not_past (hr₁.ended d hd n hdn).2
    · exact hno d hd hdn
    · exact (hr₃.ended d hd n hdn).1 e.past

/-- In a new game no id is past. -/
theorem not_isPast_start (settings : Settings) (entropy : Generator) (n : UInt32) :
    ¬ (start settings entropy).world.IsPast n := by
  intro hp
  have hlt : n.toNat < 1 := hp.lt_next
  have hpos := hp.pos
  omega

/-- What has been said in a run fits to the entities that there were. -/
structure Reported (s : Simulation) (steps : List Step) (o : Outcome) : Prop where
  /-- Every datagram carries the token of the server, and announces an entity, calls one off or is
  part of a snapshot. -/
  news : ∀ d ∈ o.said, ∃ p, d.Reads p ∧ p.IsNews
  /-- When a network id becomes past, it is called off in that very step, in one go, once to each
  player who has an endpoint at that moment, and nowhere else. -/
  once : ∀ {n}, ∀ e : Ending s steps n, ∃ earlier later,
    o.said = earlier ++ e.destroyNotices ++ later ∧ e.reached.said <+: earlier ∧
    earlier ++ e.destroyNotices <+: e.said ∧ ∀ d ∈ earlier ++ later, ¬ d.Reads (.destroy n)
  /-- Whatever is called off, or is past in the end, has become past in a step. -/
  only : ∀ {n}, (∃ d ∈ o.said, d.Reads (.destroy n)) ∨ o.simulation.world.IsPast n →
    Nonempty (Ending s steps n)
  /-- After an id has been called off, nothing shows it any more, whoever the recipients are. -/
  final : ∀ {earlier d later n}, o.said = earlier ++ d :: later → d.Reads (.destroy n) →
    ∀ d' ∈ later, ∀ p, d'.Reads p → ¬ p.Shows n

/-- **What players are told fits to who is there.** In any game, as long as there have been network
ids to hand out, players hear of those who are there only, of the end of everyone who ends, once, and
of nobody after the end. -/
theorem run_reported {settings : Settings} {entropy : Generator} {steps : List Step} {o : Outcome}
    (h : (start settings entropy).run steps = .ok o) (hids : o.ids < 0xffffffff) :
    Reported (start settings entropy) steps o := by
  have hs := sound_start settings entropy
  have hreads : ∀ {d : Dispatch} {n}, d.Reads (.destroy n) ↔ d.payload = .destroy n := by
    intro d n
    rw [Dispatch.reads_iff, Payload.arrived_eq_destroy_iff]
  obtain ⟨out, hsaid, hr⟩ := hs.reports_run (by omega) h
  obtain rfl : o.said = out := hsaid
  constructor
  · intro d hd
    exact ⟨_, Dispatch.reads_iff.mpr rfl, Payload.isNews_arrived.mpr (hr.news d hd)⟩
  · intro n e
    obtain ⟨earlier, later, h₁, h₂, h₃, hno⟩ := hs.destroyNotices_of_ending rfl (by omega) h e
    exact ⟨earlier, later, h₁, h₂, h₃, fun d hd hdn => hno d hd (hreads.mp hdn)⟩
  · intro n hor
    refine exists_ending h (not_isPast_start settings entropy n) ?_
    rcases hor with ⟨d, hd, hdn⟩ | hp
    · exact (hr.ended d hd n (hreads.mp hdn)).2
    · exact hp
  · intro earlier d later n hsplit hdn d' hd' p hp hshows
    -- `final` is about any two of the list, and here it is said where the first of them stands
    have hfinal := hr.final
    rw [hsplit, List.pairwise_append, List.pairwise_cons] at hfinal
    obtain ⟨-, ⟨hlater, -⟩, -⟩ := hfinal
    rw [Dispatch.reads_iff] at hp
    subst hp
    exact hlater d' hd' n (hreads.mp hdn) (Payload.shows_arrived.mp hshows)

/-- The first avatar ends when its player comes again, and its end is announced. -/
theorem run_reported_of_reconnection : ∃ o, (start .default (.ofSeed 0)).run reconnection = .ok o ∧
    o.ids < 0xffffffff ∧ Reported (start .default (.ofSeed 0)) reconnection o ∧
    Nonempty (Ending (start .default (.ofSeed 0)) reconnection 1) := by
  obtain ⟨o, ho, hids⟩ : ∃ o, (start .default (.ofSeed 0)).run reconnection = .ok o ∧ o.ids = 3 :=
    exists_outcome (by decide +kernel)
  have hlt : o.ids < 0xffffffff := by omega
  have hreported := run_reported ho hlt
  have hany : ((start .default (.ofSeed 0)).run reconnection).toOption.all
      (fun o => o.said.any fun d => d.payload = .destroy 1) = true := by decide +kernel
  rw [ho] at hany
  obtain ⟨d, hd, hdn⟩ := List.any_eq_true.mp hany
  refine ⟨o, ho, hlt, hreported, hreported.only (.inl ⟨d, hd, ?_⟩)⟩
  rw [Dispatch.reads_iff, of_decide_eq_true hdn]
  rfl

end Simulation

end Skirmish
