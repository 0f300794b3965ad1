import Skirmish.Proofs.Endings
import Skirmish.Proofs.Unintroduced
/-!
# Whoever is announced stays who they are

A network id is handed out once, and whoever has it keeps kind, owner and name for life
(`World.Continues`). So an announcement stays true: whatever has been said of an id, no matter how long
ago, is true of whoever has it now (`World.ConfirmsSpawn`). It may come late, or twice, and does no
harm.

The name is the delicate part, since it does not stand with the entity but in the slot of its
player. It is written over when a player comes again, but then the old avatar has ended and the new
one has another id. What a step keeps is shown for the few things that a step is made of, then for
every step (`Simulation.Sound.keepsIdentities_step`), and a run has it from its steps
(`Simulation.run_identifies`).
-/

namespace Skirmish

open Wire

namespace World

variable {w w' w'' : World} {out out' : List Dispatch}

/-! ## Identities last -/

theorem map_fst_identity? (w : World) (h : Handle) :
    (w.identity? h).map Prod.fst = w.registry.get? .networkId h := by
  rw [identity?_eq, Option.map_map]
  exact Option.map_id'

/-- Whoever has a network id that had been handed out before is who they were before. -/
structure Continues (w w' : World) : Prop where
  next_le : w.nextNetworkId.toNat ≤ w'.nextNetworkId.toNat
  identity : ∀ {h n}, w'.registry.get? .networkId h = some n →
    n.toNat < w.nextNetworkId.toNat → w'.identity? h = w.identity? h

/-- An identity that has not changed has its id. -/
theorem Continues.networkId (hc : w.Continues w') {h : Handle} {n : UInt32}
    (hid : w'.registry.get? .networkId h = some n) (hlt : n.toNat < w.nextNetworkId.toNat) :
    w.registry.get? .networkId h = some n := by
  rw [← map_fst_identity?, ← hc.identity hid hlt, map_fst_identity?, hid]

theorem Continues.refl (w : World) : w.Continues w := ⟨Nat.le_refl _, fun _ _ => rfl⟩

theorem Continues.trans (h : w.Continues w') (h' : w'.Continues w'') : w.Continues w'' where
  next_le := Nat.le_trans h.next_le h'.next_le
  identity hid hlt := by
    have hlt' := Nat.lt_of_lt_of_le hlt h.next_le
    rw [h'.identity hid hlt', h.identity (h'.networkId hid hlt') hlt]

/-- Nobody comes or goes, and everyone has their name. -/
theorem continues_of_kept (hk : w.registry.Kept w'.registry)
    (hnext : w'.nextNetworkId = w.nextNetworkId)
    (hnames : ∀ q, (w'.players.get? q).map Slot.username = (w.players.get? q).map Slot.username) :
    w.Continues w' where
  next_le := Nat.le_of_eq (by rw [hnext])
  identity _ _ := identity?_congr (hk.networkId _) (hk.kind _) (hk.owner _) fun _ q _ => hnames q

theorem continues_modifySlot (w : World) (id : UInt8) {f : Slot → Slot}
    (hf : ∀ slot, (f slot).username = slot.username) : w.Continues (w.modifySlot id f) := by
  refine continues_of_kept (.refl _) rfl fun q => ?_
  rw [get?_players_modifySlot]
  split
  · rw [Option.map_map]
    congr 1
    exact funext hf
  · rfl

theorem Quiet.continues (hq : w.Quiet w') : w.Continues w' := by
  have hname : ∀ (v : World) (q : UInt8),
      (v.players.get? q).map Slot.username = (v.roll.get? q).map Slot.username := by
    intro v q
    rw [get?_roll, Option.map_map]
    rfl
  exact continues_of_kept hq.kept hq.nextNetworkId fun q => by rw [hname, hname, hq.roll]

/-- Somebody is born, with an id that nobody had before. -/
theorem continues_birth (newborn : Handle)
    (hnew : w'.registry.get? .networkId newborn = some w.nextNetworkId)
    (hnext : w.nextNetworkId.toNat ≤ w'.nextNetworkId.toNat)
    (hget : ∀ (c : ComponentType) {h : Handle}, newborn ≠ h →
      w'.registry.get? c h = w.registry.get? c h)
    (hnames : ∀ {h q}, w.registry.get? .kind h = some .player →
      (w.registry.get? .owner h).getD serverOwner = q →
        (w'.players.get? q).map Slot.username = (w.players.get? q).map Slot.username) :
    w.Continues w' where
  next_le := hnext
  identity {h n} hid hlt := by
    have hne : newborn ≠ h := by
      intro heq
      rw [← heq, hnew, Option.some.injEq] at hid
      rw [← hid] at hlt
      exact Nat.lt_irrefl _ hlt
    exact identity?_congr (hget _ hne) (hget _ hne) (hget _ hne) fun hk _ hq => hnames hk hq

theorem Embodied.continues_summon (he : w.Embodied) {k : EntityKind} {parts : List Part}
    (hp : Complete k parts) (hroom : w.nextNetworkId.toNat < 0xffffffff) :
    w.Continues (w.summon parts).2 := by
  have hnext : (w.summon parts).2.nextNetworkId.toNat = w.nextNetworkId.toNat + 1 :=
    toNat_followingId hroom
  refine continues_birth w.registry.spawn.1 ?_ (by omega)
    (fun c _ hne => get?_summon_of_ne parts c hne) fun _ _ => by rw [players_summon]
  rw [he.get?_newborn, hp.networkId]

/-- A new avatar fills a vacancy. -/
theorem Embodied.continues_spawnPlayer (he : w.Embodied) {q : UInt8} (hb : w.Bound (some q))
    (hroom : w.nextNetworkId.toNat < 0xffffffff) (t : Tuning) (username : String) :
    w.Continues (w.spawnPlayer t q username).2 := by
  have hnext : (w.spawnPlayer t q username).2.nextNetworkId.toNat =
      w.nextNetworkId.toNat + 1 := by
    rw [nextNetworkId_spawnPlayer, toNat_followingId hroom]
  refine continues_birth w.registry.spawn.1 ?_ (by omega) (fun c _ hne => ?_)
    fun hkind hown => hb.username_spawnPlayer t username hkind hown
  · rw [registry_spawnPlayer, he.get?_newborn, (complete_avatar t q).networkId]
  · rw [registry_spawnPlayer, get?_summon_of_ne _ c hne]

/-- Some are reaped, when the players are these. -/
theorem Embodied.continues_reap (he : w.Embodied) {ps : SortedMap UInt8 Slot}
    (condemned : HandleSet)
    (hnames : ∀ {h q}, h ∉ condemned → w.registry.get? .kind h = some .player →
      (w.registry.get? .owner h).getD serverOwner = q →
        (ps.get? q).map Slot.username = (w.players.get? q).map Slot.username) :
    w.Continues (({ w with players := ps } : World).reap condemned).1 where
  next_le := Nat.le_of_eq (by rw [nextNetworkId_reap])
  identity {h n} hid _ := by
    have hc : h ∉ condemned := by
      intro hc
      rw [(he.withPlayers ps).get?_reap, if_pos hc] at hid
      cases hid
    exact he.identity?_reap hc fun hk _ hq => hnames hc hk hq

/-- The avatar of a player ends. -/
theorem Embodied.continues_evict (he : w.Embodied) (hb : w.Bound none) {q : UInt8} {slot : Slot}
    {h : Handle} (hslot : w.players.get? q = some slot) (hent : slot.entity = some h)
    {ps : SortedMap UInt8 Slot} (hps : ∀ r, r ≠ q → ps.get? r = w.players.get? r) :
    w.Continues (w.evict ps h).1 :=
  he.continues_reap _ fun hk hkind hown => hb.username_of_others hslot hent hps hk hkind hown

/-! ## Announcements stay true -/

/-- The id of an announcement has been handed out, and if somebody has it, then whoever was
announced. -/
structure ConfirmsSpawn (w : World) (x : Spawn) : Prop where
  lt_next : x.networkId.toNat < w.nextNetworkId.toNat
  identity : ∀ {h}, w.registry.get? .networkId h = some x.networkId →
    w.identity? h = some (x.networkId, x.kind, x.owner, NameField.kept x.username)

/-- An announcement is true when it is made. -/
theorem Numbered.confirmsSpawn (hn : w.Numbered) {h : Handle} {x : Spawn}
    (hm : w.spawnMessage? h = some x) : w.ConfirmsSpawn x := by
  have hid : w.registry.get? .networkId h = some x.networkId := by
    obtain ⟨n, hn, rfl⟩ := Option.map_eq_some_iff.mp hm
    exact hn
  refine ⟨hn.lt_next hid, fun {h'} hid' => ?_⟩
  rw [hn.inj hid' hid, identity?, hm]
  rfl

theorem Continues.confirmsSpawn (hc : w.Continues w') {x : Spawn} (hv : w.ConfirmsSpawn x) :
    w'.ConfirmsSpawn x where
  lt_next := Nat.lt_of_lt_of_le hv.lt_next hc.next_le
  identity hid := by
    rw [hc.identity hid hv.lt_next]
    exact hv.identity (hc.networkId hid hv.lt_next)

/-- Nobody changes who they are while one world turns into another, and what is announced is true. -/
structure KeepsIdentities (w : World) (out : List Dispatch) (w' : World) : Prop where
  continues : w.Continues w'
  confirmsSpawn : ∀ d ∈ out, ∀ x, d.payload = .spawn x → w'.ConfirmsSpawn x

theorem keepsIdentities_nil (hc : w.Continues w') : w.KeepsIdentities [] w' :=
  ⟨hc, fun _ hd => absurd hd (by simp)⟩

theorem KeepsIdentities.trans (h : w.KeepsIdentities out w') (h' : w'.KeepsIdentities out' w'') :
    w.KeepsIdentities (out ++ out') w'' where
  continues := h.continues.trans h'.continues
  confirmsSpawn d hd x hx := by
    rcases List.mem_append.mp hd with hd | hd
    · exact h'.continues.confirmsSpawn (h.confirmsSpawn d hd x hx)
    · exact h'.confirmsSpawn d hd x hx

/-- Everything that is said is an announcement, made in the end. -/
theorem Numbered.keepsIdentities (hn : w'.Numbered) (hc : w.Continues w')
    (hout : ∀ d ∈ out, ∃ h x, w'.spawnMessage? h = some x ∧ d.payload = .spawn x) :
    w.KeepsIdentities out w' where
  continues := hc
  confirmsSpawn d hd x hx := by
    obtain ⟨h, x', hm, hp⟩ := hout d hd
    obtain rfl := Payload.spawn.inj (hp.symm.trans hx)
    exact hn.confirmsSpawn hm

/-- Births and changes. -/
theorem Evolves.keepsIdentities {k : Nat} (h : Evolves w out k w') (he : w.Embodied)
    (hnum : w.Numbered) (hpos : 0 < w.nextNetworkId.toNat)
    (hroom : w.nextNetworkId.toNat + k ≤ 0xffffffff) : w.KeepsIdentities out w' := by
  induction h with
  | refl => exact keepsIdentities_nil (.refl _)
  | quiet _ hq ih =>
    have hi := ih hroom
    exact ⟨hi.continues.trans hq.continues, fun d hd x hx =>
      hq.continues.confirmsSpawn (hi.confirmsSpawn d hd x hx)⟩
  | birth h hp hk ih =>
    obtain ⟨-, hnext⟩ := h.numbered he hnum hpos (by omega)
    obtain ⟨hnum', -⟩ := (h.birth hp hk).numbered he hnum hpos hroom
    refine (ih (by omega)).trans (hnum'.keepsIdentities
      ((h.embodied he).continues_summon hp (by omega)) fun d hd => ?_)
    exact ⟨_, mem_announce hd⟩

/-- The news of an end announces nobody. -/
theorem keepsIdentities_reap {v : World} {condemned : HandleSet}
    (hc : w.Continues (v.reap condemned).1) :
    w.KeepsIdentities (v.reap condemned).2 (v.reap condemned).1 where
  continues := hc
  confirmsSpawn d hd x hx := by
    obtain ⟨h, -, hd⟩ := List.mem_flatMap.mp hd
    obtain ⟨n, -, hp⟩ := mem_destroyNotices hd
    rw [hp] at hx
    cases hx

end World

namespace Simulation

open World

variable {s s' : Simulation} {k : Nat} {sent : List Dispatch} {steps : List Step}

/-! ## Steps -/

theorem Sound.keepsIdentities_connect (hs : Sound k s) (hroom : k + 1 < 0xffffffff) (id : UInt8)
    (username : String) : ∃ out, (s.connect id username).outbox = s.outbox ++ out ∧
      s.world.KeepsIdentities out (s.connect id username).world := by
  have hnext := hs.nextNetworkId
  rcases connect_cases hs.embodied hs.bound hs.condemned id username with
    ⟨hnone, heq⟩ | ⟨slot, h, hslot, hent, heq⟩
  · rw [heq]
    exact ⟨[], (List.append_nil _).symm, keepsIdentities_nil (hs.embodied.continues_spawnPlayer
      (hs.bound.vacant_of_none hnone) (by omega) s.tuning username)⟩
  · -- the old avatar has ended before the slot is written over
    obtain ⟨he, hb⟩ := hs.toSettled.evict hslot hent fun _ _ => rfl
    have hnext' : (s.world.evict s.world.players h).1.nextNetworkId.toNat = k + 1 := hnext
    have hevict :=
      keepsIdentities_reap (hs.embodied.continues_evict hs.bound hslot hent fun _ _ => rfl)
    have hborn := keepsIdentities_nil (he.continues_spawnPlayer hb (by omega) s.tuning username)
    have hboth := hevict.trans hborn
    rw [List.append_nil] at hboth
    rw [heq]
    exact ⟨_, rfl, hboth⟩

theorem Sound.keepsIdentities_disconnect (hs : Sound k s) (id : UInt8) : ∃ out,
    (s.disconnect id).outbox = s.outbox ++ out ∧
      s.world.KeepsIdentities out (s.disconnect id).world := by
  rcases disconnect_cases hs.bound hs.condemned id with ⟨-, heq⟩ | ⟨slot, h, hslot, hent, heq⟩
  · rw [heq]
    exact ⟨[], (List.append_nil _).symm, keepsIdentities_nil (.refl _)⟩
  · rw [heq]
    exact ⟨_, rfl, keepsIdentities_reap (hs.embodied.continues_evict hs.bound hslot hent fun _ hne =>
      SortedMap.get?_erase_of_ne _ hne)⟩

theorem Sound.keepsIdentities_welcome (hs : Sound k s) (id : UInt8) (endpoint : Endpoint) : ∃ out,
    (s.welcome id endpoint).outbox = s.outbox ++ out ∧
      s.world.KeepsIdentities out (s.welcome id endpoint).world := by
  have hnumbered := (hs.welcome id endpoint).numbered
  cases hslot : s.world.players.get? id with
  | none =>
    rw [welcome_of_none hslot]
    exact ⟨[], (List.append_nil _).symm, keepsIdentities_nil (.refl _)⟩
  | some slot =>
    rw [welcome_of_some hslot] at hnumbered ⊢
    refine ⟨_, rfl, hnumbered.keepsIdentities (s.world.continues_modifySlot id ?_)
      fun _ => mem_welcome⟩
    exact fun _ => rfl

theorem Sound.keepsIdentities_tick (hs : Sound k s) {dt : Single}
    (hroom : k + s.births (.tick dt) < 0xffffffff) (h : s.tick dt = .ok (s', sent)) : ∃ out,
      sent ++ s'.outbox = s.outbox ++ out ∧ s.world.KeepsIdentities out s'.world := by
  obtain ⟨w, out, condemned, hev, -, hworld, -, hout, hsent⟩ :=
    tick_cases hs.embodied hs.bound hs.condemned h
  have hnext := hs.nextNetworkId
  -- births and changes, then ends, then perhaps a snapshot
  have hborn := hev.keepsIdentities hs.embodied hs.numbered (by omega) (by omega)
  have hreaped : w.KeepsIdentities (w.reap condemned).2 (w.reap condemned).1 := keepsIdentities_reap
    ((hev.embodied hs.embodied).continues_reap condemned fun _ _ _ => rfl)
  -- a snapshot announces nobody
  have hpicture : s'.world.KeepsIdentities (s'.edition (s.isDue dt)) s'.world := by
    refine ⟨.refl _, fun d hd x hx => ?_⟩
    unfold edition at hd
    split at hd
    · obtain ⟨b, -, hp⟩ := mem_snapshot hd
      rw [hp] at hx
      cases hx
    · exact absurd hd (by simp)
  rw [hworld] at hpicture ⊢
  refine ⟨out ++ ((w.reap condemned).2 ++ s'.edition (s.isDue dt)), ?_,
    hborn.trans (hreaped.trans hpicture)⟩
  rw [hout, hsent]
  simp only [List.append_nil, List.append_assoc]

/-- **Nobody changes who they are in a step**, and whoever is announced in it is who was announced. -/
theorem Sound.keepsIdentities_step (hs : Sound k s) {x : Step} (hroom : k + s.births x < 0xffffffff)
    (h : s.step x = .ok (s', sent)) : ∃ out,
      sent ++ s'.outbox = s.outbox ++ out ∧ s.world.KeepsIdentities out s'.world := by
  cases x with
  | tick dt => exact hs.keepsIdentities_tick hroom h
  | event e =>
    cases h
    simp only [List.nil_append]
    cases e with
    | connected id username => exact hs.keepsIdentities_connect hroom id username
    | udpReady id endpoint => exact hs.keepsIdentities_welcome id endpoint
    | disconnected id => exact hs.keepsIdentities_disconnect id
    | endpointChanged id endpoint =>
      exact ⟨[], (List.append_nil _).symm, keepsIdentities_nil (s.world.continues_modifySlot id
        (f := fun slot => { slot with endpoint := some endpoint }) fun _ => rfl)⟩
    | input id i =>
      exact ⟨[], (List.append_nil _).symm, keepsIdentities_nil (s.world.continues_modifySlot id
        (f := fun slot => { slot with pending := some i }) fun _ => rfl)⟩

/-- **Announcements stay true.** Whatever a new game has announced, if somebody has the id in the end,
then whoever was announced under it, as the datagram is read. -/
theorem run_identifies {settings : Settings} {entropy : Generator} {o : Outcome}
    (h : (start settings entropy).run steps = .ok o) (hids : o.ids < 0xffffffff) {d : Dispatch}
    (hd : d ∈ o.said) {x : Spawn} (hx : d.Reads (.spawn x)) {who : Handle}
    (hid : o.simulation.world.registry.get? .networkId who = some x.networkId) :
    o.simulation.world.identity? who = some (x.networkId, x.kind, x.owner, x.username) := by
  obtain ⟨out, hsaid, hu⟩ := Sound.said_run (R := KeepsIdentities)
    (fun _ => keepsIdentities_nil (.refl _))
    KeepsIdentities.trans (fun hs hroom hx => hs.keepsIdentities_step hroom hx)
    (sound_start settings entropy) (by omega) h
  obtain rfl : o.said = out := hsaid
  rw [Dispatch.reads_iff] at hx
  cases hp : d.payload with
  | spawn x' =>
    rw [hp] at hx
    obtain rfl := Payload.spawn.inj hx
    exact (hu.confirmsSpawn d hd x' hp).identity hid
  | update | destroy | batch | input | ping | pong =>
    rw [hp] at hx
    cases hx

end Simulation

end Skirmish
