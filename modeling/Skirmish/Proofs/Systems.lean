import Skirmish.Proofs.Evolution
/-!
# The parts of a step

One statement for each part of a step of time. Steering and the wave are births with changes in place
(`steer_evolves`, `sendWave_evolves`), motion, age and damage are changes in place (`move_quiet`,
`age_quiet`, `collide_quiet`), and whoever is condemned is a bullet or an enemy. A step is cut in two where
the collisions begin (`Simulation.tick_eq`); `Simulation.tick_cases` puts everything together.
-/

namespace Skirmish

open World

/-! ## Keys -/

theorem SortedMap.keys_nodup {κ α : Type} [Ranked κ] (m : SortedMap κ α) : m.keys.Nodup := by
  refine List.Pairwise.imp (R := fun a b : κ => rank a < rank b) ?_ ?_
  · rintro a b hlt rfl
    exact Nat.lt_irrefl _ hlt
  · exact List.pairwise_map.mpr m.ascending

namespace World

variable {w : World}

/-! ## Steering -/

/-- In a world in order, the entity of a player is there, and firing is a matter of the slot. -/
theorem playerEntity?_of_slot (he : w.Embodied) (hb : w.Bound none) {q : UInt8} {slot : Slot}
    (hslot : w.players.get? q = some slot) : ∃ h, slot.entity = some h ∧
      w.playerEntity? q = some h ∧ w.registry.get? .kind h = some .player := by
  obtain ⟨h, hent, hkind, -⟩ := hb.of_slot hslot (by simp)
  refine ⟨h, hent, ?_, hkind⟩
  simp [playerEntity?, hslot, hent, he.isAlive_of_get? hkind]

theorem fires_eq (he : w.Embodied) (hb : w.Bound none) (t : Tuning) (now : Double) (q : UInt8) :
    w.fires t now q = (w.players.get? q).any fun slot =>
      slot.pending.any Wire.Input.shoots && isReady t now slot := by
  unfold fires
  cases hslot : w.players.get? q with
  | none => rfl
  | some slot =>
    obtain ⟨h, -, hp, hkind⟩ := playerEntity?_of_slot he hb hslot
    have hpos : w.registry.has .position h = true :=
      (he.isSome_iff hkind .position).mpr (by simp [EntityKind.anatomy])
    simp [hp, hpos]

theorem get?_players_modifySlot (id q : UInt8) (f : Slot → Slot) :
    (w.modifySlot id f).players.get? q =
      if id = q then (w.players.get? q).map f else w.players.get? q :=
  SortedMap.get?_modify _ _ _ _

/-- The world in which a player has just fired, but for the bullet. -/
def reloading (w : World) (now : Double) (id : UInt8) : World :=
  w.modifySlot id fun s => { s with lastShot := some now }

theorem quiet_reloading (w : World) (now : Double) (id : UInt8) : w.Quiet (w.reloading now id) :=
  w.quiet_modifySlot id fun _ => rfl

theorem fire_fst (t : Tuning) (now : Double) (endpoints : List Endpoint) (id : UInt8)
    (origin : Vector2) : (w.fire t now endpoints id origin).1 =
      ((w.reloading now id).summon (bulletParts t id origin)).2 := by
  rw [fire, reloading]
  simp only [spawnBullet_eq]

theorem fire_snd (t : Tuning) (now : Double) (id : UInt8) (origin : Vector2) :
    (w.fire t now w.endpoints id origin).2 =
      ((w.reloading now id).summon (bulletParts t id origin)).2.announce
        (w.reloading now id).registry.spawn.1 := by
  have hends : ((w.reloading now id).summon (bulletParts t id origin)).2.endpoints =
      w.endpoints := by
    rw [endpoints_summon, endpoints_congr (w.quiet_reloading now id).roll]
  rw [announce, hends, fire]
  cases hm : ((w.reloading now id).summon (bulletParts t id origin)).2.spawnMessage?
      (w.reloading now id).registry.spawn.1 with
  | none =>
    rw [reloading] at hm
    simp only [spawnBullet_eq, summon_fst, hm]
  | some message =>
    rw [reloading] at hm
    simp only [spawnBullet_eq, summon_fst, hm]

/-- A shot is a birth, announced to everyone. -/
theorem fire_evolves (t : Tuning) (now : Double) (id : UInt8) (origin : Vector2) :
    Evolves w (w.fire t now w.endpoints id origin).2 1 (w.fire t now w.endpoints id origin).1 := by
  have hbirth := (Evolves.of_quiet (w.quiet_reloading now id)).birth
    (complete_bullet t id origin) (by simp)
  rw [List.nil_append] at hbirth
  rw [fire_fst, fire_snd]
  exact hbirth

/-- The world in which a player's input has been taken and the avatar has turned. -/
def turned (w : World) (id : UInt8) (h : Handle) (v : Vector2) : World :=
  let w := w.modifySlot id fun s => { s with pending := none }
  { w with registry := w.registry.insert .velocity h v }

theorem quiet_turned (id : UInt8) {h : Handle} (hvel : (w.registry.get? .velocity h).isSome)
    (v : Vector2) : w.Quiet (w.turned id h v) := by
  have hq : w.Quiet (w.modifySlot id fun s => { s with pending := none }) :=
    w.quiet_modifySlot id fun _ => rfl
  exact hq.trans (quiet_of_kept (Registry.kept_insert_velocity hvel v))

/-- What becomes of a player's input. If there is none, nothing happens. Otherwise the avatar turns,
and the player fires if the trigger is held and the wait after the last shot is over. -/
theorem steerPlayer_cases (he : w.Embodied) (hb : w.Bound none) (t : Tuning) (now : Double)
    (endpoints : List Endpoint) (id : UInt8) :
    ((w.players.get? id).bind Slot.pending = none ∧
      w.steerPlayer t now endpoints id = (w, [])) ∨
    ∃ slot i h origin, w.players.get? id = some slot ∧ slot.pending = some i ∧
      slot.entity = some h ∧ w.registry.get? .kind h = some .player ∧
      w.registry.get? .position h = some origin ∧
      w.steerPlayer t now endpoints id =
        if i.shoots && isReady t now slot then
          (w.turned id h (steeredVelocity t i)).fire t now endpoints id origin
        else (w.turned id h (steeredVelocity t i), []) := by
  unfold steerPlayer
  cases hslot : w.players.get? id with
  | none => exact .inl ⟨rfl, rfl⟩
  | some slot =>
    rw [Option.bind_some]
    cases hpend : slot.pending with
    | none => exact .inl ⟨rfl, rfl⟩
    | some i =>
      -- the input is taken out of the slot, the avatar stays in it
      let w₁ := w.modifySlot id fun s => { s with pending := none }
      have hq₁ : w.Quiet w₁ := w.quiet_modifySlot id fun _ => rfl
      have hslot₁ : w₁.players.get? id = some { slot with pending := none } := by
        rw [get?_players_modifySlot, if_pos rfl, hslot, Option.map_some]
      obtain ⟨h, hent, hp, hkind⟩ :=
        playerEntity?_of_slot (he.of_kept hq₁.kept) (hb.of_quiet hq₁) hslot₁
      obtain ⟨origin, hpos⟩ := he.get?_of_mem (c := .position) hkind (by simp [EntityKind.anatomy])
      refine .inr ⟨slot, i, h, origin, rfl, hpend, hent, hkind, hpos, ?_⟩
      show w₁.obey t now endpoints id i = _
      have hpos' : (w₁.registry.insert .velocity h (steeredVelocity t i)).get? .position h =
          some origin := by
        rw [Registry.get?_insert_of_ne _ _ (.inl (by decide))]
        exact hpos
      rw [obey, hp]
      simp only [hslot₁, Option.map_some, Option.getD_some, hpos']
      rfl

/-- What one player's input does. -/
theorem steerPlayer_evolves (he : w.Embodied) (hb : w.Bound none) (t : Tuning) (now : Double)
    (id : UInt8) :
    Evolves w (w.steerPlayer t now w.endpoints id).2 (if w.fires t now id then 1 else 0)
      (w.steerPlayer t now w.endpoints id).1 := by
  rw [fires_eq he hb]
  rcases steerPlayer_cases he hb t now w.endpoints id with
    ⟨hnone, heq⟩ | ⟨slot, i, h, origin, hslot, hpend, -, hkind, -, heq⟩
  · rw [heq]
    cases hslot : w.players.get? id with
    | none => exact .refl w
    | some slot =>
      rw [hslot, Option.bind_some] at hnone
      simpa [hnone] using Evolves.refl w
  · -- turning changes a velocity and nothing else, and then there may be a bullet
    have hvel := (he.isSome_iff hkind .velocity).mpr (by simp [EntityKind.anatomy])
    have hq := w.quiet_turned id hvel (steeredVelocity t i)
    rw [heq, hslot, Option.any_some, hpend, Option.any_some]
    split
    · rw [← endpoints_congr hq.roll]
      have := (Evolves.of_quiet hq).trans (fire_evolves t now id origin)
      simpa using this
    · exact .of_quiet hq

/-- Steering one player does not touch the slots of others. -/
theorem get?_players_steerPlayer (t : Tuning) (now : Double) (endpoints : List Endpoint)
    {id q : UInt8} (hne : id ≠ q) :
    (w.steerPlayer t now endpoints id).1.players.get? q = w.players.get? q := by
  have hmod : ∀ (v : World) (f : Slot → Slot),
      (v.modifySlot id f).players.get? q = v.players.get? q := by
    intro v f
    rw [get?_players_modifySlot, if_neg hne]
  -- every part of a turn changes the slot of this player and no other one
  unfold steerPlayer
  split
  · rfl
  · unfold obey
    split
    · exact hmod _ _
    · dsimp only
      split
      · split
        · rw [fire_fst, players_summon, reloading, hmod]
          exact hmod _ _
        · exact hmod _ _
      · exact hmod _ _

theorem steerPlayers_evolves (t : Tuning) (now : Double) {ids : List UInt8} (hnd : ids.Nodup) :
    ∀ {w : World}, w.Embodied → w.Bound none →
      Evolves w (steerPlayers t now w.endpoints ids w).2 (ids.filter (w.fires t now)).length
        (steerPlayers t now w.endpoints ids w).1 := by
  induction ids with
  | nil => exact fun _ _ => .refl _
  | cons id rest ih =>
    intro w he hb
    obtain ⟨hid, hnd'⟩ := List.nodup_cons.mp hnd
    have hfirst := steerPlayer_evolves he hb t now id
    let w₁ := (w.steerPlayer t now w.endpoints id).1
    have he₁ : w₁.Embodied := hfirst.embodied he
    have hb₁ : w₁.Bound none := hfirst.bound he hb
    have hends : w₁.endpoints = w.endpoints := endpoints_congr hfirst.roll
    -- nobody who comes later is affected
    have hlater : rest.filter (w₁.fires t now) = rest.filter (w.fires t now) := by
      refine List.filter_congr fun q hq => ?_
      have hne : id ≠ q := fun e => hid (e ▸ hq)
      rw [fires_eq he₁ hb₁, fires_eq he hb, get?_players_steerPlayer t now _ hne]
    have hmore := ih hnd' he₁ hb₁
    rw [hends, hlater] at hmore
    have hcount : ((id :: rest).filter (w.fires t now)).length =
        (if w.fires t now id then 1 else 0) + (rest.filter (w.fires t now)).length := by
      rw [List.filter_cons]
      split
      · rw [List.length_cons, Nat.add_comm]
      · rw [Nat.zero_add]
    rw [hcount]
    exact hfirst.trans hmore

theorem steer_evolves (he : w.Embodied) (hb : w.Bound none) (t : Tuning) (now : Double) :
    Evolves w (w.steer t now).2 (w.shooters t now).length (w.steer t now).1 :=
  steerPlayers_evolves t now w.players.keys_nodup he hb

/-! ## The wave -/

theorem receiveEnemy_eq (t : Tuning) (y : Single) : w.receiveEnemy t y =
    ((w.summon (enemyParts t y)).2,
      (w.summon (enemyParts t y)).2.announce w.registry.spawn.1) := by
  rw [receiveEnemy, announce]
  cases hm : (w.summon (enemyParts t y)).2.spawnMessage? w.registry.spawn.1 with
  | none => simp only [spawnEnemy_eq, summon_fst, hm]
  | some message => simp only [spawnEnemy_eq, summon_fst, hm]

/-- The wave brings nobody, or an enemy who is announced. -/
theorem sendWave_cases {wave wave' : Wave} {t : Tuning} {g g' : Generator} {dt : Single}
    {w' : World} {out : List Dispatch}
    (h : w.sendWave wave t g dt = .ok ((w', out), wave', g')) :
    (wave.arrivals t g dt = 0 ∧ w' = w ∧ out = []) ∨
    ∃ y, wave.arrivals t g dt = 1 ∧ w' = (w.summon (enemyParts t y)).2 ∧
      out = (w.summon (enemyParts t y)).2.announce w.registry.spawn.1 := by
  unfold sendWave at h
  unfold Wave.arrivals
  -- the wave either brings one enemy to a place or nobody at all
  cases hadv : wave.advance t g dt with
  | error cause =>
    rw [hadv] at h
    cases h
  | ok r =>
    obtain ⟨place, wave₁, g₁⟩ := r
    rw [hadv] at h
    cases place with
    | none =>
      simp only [Except.map, Except.ok.injEq, Prod.mk.injEq] at h
      obtain ⟨⟨rfl, rfl⟩, -, -⟩ := h
      exact .inl ⟨rfl, rfl, rfl⟩
    | some y =>
      simp only [Except.map, Except.ok.injEq, receiveEnemy_eq, Prod.mk.injEq] at h
      obtain ⟨⟨rfl, rfl⟩, -, -⟩ := h
      exact .inr ⟨y, rfl, rfl, rfl⟩

theorem sendWave_evolves {wave wave' : Wave} {t : Tuning} {g g' : Generator} {dt : Single}
    {w' : World} {out : List Dispatch}
    (h : w.sendWave wave t g dt = .ok ((w', out), wave', g')) :
    Evolves w out (wave.arrivals t g dt) w' := by
  rcases sendWave_cases h with ⟨hn, hw, hout⟩ | ⟨y, hn, hw, hout⟩
  · rw [hn, hw, hout]
    exact .refl w
  · rw [hn, hw, hout]
    have := (Evolves.refl w).birth (complete_enemy t y) (by simp)
    rwa [List.nil_append] at this

/-! ## Motion, age and damage -/

theorem move_quiet {t : Tuning} {dt : Single} {w' : World} (h : w.move? t dt = some w') :
    w.Quiet w' := by
  obtain ⟨positions, hp, rfl⟩ := Option.map_eq_some_iff.mp h
  refine quiet_of_kept (Registry.kept_setColumn (.inl rfl) fun k => ?_)
  rw [Column.get?_of_change? hp]
  show ((w.registry.get? .position k).bind _).isSome = _
  cases hk : w.registry.get? .position k with
  | none => rfl
  | some a =>
    -- the column could be changed, so each of its components could
    cases hf : w.nextPosition t dt k a with
    | some b => simp [hf]
    | none =>
      have := Column.change?_eq_none_iff.mpr ⟨k, a, hk, hf⟩
      rw [hp] at this
      exact absurd this (by simp)

theorem age_quiet (w : World) (dt : Single) : w.Quiet (w.age dt) := by
  refine quiet_of_kept (Registry.kept_setColumn (.inr (.inr rfl)) fun k => ?_)
  rw [Column.get?_map, Option.isSome_map]
  rfl

theorem kept_foldl_modify (hits : List Hit) (r : Registry ComponentType.Value) :
    r.Kept (hits.foldl (fun r hit =>
      r.modify .health hit.target.handle fun health => health.hit hit.shot.damage) r) := by
  induction hits generalizing r with
  | nil => exact .refl r
  | cons hit rest ih => exact (Registry.kept_modify_health r _ _).trans (ih _)

theorem collide_quiet (w : World) (t : Tuning) : w.Quiet (w.collide t).1 :=
  quiet_of_kept (kept_foldl_modify _ _)

/-! ## The condemned -/

/-- Whoever is listed under a kind is of that kind. -/
theorem mem_ofKind {k : EntityKind} {h : Handle} :
    h ∈ w.ofKind k ↔ w.registry.get? .kind h = some k := by
  simp only [ofKind, List.mem_map, List.mem_filter, Prod.exists, decide_eq_true_eq]
  constructor
  · intro hex
    obtain ⟨h', k', ⟨hm, rfl⟩, rfl⟩ := hex
    exact Registry.mem_entries.mp hm
  · intro hk
    exact ⟨h, k, ⟨Registry.mem_entries.mpr hk, rfl⟩, rfl⟩

/-- Nobody is listed twice. -/
theorem ofKind_nodup (w : World) (k : EntityKind) : (w.ofKind k).Nodup := by
  have hhandles : ((w.registry.entries .kind).map Prod.fst).Nodup := by
    refine List.pairwise_map.mpr ((Column.entries_ascending _).imp fun {a b} hlt heq => ?_)
    rw [heq] at hlt
    exact Nat.lt_irrefl _ hlt
  exact hhandles.sublist (List.filter_sublist.map _)

theorem kind_of_mem_shots {t : Tuning} {shot : Shot} (h : shot ∈ w.shots t) :
    w.registry.get? .kind shot.handle = some .playerBullet := by
  rw [shots, List.mem_mergeSort, List.mem_filterMap] at h
  obtain ⟨k, hk, hs⟩ := h
  obtain ⟨b, -, rfl⟩ := Option.map_eq_some_iff.mp hs
  exact mem_ofKind.mp hk

theorem kind_of_mem_targets {target : Target} (h : target ∈ w.targets) :
    w.registry.get? .kind target.handle = some .enemy := by
  rw [targets, List.mem_mergeSort, List.mem_filterMap] at h
  obtain ⟨k, hk, hs⟩ := h
  obtain ⟨b, -, hb⟩ := Option.bind_eq_some_iff.mp hs
  obtain ⟨x, -, rfl⟩ := Option.map_eq_some_iff.mp hb
  exact mem_ofKind.mp hk

theorem leastBy_mem {α : Type} {measure : α → Int} {as : List α} {a : α}
    (h : leastBy measure as = some a) : a ∈ as := by
  cases as with
  | nil => cases h
  | cons b rest =>
    -- the fold starts from the first of the list, so the least so far is that one or in the rest
    have key : ∀ (l : List α) (best : α),
        l.foldl (fun best b => if measure b < measure best then b else best) best = best ∨
          l.foldl (fun best b => if measure b < measure best then b else best) best ∈ l := by
      intro l
      induction l with
      | nil => exact fun _ => .inl rfl
      | cons c l ih =>
        intro best
        rw [List.foldl_cons]
        rcases ih (if measure c < measure best then c else best) with he | hm
        · rw [he]
          split
          · exact .inr List.mem_cons_self
          · exact .inl rfl
        · exact .inr (List.mem_cons_of_mem _ hm)
    have ha := Option.some.inj h
    rcases key rest b with he | hm
    · rw [← ha, he]
      exact List.mem_cons_self
    · exact List.mem_cons_of_mem _ (ha ▸ hm)

theorem choose?_mem {policy : HitPolicy} {shot : Shot} {targets : List Target} {target : Target}
    (h : policy.choose? shot targets = some target) : target ∈ targets := by
  cases policy with
  | oldestFirst => exact (List.mem_filter.mp (List.mem_of_mem_head? h)).1
  | nearest => exact (List.mem_filter.mp (leastBy_mem h)).1

/-- A volley has only the given bullets strike only the given enemies, whatever is left of them. -/
theorem mem_volley {policy : HitPolicy} {shots : List Shot} {targets : List Target} {hit : Hit}
    (h : hit ∈ volley policy shots targets) :
    hit.shot ∈ shots ∧ hit.target.handle ∈ targets.map Target.handle := by
  induction shots generalizing targets with
  | nil => simp [volley] at h
  | cons shot rest ih =>
    unfold volley at h
    split at h
    · exact ⟨List.mem_cons_of_mem _ (ih h).1, (ih h).2⟩
    · rename_i target hchoice
      rcases List.mem_cons.mp h with rfl | h
      · exact ⟨List.mem_cons_self, List.mem_map_of_mem (choose?_mem hchoice)⟩
      · obtain ⟨h1, h2⟩ := ih h
        refine ⟨List.mem_cons_of_mem _ h1, ?_⟩
        -- a hit changes what is left of the enemies, not who they are
        have happ : ((Hit.mk shot target).applied targets).map Target.handle =
            targets.map Target.handle := by
          rw [Hit.applied, List.map_map]
          refine List.map_congr_left fun x _ => ?_
          dsimp only [Function.comp]
          split <;> rfl
        rwa [happ] at h2

/-- What has outlived its time is a bullet. -/
theorem kind_of_mem_expired (he : w.Embodied) {h : Handle} (hm : h ∈ w.expired) :
    w.registry.get? .kind h = some .playerBullet := by
  simp only [expired, List.mem_map, List.mem_filter, Prod.exists] at hm
  obtain ⟨h', x, ⟨hmem, -⟩, rfl⟩ := hm
  exact he.kind_of_lifetime (Registry.mem_entries.mp hmem)

/-- Collisions condemn bullets and enemies. -/
theorem kind_of_mem_collide {t : Tuning} {h : Handle} (hm : h ∈ (w.collide t).2) :
    w.registry.get? .kind h = some .playerBullet ∨ w.registry.get? .kind h = some .enemy := by
  have hm : h ∈ (w.hits t).flatMap condemnedBy ++ w.departed t := hm
  rcases List.mem_append.mp hm with hm | hm
  · -- of those who meet, the bullet is condemned and perhaps the enemy
    -- a hit has its bullet and its enemy among those who take part
    obtain ⟨hit, hhit, hh⟩ := List.mem_flatMap.mp hm
    obtain ⟨hshot, htarget⟩ := mem_volley hhit
    rw [condemnedBy, List.mem_cons] at hh
    rcases hh with rfl | hh
    · exact .inl (kind_of_mem_shots hshot)
    · obtain ⟨target, ht, he⟩ := List.mem_map.mp htarget
      split at hh
      · rw [List.mem_singleton] at hh
        rw [hh, ← he]
        exact .inr (kind_of_mem_targets ht)
      · exact absurd hh (by simp)
  · -- the others have left the field
    rcases List.mem_append.mp hm with hm | hm
    · obtain ⟨shot, hs, rfl⟩ := List.mem_map.mp hm
      exact .inl (kind_of_mem_shots (List.mem_filter.mp hs).1)
    · obtain ⟨target, ht, rfl⟩ := List.mem_map.mp hm
      exact .inr (kind_of_mem_targets (List.mem_filter.mp ht).1)

/-! ## Reaping -/

/-- No avatar is condemned. -/
def SparesAvatars (w : World) (condemned : HandleSet) : Prop :=
  ∀ h ∈ condemned, w.registry.get? .kind h ≠ some .player

/-- Whoever is condemned in a step is a bullet or an enemy. -/
theorem sparesAvatars_condemned (he : w.Embodied) (t : Tuning) : (w.collide t).1.SparesAvatars
    (((∅ : HandleSet).insertAll w.expired).insertAll (w.collide t).2) := by
  intro k hk hplayer
  rw [(w.collide_quiet t).kept.kind] at hplayer
  rw [HandleSet.mem_insertAll, HandleSet.mem_insertAll] at hk
  rcases hk with hk | hk | hk
  · rcases kind_of_mem_collide hk with hk | hk <;> rw [hk] at hplayer <;> cases hplayer
  · rw [kind_of_mem_expired he hk] at hplayer
    cases hplayer
  · exact HandleSet.not_mem_empty _ hk

theorem mem_reaped {condemned : HandleSet} {h : Handle} :
    h ∈ w.reaped condemned ↔ h ∈ condemned ∧ w.registry.isAlive h = true := by
  rw [reaped, List.mem_filter, HandleSet.mem_toList]

@[simp]
theorem nextNetworkId_reap (condemned : HandleSet) :
    (w.reap condemned).1.nextNetworkId = w.nextNetworkId := rfl

theorem isAlive_reap (condemned : HandleSet) (h : Handle) :
    (w.reap condemned).1.registry.isAlive h =
      if h ∈ condemned then false else w.registry.isAlive h := by
  show (w.registry.destroyAll (w.reaped condemned)).isAlive h = _
  rw [Registry.isAlive_destroyAll]
  by_cases hc : h ∈ condemned
  · cases ha : w.registry.isAlive h <;> simp [mem_reaped, hc, ha]
  · simp [mem_reaped, hc]

theorem Embodied.get?_reap (he : w.Embodied) (condemned : HandleSet) (c : ComponentType)
    (h : Handle) : (w.reap condemned).1.registry.get? c h =
      if h ∈ condemned then none else w.registry.get? c h := by
  show (w.registry.destroyAll (w.reaped condemned)).get? c h = _
  rw [Registry.get?_destroyAll]
  by_cases hc : h ∈ condemned
  · cases ha : w.registry.isAlive h with
    | true => simp [mem_reaped, hc, ha]
    | false => simp [mem_reaped, hc, ha, he.of_dead ha]
  · simp [mem_reaped, hc]

theorem Embodied.reap (he : w.Embodied) (condemned : HandleSet) :
    (w.reap condemned).1.Embodied where
  pool := Registry.valid_destroyAll _ he.pool
  -- by the fields: whoever is dead has nothing, and whoever is alive is as before or has been
  -- reaped
  of_dead {h} ha c := by
    rw [he.get?_reap]
    rw [isAlive_reap] at ha
    split
    · rfl
    · rename_i hc
      rw [if_neg hc] at ha
      exact he.of_dead ha c
  of_alive {h} ha := by
    rw [isAlive_reap] at ha
    split at ha
    · exact absurd ha (by simp)
    · rename_i hc
      obtain ⟨k, hk, hp⟩ := he.of_alive ha
      exact ⟨k, by rw [he.get?_reap, if_neg hc, hk],
        fun c => by rw [he.get?_reap, if_neg hc, hp]⟩
  health_le {h x} hx := by
    rw [he.get?_reap] at hx
    split at hx
    · exact absurd hx (by simp)
    · exact he.health_le hx

theorem Numbered.reap (hn : w.Numbered) (he : w.Embodied) (condemned : HandleSet) :
    (w.reap condemned).1.Numbered := by
  have hold : ∀ {h n}, (w.reap condemned).1.registry.get? .networkId h = some n →
      w.registry.get? .networkId h = some n := by
    intro h n hh
    rw [he.get?_reap] at hh
    split at hh
    · exact absurd hh (by simp)
    · exact hh
  exact ⟨fun h1 h2 => hn.inj (hold h1) (hold h2), fun h => hn.pos (hold h),
    fun h => hn.lt_next (hold h)⟩

/-- Reaping that spares the avatars leaves the slots alone. -/
theorem players_reap (hb : w.Bound none) {condemned : HandleSet}
    (hs : w.SparesAvatars condemned) : (w.reap condemned).1.players = w.players := by
  refine SortedMap.ext_get? fun q => ?_
  show (w.players.map fun _ => releasedFrom (w.reaped condemned)).get? q = _
  rw [SortedMap.get?_map]
  cases hslot : w.players.get? q with
  | none => rfl
  | some slot =>
    obtain ⟨h, hent, hkind, -⟩ := hb.of_slot hslot (by simp)
    have hgone : h ∉ w.reaped condemned := fun hm => hs h (mem_reaped.mp hm).1 hkind
    simp [releasedFrom, hent, hgone]

theorem Bound.reap (hb : w.Bound none) (he : w.Embodied) {condemned : HandleSet}
    (hs : w.SparesAvatars condemned) : (w.reap condemned).1.Bound none := by
  have hplayers := players_reap hb hs
  constructor
  · intro q slot hslot hv
    rw [hplayers] at hslot
    obtain ⟨h, hent, hkind, howner⟩ := hb.of_slot hslot hv
    have hc : h ∉ condemned := fun hm => hs h hm hkind
    exact ⟨h, hent, by rw [he.get?_reap, if_neg hc, hkind],
      by rw [he.get?_reap, if_neg hc, howner]⟩
  · intro h hkind
    rw [he.get?_reap] at hkind
    split at hkind
    · exact absurd hkind (by simp)
    · rename_i hc
      obtain ⟨q, slot, howner, hv, hslot, hent⟩ := hb.of_avatar hkind
      exact ⟨q, slot, by rw [he.get?_reap, if_neg hc, howner], hv, by rw [hplayers, hslot], hent⟩

end World

/-! ## The whole step -/

namespace Simulation

variable {s s' m : Simulation} {dt : Single}

/-! ### As far as the collisions -/

/-- A step of time, as far as the collisions. -/
def approach (s : Simulation) (dt : Single) : Except StepFault Simulation := do
  let s ← (s.passTime dt).steer.sendWave dt
  let s ← s.move dt
  return s.age dt

/-- A step of time goes as far as the collisions, settles them, and reaps. -/
theorem tick_eq (s : Simulation) (dt : Single) :
    s.tick dt = (s.approach dt).map fun m => (m.collide.reap.publish dt).flush := by
  simp only [tick, approach, bind, Except.bind]
  cases (s.passTime dt).steer.sendWave dt with
  | error cause => rfl
  | ok swept =>
    dsimp only
    cases swept.move dt <;> rfl

theorem approach_of_tick {sent : List Dispatch} (h : s.tick dt = .ok (s', sent)) :
    ∃ m, s.approach dt = .ok m ∧ (m.collide.reap.publish dt).flush = (s', sent) := by
  rw [tick_eq] at h
  cases hm : s.approach dt with
  | error cause =>
    rw [hm] at h
    cases h
  | ok m =>
    rw [hm] at h
    exact ⟨m, rfl, Except.ok.inj h⟩

/-- The wave goes on, then everything moves and ages. -/
theorem approach_cases (h : s.approach dt = .ok m) : ∃ swept w,
    (s.passTime dt).steer.sendWave dt = .ok swept ∧ swept.world.move? swept.tuning dt = some w ∧
      m = { swept with world := w }.age dt := by
  simp only [approach, bind, Except.bind] at h
  split at h
  · cases h
  · rename_i swept hswept
    split at h
    · cases h
    · rename_i moved hmoved
      unfold move at hmoved
      split at hmoved
      · rename_i w hw
        obtain rfl := Except.ok.inj hmoved
        exact ⟨swept, w, hswept, hw, (Except.ok.inj h).symm⟩
      · cases hmoved

theorem sendWave_of_ok (h : s.sendWave dt = .ok m) : ∃ w out wave g,
    s.world.sendWave s.wave s.tuning s.generator dt = .ok ((w, out), wave, g) ∧
      m = { s with wave, generator := g, world := w }.say out := by
  unfold sendWave at h
  split at h
  · cases h
  · rename_i w out wave g hwave
    exact ⟨w, out, wave, g, hwave, (Except.ok.inj h).symm⟩

/-- The worlds on the way to the collisions. -/
theorem approach_stages (h : s.approach dt = .ok m) : ∃ w₁ w₂ out wave g,
    (s.world.steer s.tuning (s.clock + dt.toDouble)).1.sendWave s.wave s.tuning s.generator dt =
      .ok ((w₁, out), wave, g) ∧
    w₁.move? s.tuning dt = some w₂ ∧ m.world = w₂.age dt ∧ m.tuning = s.tuning ∧
    m.clock = s.clock + dt.toDouble ∧ m.condemned = s.condemned.insertAll m.world.expired := by
  obtain ⟨swept, w₂, hswept, hmove, rfl⟩ := approach_cases h
  obtain ⟨w₁, out, wave, g, hwave, rfl⟩ := sendWave_of_ok hswept
  exact ⟨w₁, w₂, out, wave, g, hwave, hmove, rfl, rfl, rfl, rfl⟩

/-! ### As far as it goes -/

/-- A snapshot goes out at the end of the coming step. -/
def isDue (s : Simulation) (dt : Single) : Bool :=
  s.broadcastPeriod ≤ s.sinceSnapshot + dt + spanSlack

/-- What a snapshot in this state says, if it is sent. -/
def edition (s : Simulation) (due : Bool) : List Dispatch := if due then s.world.snapshot else []

theorem publish_eq (s : Simulation) (dt : Single) : ∃ rest,
    s.publish dt = { s with sinceSnapshot := rest }.say (s.edition (s.isDue dt)) := by
  unfold publish edition isDue
  dsimp only
  by_cases h : s.broadcastPeriod ≤ s.sinceSnapshot + dt + spanSlack
  · rw [if_pos h, decide_eq_true h]
    exact ⟨_, rfl⟩
  · rw [if_neg h, decide_eq_false h]
    refine ⟨s.sinceSnapshot + dt, ?_⟩
    simp [say]

/-- Snapshots make no difference to the world. -/
theorem world_publish (s : Simulation) (dt : Single) :
    (s.publish dt).world = s.world ∧ (s.publish dt).tuning = s.tuning := by
  obtain ⟨rest, hpub⟩ := s.publish_eq dt
  rw [hpub]
  exact ⟨rfl, rfl⟩

/-- The worlds that a step of time goes through. -/
theorem tick_stages {sent : List Dispatch} (h : s.tick dt = .ok (s', sent)) :
    ∃ w₁ w₂ out wave g,
      (s.world.steer s.tuning (s.clock + dt.toDouble)).1.sendWave s.wave s.tuning s.generator dt =
        .ok ((w₁, out), wave, g) ∧
      w₁.move? s.tuning dt = some w₂ ∧
      (let w₃ := w₂.age dt
       let reaped := (w₃.collide s.tuning).1.reap
          ((s.condemned.insertAll w₃.expired).insertAll (w₃.collide s.tuning).2)
       s'.world = reaped.1 ∧
       sent = s.outbox ++ ((s.world.steer s.tuning (s.clock + dt.toDouble)).2 ++ out) ++ reaped.2 ++
         s'.edition (s.isDue dt)) ∧
      s'.tuning = s.tuning ∧ s'.clock = s.clock + dt.toDouble ∧ s'.condemned = ∅ ∧
      s'.outbox = [] := by
  -- the passes of a step, one after the other; what is left is how the dispatches come together
  obtain ⟨m, hm, hend⟩ := approach_of_tick h
  obtain ⟨swept, w₂, hswept, hmove, rfl⟩ := approach_cases hm
  obtain ⟨w₁, out, wave, g, hwave, rfl⟩ := sendWave_of_ok hswept
  obtain ⟨rest, hpub⟩ := publish_eq _ dt
  rw [hpub] at hend
  obtain ⟨rfl, rfl⟩ := Prod.mk.inj hend
  refine ⟨w₁, w₂, out, wave, g, hwave, hmove, ⟨rfl, ?_⟩, rfl, rfl, rfl, rfl⟩
  rw [← List.append_assoc s.outbox]
  rfl

/-- **What a step of time is.** The world evolves, then some are reaped, none of them an avatar, and
at last a snapshot may go out. Everything that was said is handed over, in this order. -/
theorem tick_cases {sent : List Dispatch}
    (he : s.world.Embodied) (hb : s.world.Bound none) (hc : s.condemned = ∅)
    (h : s.tick dt = .ok (s', sent)) : ∃ w out condemned,
      s.world.Evolves out (s.births (.tick dt)) w ∧ w.SparesAvatars condemned ∧
      s'.world = (w.reap condemned).1 ∧ s'.condemned = ∅ ∧ s'.outbox = [] ∧
      sent = s.outbox ++ out ++ (w.reap condemned).2 ++ s'.edition (s.isDue dt) := by
  obtain ⟨w₁, w₂, out, wave, g, hwave, hmove, ⟨hworld, hsent⟩, -, -, hc', hout⟩ := tick_stages h
  have hsteer := steer_evolves he hb s.tuning (s.clock + dt.toDouble)
  have hev := (hsteer.trans (sendWave_evolves hwave)).quiet
    ((move_quiet hmove).trans (w₂.age_quiet dt))
  rw [hc] at hworld hsent
  exact ⟨_, _, _, hev.quiet ((w₂.age dt).collide_quiet s.tuning),
    sparesAvatars_condemned (hev.embodied he) s.tuning, hworld, hc', hout, hsent⟩

end Simulation

end Skirmish
