import Skirmish.Proofs.Allocation
/-!
# What entities are made of

Every live entity has exactly the components of its kind (`EntityKind.anatomy`) and a dead handle
has none (`World.Embodied`). Live entities have network ids of their own, all of them below the next
one (`World.Numbered`).

Three things happen to entities: components change their values in place (`Registry.Kept`), an entity
with a complete set of components is born (`Complete`), and entities end. The first and the last
cannot harm either property. A birth cannot harm the first, and it keeps the second as long as the
circle of network ids has not been closed.
-/

namespace Skirmish

/-- The components of an entity of a kind. Only three kinds take part in a game. -/
def EntityKind.anatomy : EntityKind → List ComponentType
  | player => [.position, .velocity, .drawable, .health, .networkId, .owner, .kind]
  | enemy => [.position, .velocity, .drawable, .health, .networkId, .owner, .kind]
  | playerBullet => [.position, .velocity, .drawable, .damage, .networkId, .owner, .kind, .lifetime]
  | _ => []

namespace World

/-- Live entities have the components of their kind, dead handles have none. -/
structure Embodied (w : World) : Prop where
  pool : w.registry.pool.Valid
  of_dead : ∀ {h}, w.registry.isAlive h = false → ∀ c, w.registry.get? c h = none
  of_alive : ∀ {h}, w.registry.isAlive h = true → ∃ k, w.registry.get? .kind h = some k ∧
    ∀ c, (w.registry.get? c h).isSome ↔ c ∈ k.anatomy
  health_le : ∀ {h x}, w.registry.get? .health h = some x → x.current ≤ x.max

/-- Network ids tell live entities apart and lie between zero and the next one. -/
structure Numbered (w : World) : Prop where
  inj : ∀ {h h' n}, w.registry.get? .networkId h = some n →
    w.registry.get? .networkId h' = some n → h = h'
  pos : ∀ {h n}, w.registry.get? .networkId h = some n → 0 < n.toNat
  lt_next : ∀ {h n}, w.registry.get? .networkId h = some n →
    n.toNat < w.nextNetworkId.toNat

/-! ## What follows for one entity -/

namespace Embodied

variable {w : World} (he : w.Embodied)
include he

/-- Whoever has a component is alive. -/
theorem isAlive_of_get? {c : ComponentType} {h : Handle} {v : c.Value}
    (hv : w.registry.get? c h = some v) : w.registry.isAlive h = true := by
  cases ha : w.registry.isAlive h with
  | true => rfl
  | false =>
    rw [he.of_dead ha] at hv
    exact absurd hv (by simp)

/-- What is found with an entity of a kind belongs to its anatomy. -/
theorem isSome_iff {h : Handle} {k : EntityKind} (hk : w.registry.get? .kind h = some k)
    (c : ComponentType) : (w.registry.get? c h).isSome ↔ c ∈ k.anatomy := by
  obtain ⟨k', hk', hc⟩ := he.of_alive (he.isAlive_of_get? hk)
  rw [hk, Option.some.injEq] at hk'
  subst hk'
  exact hc c

theorem get?_of_mem {h : Handle} {k : EntityKind} (hk : w.registry.get? .kind h = some k)
    {c : ComponentType} (hc : c ∈ k.anatomy) : ∃ v, w.registry.get? c h = some v :=
  Option.isSome_iff_exists.mp ((he.isSome_iff hk c).mpr hc)

/-- Only three kinds are ever alive. -/
theorem kind_mem {h : Handle} {k : EntityKind} (hk : w.registry.get? .kind h = some k) :
    k = .player ∨ k = .enemy ∨ k = .playerBullet := by
  have hmem : ComponentType.kind ∈ k.anatomy := (he.isSome_iff hk .kind).mp (by simp [hk])
  cases k <;> simp_all [EntityKind.anatomy]

/-- Every live entity has a kind, an owner and a network id. -/
theorem identity_of_alive {h : Handle} (ha : w.registry.isAlive h = true) :
    ∃ k q n, w.registry.get? .kind h = some k ∧ w.registry.get? .owner h = some q ∧
      w.registry.get? .networkId h = some n := by
  obtain ⟨k, hk, -⟩ := he.of_alive ha
  have hmem : ComponentType.owner ∈ k.anatomy ∧ ComponentType.networkId ∈ k.anatomy := by
    rcases he.kind_mem hk with rfl | rfl | rfl <;> simp [EntityKind.anatomy]
  obtain ⟨q, hq⟩ := he.get?_of_mem hk hmem.1
  obtain ⟨n, hn⟩ := he.get?_of_mem hk hmem.2
  exact ⟨k, q, n, hk, hq, hn⟩

/-- Whoever is alive has a network id, and nobody else has. -/
theorem isSome_networkId_iff {h : Handle} :
    (w.registry.get? .networkId h).isSome ↔ w.registry.isAlive h = true := by
  constructor
  · intro hsome
    obtain ⟨n, hn⟩ := Option.isSome_iff_exists.mp hsome
    exact he.isAlive_of_get? hn
  · intro ha
    obtain ⟨-, -, n, -, -, hn⟩ := he.identity_of_alive ha
    rw [hn]
    rfl

/-- What has a lifetime is a bullet. -/
theorem kind_of_lifetime {h : Handle} {x : Single}
    (hx : w.registry.get? .lifetime h = some x) : w.registry.get? .kind h = some .playerBullet := by
  obtain ⟨k, hk, hc⟩ := he.of_alive (he.isAlive_of_get? hx)
  have hmem : ComponentType.lifetime ∈ k.anatomy := (hc .lifetime).mp (by simp [hx])
  cases k <;> simp_all [EntityKind.anatomy]

end Embodied

end World

/-! ## Changes in place -/

theorem Health.hit_le (x : Health) (amount : UInt8) : (x.hit amount).current ≤ x.current := by
  rw [UInt8.le_iff_toNat_le, Health.toNat_hit]
  omega

namespace Registry

/-- The same entities with the same sorts of components, and everyone is still who they were. -/
structure Kept (r r' : Registry ComponentType.Value) : Prop where
  pool : r'.pool = r.pool
  isSome : ∀ c h, (r'.get? c h).isSome = (r.get? c h).isSome
  networkId : ∀ h, r'.get? .networkId h = r.get? .networkId h
  owner : ∀ h, r'.get? .owner h = r.get? .owner h
  kind : ∀ h, r'.get? .kind h = r.get? .kind h
  health : ∀ h x', r'.get? .health h = some x' →
    ∃ x, r.get? .health h = some x ∧ x'.max = x.max ∧ x'.current ≤ x.current

theorem Kept.refl (r : Registry ComponentType.Value) : r.Kept r where
  pool := rfl
  isSome _ _ := rfl
  networkId _ := rfl
  owner _ := rfl
  kind _ := rfl
  health _ x hx := ⟨x, hx, rfl, UInt8.le_refl _⟩

theorem Kept.trans {r r' r'' : Registry ComponentType.Value} (h : r.Kept r') (h' : r'.Kept r'') :
    r.Kept r'' where
  pool := h'.pool.trans h.pool
  isSome c k := (h'.isSome c k).trans (h.isSome c k)
  networkId k := (h'.networkId k).trans (h.networkId k)
  owner k := (h'.owner k).trans (h.owner k)
  kind k := (h'.kind k).trans (h.kind k)
  health k x hx := by
    obtain ⟨y, hy, hmax, hcur⟩ := h'.health k x hx
    obtain ⟨z, hz, hmax', hcur'⟩ := h.health k y hy
    exact ⟨z, hz, hmax.trans hmax', UInt8.le_trans hcur hcur'⟩

theorem Kept.isAlive {r r' : Registry ComponentType.Value} (h : r.Kept r') (k : Handle) :
    r'.isAlive k = r.isAlive k := by
  rw [Registry.isAlive, h.pool, Registry.isAlive]

/-- A column that says nothing of who an entity is can be changed, as long as nothing is added to
it or taken from it. -/
theorem kept_setColumn {r : Registry ComponentType.Value} {c : ComponentType}
    (hc : c = .position ∨ c = .velocity ∨ c = .lifetime) {column : Column c.Value}
    (hcol : ∀ h, (column.get? h).isSome = (r.get? c h).isSome) : r.Kept (r.setColumn c column) := by
  have hother : ∀ d h, c ≠ d → (r.setColumn c column).get? d h = r.get? d h :=
    fun d h hne => get?_setColumn_of_ne hne column h
  refine ⟨rfl, fun d h => ?_, ?_, ?_, ?_, ?_⟩
  · by_cases hd : c = d
    · subst hd
      rw [get?_setColumn_self, hcol]
    · rw [hother d h hd]
  · exact fun h => hother _ h (by rcases hc with rfl | rfl | rfl <;> decide)
  · exact fun h => hother _ h (by rcases hc with rfl | rfl | rfl <;> decide)
  · exact fun h => hother _ h (by rcases hc with rfl | rfl | rfl <;> decide)
  · intro h x hx
    rw [hother _ h (by rcases hc with rfl | rfl | rfl <;> decide)] at hx
    exact ⟨x, hx, rfl, UInt8.le_refl _⟩

/-- An entity is given another velocity. -/
theorem kept_insert_velocity {r : Registry ComponentType.Value} {h : Handle}
    (hv : (r.get? .velocity h).isSome) (v : Vector2) : r.Kept (r.insert .velocity h v) := by
  unfold insert
  split
  · refine kept_setColumn (.inr (.inl rfl)) fun k => ?_
    rw [Column.get?_insert]
    by_cases hk : h = k
    · subst hk
      rw [if_pos rfl, hv]
      rfl
    · rw [if_neg hk]
      rfl
  · -- whoever is dead is given nothing
    exact Kept.refl r

/-- An entity is hurt. -/
theorem kept_modify_health (r : Registry ComponentType.Value) (h : Handle) (amount : UInt8) :
    r.Kept (r.modify .health h fun x => x.hit amount) := by
  have hother : ∀ c k, ComponentType.health ≠ c ∨ h ≠ k →
      (r.modify .health h fun x => x.hit amount).get? c k = r.get? c k :=
    fun c k hne => get?_modify_of_ne _ hne
  refine ⟨pool_modify _ _ _, fun c k => ?_, fun k => hother _ k (.inl (by decide)),
    fun k => hother _ k (.inl (by decide)), fun k => hother _ k (.inl (by decide)), ?_⟩
  · by_cases hk : ComponentType.health = c ∧ h = k
    · obtain ⟨rfl, rfl⟩ := hk
      rw [get?_modify_self, Option.isSome_map]
    · rw [hother c k (Decidable.not_and_iff_or_not.mp hk)]
  · intro k x hx
    by_cases hk : h = k
    · subst hk
      rw [get?_modify_self] at hx
      obtain ⟨y, hy, rfl⟩ := Option.map_eq_some_iff.mp hx
      exact ⟨y, hy, rfl, Health.hit_le y amount⟩
    · rw [hother _ k (.inr hk)] at hx
      exact ⟨x, hx, rfl, UInt8.le_refl _⟩

end Registry

namespace World

theorem Embodied.of_kept {w w' : World} (he : w.Embodied) (hk : w.registry.Kept w'.registry) :
    w'.Embodied where
  pool := hk.pool ▸ he.pool
  of_dead {h} ha c := by
    have hnone := he.of_dead (hk.isAlive h ▸ ha) c
    rw [← Option.not_isSome_iff_eq_none, hk.isSome, hnone]
    simp
  of_alive {h} ha := by
    obtain ⟨k, hkind, hc⟩ := he.of_alive (hk.isAlive h ▸ ha)
    exact ⟨k, by rw [hk.kind, hkind], fun c => by rw [hk.isSome, hc]⟩
  health_le {h x} hx := by
    obtain ⟨y, hy, hmax, hcur⟩ := hk.health h x hx
    rw [hmax]
    exact UInt8.le_trans hcur (he.health_le hy)

theorem Numbered.of_kept {w w' : World} (hn : w.Numbered) (hk : w.registry.Kept w'.registry)
    (hnext : w'.nextNetworkId = w.nextNetworkId) : w'.Numbered where
  inj {h h' n} := by
    rw [hk.networkId, hk.networkId]
    exact hn.inj
  pos {h n} := by
    rw [hk.networkId]
    exact hn.pos
  lt_next {h n} := by
    rw [hk.networkId, hnext]
    exact hn.lt_next

/-! ## Births -/

/-- A set of components that makes an entity of a kind, once the network id is added to it. -/
structure Complete (k : EntityKind) (parts : List Part) : Prop where
  anatomy : ∀ n c, (partOf? c (⟨.networkId, n⟩ :: parts)).isSome ↔ c ∈ k.anatomy
  kind : ∀ n, partOf? .kind (⟨.networkId, n⟩ :: parts) = some k
  networkId : ∀ n, partOf? .networkId (⟨.networkId, n⟩ :: parts) = some n
  health_le : ∀ n x, partOf? .health (⟨.networkId, n⟩ :: parts) = some x → x.current ≤ x.max

variable {w : World} {k : EntityKind} {parts : List Part}

/-- The handle that is given out next has nothing. -/
theorem Embodied.get?_spawn_fst (he : w.Embodied) (c : ComponentType) :
    w.registry.get? c w.registry.spawn.1 = none :=
  he.of_dead (Registry.isAlive_spawn_fst he.pool) c

/-- The new entity, part by part. -/
theorem Embodied.get?_newborn (he : w.Embodied) (parts : List Part) (c : ComponentType) :
    (w.summon parts).2.registry.get? c w.registry.spawn.1 =
      partOf? c (⟨.networkId, w.nextNetworkId⟩ :: parts) :=
  get?_summon_self he.pool parts c (he.get?_spawn_fst c)

/-- A birth takes nothing away from anybody. -/
theorem Embodied.get?_summon_of_some (he : w.Embodied) {c : ComponentType} {h : Handle}
    {v : c.Value} (hv : w.registry.get? c h = some v) :
    (w.summon parts).2.registry.get? c h = some v := by
  have hne : w.registry.spawn.1 ≠ h := by
    intro heq
    rw [← heq, he.get?_spawn_fst] at hv
    cases hv
  rw [get?_summon_of_ne parts c hne, hv]

/-- Whoever has a component after a birth is the new entity or had it before. -/
theorem get?_summon_cases {c : ComponentType} {h : Handle} {v : c.Value}
    (hv : (w.summon parts).2.registry.get? c h = some v) :
    h = w.registry.spawn.1 ∨ w.registry.spawn.1 ≠ h ∧ w.registry.get? c h = some v := by
  by_cases hh : w.registry.spawn.1 = h
  · exact .inl hh.symm
  · rw [get?_summon_of_ne parts c hh] at hv
    exact .inr ⟨hh, hv⟩

theorem Embodied.summon (he : w.Embodied) (hp : Complete k parts) :
    (w.summon parts).2.Embodied where
  pool := valid_summon he.pool parts
  of_dead {h} ha c := by
    rw [isAlive_summon he.pool] at ha
    split at ha
    · exact absurd ha (by simp)
    · rename_i hne
      rw [get?_summon_of_ne parts c hne, he.of_dead ha]
  of_alive {h} ha := by
    -- the newborn has all that its kind has, and everybody else is as before
    by_cases hh : w.registry.spawn.1 = h
    · subst hh
      exact ⟨k, by rw [he.get?_newborn, hp.kind], fun c => by rw [he.get?_newborn, hp.anatomy]⟩
    · rw [isAlive_summon he.pool, if_neg hh] at ha
      obtain ⟨k', hk', hc⟩ := he.of_alive ha
      exact ⟨k', by rw [get?_summon_of_ne parts _ hh, hk'],
        fun c => by rw [get?_summon_of_ne parts _ hh, hc]⟩
  health_le {h x} hx := by
    rcases get?_summon_cases hx with rfl | ⟨-, hold⟩
    · rw [he.get?_newborn] at hx
      exact hp.health_le _ x hx
    · exact he.health_le hold

theorem toNat_followingId {n : UInt32} (h : n.toNat < 0xffffffff) :
    (followingId n).toNat = n.toNat + 1 := by
  have hne : n ≠ 0xffffffff := by
    intro heq
    subst heq
    exact absurd h (by decide)
  rw [followingId, if_neg hne, UInt32.toNat_add]
  show (n.toNat + 1) % 2 ^ 32 = n.toNat + 1
  omega

/-- The new entity is numbered after all others, as long as there are numbers left. -/
theorem Numbered.summon (hn : w.Numbered) (he : w.Embodied) (hp : Complete k parts)
    (hpos : 0 < w.nextNetworkId.toNat) (hroom : w.nextNetworkId.toNat < 0xffffffff) :
    (w.summon parts).2.Numbered := by
  have hnext : (w.summon parts).2.nextNetworkId.toNat = w.nextNetworkId.toNat + 1 :=
    toNat_followingId hroom
  -- an id after the birth is the new one, or an old and smaller one
  have key : ∀ {h n}, (w.summon parts).2.registry.get? .networkId h = some n →
      h = w.registry.spawn.1 ∧ n = w.nextNetworkId ∨
        w.registry.get? .networkId h = some n ∧ n.toNat < w.nextNetworkId.toNat := by
    intro h n hh
    rcases get?_summon_cases hh with rfl | ⟨-, hold⟩
    · rw [he.get?_newborn, hp.networkId, Option.some.injEq] at hh
      exact .inl ⟨rfl, hh.symm⟩
    · exact .inr ⟨hold, hn.lt_next hold⟩
  refine ⟨fun {h h' n} hh hh' => ?_, fun {h n} hh => ?_, fun {h n} hh => ?_⟩
  · -- two entities with one id are both new or both old
    rcases key hh with ⟨rfl, rfl⟩ | ⟨h1, hlt⟩
    · rcases key hh' with ⟨rfl, -⟩ | ⟨-, hlt⟩
      · rfl
      · exact absurd hlt (Nat.lt_irrefl _)
    · rcases key hh' with ⟨rfl, rfl⟩ | ⟨h2, -⟩
      · exact absurd hlt (Nat.lt_irrefl _)
      · exact hn.inj h1 h2
  · rcases key hh with ⟨-, rfl⟩ | ⟨h1, -⟩
    · exact hpos
    · exact hn.pos h1
  · rw [hnext]
    rcases key hh with ⟨-, rfl⟩ | ⟨-, hlt⟩
    · exact Nat.lt_succ_self _
    · exact Nat.lt_succ_of_lt hlt

/-! ### The three kinds -/

/-- The components of a new avatar. -/
def avatarParts (t : Tuning) (id : UInt8) : List Part := [
  ⟨.position, playerStart t.player id⟩,
  ⟨.velocity, .zero⟩,
  ⟨.drawable, ⟨t.player.width, t.player.height, playerColor id⟩⟩,
  ⟨.health, .full t.player.health⟩,
  ⟨.owner, id⟩,
  ⟨.kind, .player⟩]

/-- The components of a new bullet. -/
def bulletParts (t : Tuning) (owner : UInt8) (shooter : Vector2) : List Part := [
  ⟨.position, ⟨shooter.x + t.bullet.offsetX, shooter.y + t.bullet.offsetY⟩⟩,
  ⟨.velocity, ⟨t.bullet.speed, .zero⟩⟩,
  ⟨.drawable, ⟨t.bullet.width, t.bullet.height, bulletColor⟩⟩,
  ⟨.owner, owner⟩,
  ⟨.kind, .playerBullet⟩,
  ⟨.damage, t.bullet.damage⟩,
  ⟨.lifetime, t.bullet.lifetime⟩]

/-- The components of a new enemy. -/
def enemyParts (t : Tuning) (y : Single) : List Part := [
  ⟨.position, ⟨t.enemy.spawnX, y⟩⟩,
  ⟨.velocity, ⟨-t.enemy.speed, .zero⟩⟩,
  ⟨.drawable, ⟨t.enemy.width, t.enemy.height, enemyColor⟩⟩,
  ⟨.health, .full t.enemy.health⟩,
  ⟨.owner, serverOwner⟩,
  ⟨.kind, .enemy⟩]

theorem spawnBullet_eq (w : World) (t : Tuning) (owner : UInt8) (shooter : Vector2) :
    w.spawnBullet t owner shooter = w.summon (bulletParts t owner shooter) := rfl

theorem spawnEnemy_eq (w : World) (t : Tuning) (y : Single) :
    w.spawnEnemy t y = w.summon (enemyParts t y) := rfl

theorem spawnPlayer_snd (w : World) (t : Tuning) (id : UInt8) (username : String) :
    (w.spawnPlayer t id username).2 =
      { (w.summon (avatarParts t id)).2 with
        players := w.players.insert id ⟨username, some w.registry.spawn.1, none, none, none⟩ } := rfl

theorem complete_avatar (t : Tuning) (id : UInt8) : Complete .player (avatarParts t id) where
  anatomy n c := by cases c <;> simp [partOf?, avatarParts, EntityKind.anatomy]
  kind _ := rfl
  networkId _ := rfl
  health_le n x hx := by
    cases hx
    exact UInt8.le_refl _

theorem complete_bullet (t : Tuning) (owner : UInt8) (shooter : Vector2) :
    Complete .playerBullet (bulletParts t owner shooter) where
  anatomy n c := by cases c <;> simp [partOf?, bulletParts, EntityKind.anatomy]
  kind _ := rfl
  networkId _ := rfl
  health_le n x hx := by cases hx

theorem complete_enemy (t : Tuning) (y : Single) : Complete .enemy (enemyParts t y) where
  anatomy n c := by cases c <;> simp [partOf?, enemyParts, EntityKind.anatomy]
  kind _ := rfl
  networkId _ := rfl
  health_le n x hx := by
    cases hx
    exact UInt8.le_refl _

end World

end Skirmish
