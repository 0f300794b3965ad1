import Skirmish.Proofs.Approach
import Skirmish.Proofs.Strikes
/-!
# The field is swept

A step of time ends with the reaping of those who have fallen: bullets and enemies whose time is up, who
have struck or been slain, or who have left the field (`World.Falls`). Nobody else is reaped
(`Simulation.Reaps`), and nobody who should have been is still there afterwards (`Simulation.Swept`). Events
bring and take away avatars only, so the field is as clean between two steps of time as after the first of
them.

Of an enemy something is left as long as it is there, unless it had nothing to begin with. That is the one
part of `Swept` which a step of time does not bring about by itself, for nobody strikes an enemy of which
nothing is left.
-/

namespace Skirmish

open World

namespace World

variable {w w' : World} {t : Tuning} {h : Handle}

/-! ## Those who fall -/

/-- Why an entity does not survive the step in which the collisions are settled in this world. -/
def Falls (w : World) (t : Tuning) (h : Handle) : Prop :=
  -- its time is up
  (∃ x, w.registry.get? .lifetime h = some x ∧ x ≤ .zero) ∨
  -- it strikes somebody
  (∃ e, (h, e) ∈ w.strikes t) ∨
  -- it is slain
  (w.IsEnemy h ∧ 0 < w.healthLeft h ∧ (w.collide t).1.healthLeft h = 0) ∨
  -- it has left the field
  (w.IsBullet h ∧ t.bullet.despawnX < (w.boxOf h).x) ∨
  (w.IsEnemy h ∧ (w.boxOf h).x < t.enemy.despawnX)

theorem mem_expired : h ∈ w.expired ↔ ∃ x, w.registry.get? .lifetime h = some x ∧ x ≤ .zero := by
  simp only [expired, List.mem_map, List.mem_filter, Prod.exists, decide_eq_true_eq]
  constructor
  · intro hex
    obtain ⟨k, x, ⟨hm, hx⟩, rfl⟩ := hex
    exact ⟨x, Registry.mem_entries.mp hm, hx⟩
  · rintro ⟨x, hx, hle⟩
    exact ⟨h, x, ⟨Registry.mem_entries.mpr hx, hle⟩, rfl⟩

/-- Those who fall are those who are condemned. -/
theorem falls_iff : w.Falls t h ↔
    h ∈ ((∅ : HandleSet).insertAll w.expired).insertAll (w.collide t).2 := by
  rw [HandleSet.mem_insertAll, HandleSet.mem_insertAll, mem_expired, mem_collide]
  simp only [HandleSet.not_mem_empty, or_false]
  exact or_comm

/-- Only bullets and enemies fall. -/
theorem Embodied.kind_of_falls (he : w.Embodied) (hf : w.Falls t h) :
    w.registry.get? .kind h = some .playerBullet ∨ w.registry.get? .kind h = some .enemy := by
  rw [falls_iff, HandleSet.mem_insertAll, HandleSet.mem_insertAll] at hf
  rcases hf with hf | hf | hf
  · exact kind_of_mem_collide hf
  · exact .inl (kind_of_mem_expired he hf)
  · exact absurd hf (HandleSet.not_mem_empty h)

theorem Embodied.hasBody (he : w.Embodied) (ha : w.registry.isAlive h = true) : w.HasBody h := by
  obtain ⟨k, hk, -⟩ := he.of_alive ha
  have hparts : ComponentType.position ∈ k.anatomy ∧ ComponentType.drawable ∈ k.anatomy ∧
      ComponentType.networkId ∈ k.anatomy := by
    rcases he.kind_mem hk with rfl | rfl | rfl <;> simp [EntityKind.anatomy]
  exact ⟨(he.isSome_iff hk _).mpr hparts.1, (he.isSome_iff hk _).mpr hparts.2.1,
    (he.isSome_iff hk _).mpr hparts.2.2⟩

theorem Embodied.isBullet (he : w.Embodied) (hk : w.registry.get? .kind h = some .playerBullet) :
    w.IsBullet h :=
  ⟨hk, he.hasBody (he.isAlive_of_get? hk)⟩

theorem Embodied.isEnemy (he : w.Embodied) (hk : w.registry.get? .kind h = some .enemy) :
    w.IsEnemy h :=
  ⟨hk, he.hasBody (he.isAlive_of_get? hk),
    (he.isSome_iff hk .health).mpr (by simp [EntityKind.anatomy])⟩

/-- The box of an entity is where the entity is. -/
theorem boxOf_x (hb : w.HasBody h) {p : Vector2} (hp : w.registry.get? .position h = some p) :
    (w.boxOf h).x = p.x := by
  obtain ⟨d, hd⟩ := Option.isSome_iff_exists.mp hb.drawable
  rw [boxOf, hp, hd]

/-- If nothing is left of an enemy who has not fallen, nothing was left before the collisions. -/
theorem spent_of_stands {t : Tuning} (henemy : w.IsEnemy h) (hstands : ¬ w.Falls t h) {x' : Health}
    (hafter : (w.collide t).1.registry.get? .health h = some x') (hspent : x'.current = 0) :
    ∃ x, w.registry.get? .health h = some x ∧ x.current = 0 ∧ x'.max = x.max := by
  have hleft : (w.collide t).1.healthLeft h = 0 := by
    rw [healthLeft, hafter, Option.map_some, Option.getD_some, hspent]
    rfl
  rw [get?_health_collide] at hafter
  obtain ⟨x, hx, rfl⟩ := Option.map_eq_some_iff.mp hafter
  -- it was not slain now
  have hnot : ¬ 0 < w.healthLeft h := fun hpos =>
    hstands (.inr (.inr (.inl ⟨henemy, hpos, hleft⟩)))
  rw [healthLeft, hx, Option.map_some, Option.getD_some] at hnot
  exact ⟨x, hx, UInt8.toNat_inj.mp (Nat.eq_zero_of_not_pos hnot), rfl⟩

end World

namespace Simulation

variable {s s' m : Simulation} {dt : Single}

/-! ## A clean field -/

/-- Nobody is there who should have been reaped. -/
structure Swept (s : Simulation) : Prop where
  /-- Nobody has outlived its time. -/
  young : ∀ h x, s.world.registry.get? .lifetime h = some x → ¬ x ≤ .zero
  /-- No bullet has left the field at the right. -/
  bullet : ∀ h p, s.world.registry.get? .kind h = some .playerBullet →
    s.world.registry.get? .position h = some p → ¬ s.tuning.bullet.despawnX < p.x
  /-- No enemy has left the field at the left. -/
  enemy : ∀ h p, s.world.registry.get? .kind h = some .enemy →
    s.world.registry.get? .position h = some p → ¬ p.x < s.tuning.enemy.despawnX
  /-- No enemy has lost all of its health. -/
  standing : ∀ h x, s.world.registry.get? .kind h = some .enemy →
    s.world.registry.get? .health h = some x → x.current = 0 → x.max = 0

theorem swept_start (settings : Settings) (entropy : Generator) :
    (start settings entropy).Swept := by
  have hnone : ∀ c h, (start settings entropy).world.registry.get? c h = none := fun c h =>
    get?_register_all _ _ c h
  refine ⟨fun h x hx => ?_, fun h p _ hp => ?_, fun h p _ hp => ?_, fun h x _ hx => ?_⟩ <;>
    simp [hnone] at *

/-- Whoever comes or goes, the field stays clean. -/
theorem Swept.handle (hw : s.Swept) (hs : Settled s) (e : Event) : (s.handle e).Swept := by
  obtain ⟨_, _, _, hkeeps⟩ := s.handle_keeps e
  have htuning : (s.handle e).tuning = s.tuning := by rw [hkeeps]
  have hbullet : ∀ {h}, (s.handle e).world.registry.get? .kind h = some .playerBullet →
      ∀ c, (s.handle e).world.registry.get? c h = s.world.registry.get? c h :=
    fun hk => hs.get?_handle_of_kind e hk (by simp)
  have henemy : ∀ {h}, (s.handle e).world.registry.get? .kind h = some .enemy →
      ∀ c, (s.handle e).world.registry.get? c h = s.world.registry.get? c h :=
    fun hk => hs.get?_handle_of_kind e hk (by simp)
  refine ⟨fun h x hx => ?_, fun h p hk hp => ?_, fun h p hk hp => ?_, fun h x hk hx => ?_⟩
  · rw [hbullet ((hs.handle e).embodied.kind_of_lifetime hx)] at hx
    exact hw.young h x hx
  · rw [htuning]
    exact hw.bullet h p (hbullet hk _ ▸ hk) (hbullet hk _ ▸ hp)
  · rw [htuning]
    exact hw.enemy h p (henemy hk _ ▸ hk) (henemy hk _ ▸ hp)
  · exact hw.standing h x (henemy hk _ ▸ hk) (henemy hk _ ▸ hx)

/-! ## A step of time -/

/-- Whom a step of time reaps, when the simulation is `m` as the collisions are settled. -/
structure Reaps (s m s' : Simulation) : Prop where
  /-- Whoever is there when the step begins meets the collisions, and is who it was. -/
  meets : ∀ h, s.world.registry.isAlive h = true → m.world.registry.isAlive h = true ∧
    m.world.registry.get? .kind h = s.world.registry.get? .kind h ∧
    m.world.registry.get? .networkId h = s.world.registry.get? .networkId h
  /-- Of those who meet the collisions, those who fall are gone at the end, and nobody else. -/
  gone_iff : ∀ h, m.world.registry.isAlive h = true →
    (s'.world.registry.isAlive h = false ↔ m.world.Falls m.tuning h)
  /-- Nobody comes afterwards. -/
  met : ∀ h, s'.world.registry.isAlive h = true → m.world.registry.isAlive h = true
  /-- Only bullets and enemies fall. -/
  kind : ∀ h, m.world.Falls m.tuning h → m.world.registry.get? .kind h = some .playerBullet ∨
    m.world.registry.get? .kind h = some .enemy
  /-- Avatars stay. -/
  avatar : ∀ h, s.world.registry.get? .kind h = some .player →
    s'.world.registry.isAlive h = true ∧ s'.world.registry.get? .kind h = some .player
  /-- Every player keeps the avatar. -/
  slot : ∀ p slot, s.world.players.get? p = some slot →
    ∃ slot', s'.world.players.get? p = some slot' ∧ slot'.entity = slot.entity

/-- A step of time, from the collisions on. -/
theorem Settled.exists_approach (hs : Settled s) {sent : List Dispatch}
    (h : s.tick dt = .ok (s', sent)) : ∃ m, s.approach dt = .ok m ∧
      (m.collide.reap.publish dt).flush = (s', sent) ∧
      m.tuning = s.tuning ∧ s'.tuning = s.tuning ∧ (m.world.collide m.tuning).1.Embodied ∧
      s'.world = ((m.world.collide m.tuning).1.reap
        (((∅ : HandleSet).insertAll m.world.expired).insertAll (m.world.collide m.tuning).2)).1 := by
  obtain ⟨m, hm, hend⟩ := approach_of_tick h
  obtain ⟨_, _, _, _, _, -, -, -, htuning, -, hcondemned⟩ := approach_stages hm
  obtain ⟨_, _, hev⟩ := hs.approach_evolves hm
  have hquiet := m.world.collide_quiet m.tuning
  obtain ⟨hworld, hkept⟩ := m.collide.reap.world_publish dt
  have hs' : s' = (m.collide.reap.publish dt).flush.1 := (congrArg Prod.fst hend).symm
  refine ⟨m, hm, hend, htuning, ?_, (hev.embodied hs.embodied).of_kept hquiet.kept, ?_⟩
  · rw [hs', flush, hkept, ← htuning]
    rfl
  · rw [hs', flush, hworld, ← hs.condemned, ← hcondemned]
    rfl

/-- A step of time leaves the field clean. -/
theorem Swept.tick (hw : s.Swept) (hs : Settled s) {sent : List Dispatch}
    (h : s.tick dt = .ok (s', sent)) : s'.Swept := by
  obtain ⟨m, hm, -, htuning, htuning', he', hworld⟩ := hs.exists_approach h
  obtain ⟨_, _, hev⟩ := hs.approach_evolves hm
  have he : m.world.Embodied := hev.embodied hs.embodied
  -- what is found at the end belongs to somebody who has not fallen
  have hstands : ∀ {c : ComponentType} {k : Handle} {v : c.Value},
      s'.world.registry.get? c k = some v → ¬ m.world.Falls m.tuning k ∧
        (m.world.collide m.tuning).1.registry.get? c k = some v := by
    intro c k v hv
    rw [hworld, he'.get?_reap] at hv
    split at hv
    · cases hv
    · rename_i hk
      exact ⟨fun hf => hk (falls_iff.mp hf), hv⟩
  have hsame : ∀ {c : ComponentType} {k : Handle} {v : c.Value}, c ≠ .health →
      s'.world.registry.get? c k = some v → m.world.registry.get? c k = some v := by
    intro c k v hc hv
    rw [← get?_collide_of_ne m.world m.tuning hc]
    exact (hstands hv).2
  refine ⟨fun k x hx hle => ?_, fun k p hk hp hlt => ?_, fun k p hk hp hlt => ?_,
    fun k x' hk hx' hzero => ?_⟩
  · -- a lifetime that is over is a cause to fall, and the fallen have nothing at the end
    exact (hstands hx).1 (.inl ⟨x, hsame (by simp) hx, hle⟩)
  · have hbullet := he.isBullet (hsame (by simp) hk)
    rw [htuning', ← htuning, ← boxOf_x hbullet.2 (hsame (by simp) hp)] at hlt
    exact (hstands hk).1 (.inr (.inr (.inr (.inl ⟨hbullet, hlt⟩))))
  · have henemy := he.isEnemy (hsame (by simp) hk)
    rw [htuning', ← htuning, ← boxOf_x henemy.2.1 (hsame (by simp) hp)] at hlt
    exact (hstands hk).1 (.inr (.inr (.inr (.inr ⟨henemy, hlt⟩))))
  · -- an enemy that has nothing left and has not fallen came in with nothing, and so it was before
    have henemy := he.isEnemy (hsame (by simp) hk)
    obtain ⟨hstand, hafter⟩ := hstands hx'
    obtain ⟨x, hx, hspent, hmax⟩ := spent_of_stands henemy hstand hafter hzero
    rw [hmax]
    rcases hs.enemy_of_approach hm (hsame (by simp) hk) hx with rfl | ⟨hkind, hold⟩
    · exact hspent
    · exact hw.standing k x hkind hold hspent

/-- A step of time reaps those who fall. -/
theorem Settled.reaps (hs : Settled s) {sent : List Dispatch} (h : s.tick dt = .ok (s', sent)) :
    ∃ m, s.approach dt = .ok m ∧ (m.collide.reap.publish dt).flush = (s', sent) ∧
      Reaps s m s' := by
  obtain ⟨m, hm, hend, -, -, he', hworld⟩ := hs.exists_approach h
  obtain ⟨_, _, hev⟩ := hs.approach_evolves hm
  have he : m.world.Embodied := hev.embodied hs.embodied
  have hb : m.world.Bound none := hev.bound hs.embodied hs.bound
  have hquiet := m.world.collide_quiet m.tuning
  have hspares := sparesAvatars_condemned he m.tuning
  -- whoever is alive after the pass was alive when it began and has not fallen
  have halive : ∀ k, s'.world.registry.isAlive k = true ↔
      m.world.registry.isAlive k = true ∧ ¬ m.world.Falls m.tuning k := by
    intro k
    rw [hworld, isAlive_reap, hquiet.kept.isAlive, falls_iff]
    split
    · rename_i hk
      simp [hk]
    · rename_i hk
      simp [hk]
  refine ⟨m, hm, hend, fun k ha => ?_, fun k ha => ?_, fun k ha => ((halive k).mp ha).1,
    fun k hf => he.kind_of_falls hf, fun k hk => ?_, fun p slot hslot => ?_⟩
  · exact ⟨(hev.keeps (q := 0) hs.embodied ha).1, hev.identity_of_alive hs.embodied ha⟩
  · rw [← Bool.not_eq_true, halive, not_and_not_right]
    exact ⟨fun hf => hf ha, fun hf _ => hf⟩
  · -- an avatar does not fall, whatever else it meets
    have ha := hs.embodied.isAlive_of_get? hk
    have hkind : m.world.registry.get? .kind k = some .player :=
      (hev.identity_of_alive hs.embodied ha).1.trans hk
    have hstands : ¬ m.world.Falls m.tuning k := by
      intro hf
      rcases he.kind_of_falls hf with hk' | hk' <;> rw [hkind] at hk' <;> cases hk'
    refine ⟨(halive k).mpr ⟨(hev.keeps (q := 0) hs.embodied ha).1, hstands⟩, ?_⟩
    rw [hworld, he'.get?_reap, if_neg fun hc => hstands (falls_iff.mpr hc), hquiet.kept.kind]
    exact hkind
  · have hroll : s'.world.roll = s.world.roll := by
      rw [← hev.roll, ← hquiet.roll, roll, hworld, players_reap (hb.of_quiet hquiet) hspares]
      rfl
    obtain ⟨slot', hslot', -, hent, -⟩ := slot_of_roll hroll.symm hslot
    exact ⟨slot', hslot', hent.symm⟩

/-! ## A run -/

theorem Swept.run {steps : List Step} : ∀ {s : Simulation} {o : Outcome}, s.Swept → Settled s →
    s.run steps = .ok o → o.simulation.Swept ∧ Settled o.simulation := by
  induction steps with
  | nil =>
    intro s o hw hs h
    cases h
    exact ⟨hw, hs⟩
  | cons x rest ih =>
    intro s o hw hs h
    obtain ⟨next, sent, o', hx, hrest, rfl⟩ := run_cons h
    have hnext : next.Swept := by
      cases x with
      | event e =>
        cases hx
        exact hw.handle hs e
      | tick dt => exact hw.tick hs hx
    have hmore := ih hnext (hs.step hx) hrest
    exact hmore

/-- **Reaping leaves nobody out and takes nobody else.** Whatever players do, and whenever one looks:
nobody is there who has outlived its time, no bullet and no enemy that has left the field, and no enemy that
has lost all of its health. And in the step of time that comes next those are reaped who then fall, all of
them bullets or enemies; every avatar stays, and stays with its player. -/
theorem run_sweeps {settings : Settings} {entropy : Generator} {steps : List Step} {o : Outcome}
    (h : (start settings entropy).run steps = .ok o) : o.simulation.Swept ∧
      ∀ dt next sent, o.simulation.tick dt = .ok (next, sent) →
        ∃ m, o.simulation.approach dt = .ok m ∧
          (m.collide.reap.publish dt).flush = (next, sent) ∧ Reaps o.simulation m next := by
  obtain ⟨hw, hs⟩ := (swept_start settings entropy).run (sound_start settings entropy).toSettled h
  exact ⟨hw, fun dt next sent htick => hs.reaps htick⟩

/-- A player comes and fires. -/
def oneShot : List Step := [
  .event (.connected 1 "ace"),
  .event (.input 1 ⟨0, 1, Wire.shootButton, 1, 0⟩),
  .tick ⟨0x3e99999a⟩]

/-- Two seconds later the bullet has left the field. -/
theorem run_sweeps_of_oneShot : ∃ o next sent m,
    (start .default (.ofSeed 0)).run oneShot = .ok o ∧ o.simulation.Swept ∧
    o.simulation.tick ⟨0x40000000⟩ = .ok (next, sent) ∧
    o.simulation.approach ⟨0x40000000⟩ = .ok m ∧ Reaps o.simulation m next ∧
    o.simulation.world.ofKind .playerBullet = [⟨1⟩] ∧
    next.world.ofKind .playerBullet = [] := by
  have hends : ((start .default (.ofSeed 0)).run oneShot).toOption.any (fun o =>
      o.simulation.world.ofKind .playerBullet = [⟨1⟩] &&
        (o.simulation.tick ⟨0x40000000⟩).toOption.any fun p =>
          p.1.world.ofKind .playerBullet = []) = true := by decide +kernel
  obtain ⟨o, ho, hends⟩ := (Option.any_eq_true _ _).mp hends
  rw [Bool.and_eq_true, decide_eq_true_eq] at hends
  obtain ⟨⟨next, sent⟩, htick, hnext⟩ := (Option.any_eq_true _ _).mp hends.2
  have hrun := eq_ok_of_toOption ho
  have htick := eq_ok_of_toOption htick
  obtain ⟨hw, hreaps⟩ := run_sweeps hrun
  obtain ⟨m, hm, -, hreaps⟩ := hreaps _ next sent htick
  exact ⟨o, next, sent, m, hrun, hw, htick, hm, hreaps, hends.1, of_decide_eq_true hnext⟩

end Simulation

end Skirmish
