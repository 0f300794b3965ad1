import Skirmish.Proofs.Volley
/-!
# Who strikes whom, and what comes of it

A pass over bullets and enemies leaves a list of strikes, each a bullet and the enemy that it strikes
(`World.strikes`). Everything that the pass does can be told from that list and the components of the
entities before the pass (`World.Settles`, `Simulation.collide_settles`): what is left of an enemy, who is
condemned, and that nothing else happens. The list itself is held to account as well: a bullet strikes at
most once and only what it overlaps, nobody strikes an enemy with nothing left, and a bullet misses only
if nothing is left at the end of all enemies it overlaps.

The bullets and enemies of a world are told by their components here (`IsBullet`, `IsEnemy`), not by the
lists that a pass makes of them; `mem_shots_iff` and `mem_targets_iff` lead from the one to the other.
-/

namespace Skirmish

/-- On the way from where something holds to where it does not, there is a step that tips it over. -/
theorem exists_tipping {α : Type} {P : List α → Prop} {as : List α} (h : P []) (hnot : ¬ P as) :
    ∃ before a after, as = before ++ a :: after ∧ P before ∧ ¬ P (before ++ [a]) := by
  induction as generalizing P with
  | nil => exact absurd h hnot
  | cons a rest ih =>
    by_cases ha : P [a]
    · obtain ⟨before, b, after, rfl, hb, hnb⟩ := ih (P := fun l => P (a :: l)) ha hnot
      exact ⟨a :: before, b, after, rfl, hb, hnb⟩
    · exact ⟨[], a, rest, rfl, h, ha⟩

namespace World

variable {w : World} {t : Tuning} {h : Handle} {shot : Shot} {target : Target}

/-! ## Bullets and enemies -/

/-- An entity that has a place, a shape and a network id. -/
structure HasBody (w : World) (h : Handle) : Prop where
  position : (w.registry.get? .position h).isSome
  drawable : (w.registry.get? .drawable h).isSome
  networkId : (w.registry.get? .networkId h).isSome

/-- A bullet of a player that has a body. -/
def IsBullet (w : World) (h : Handle) : Prop :=
  w.registry.get? .kind h = some .playerBullet ∧ w.HasBody h

/-- An enemy that has a body and a health. -/
def IsEnemy (w : World) (h : Handle) : Prop :=
  w.registry.get? .kind h = some .enemy ∧ w.HasBody h ∧ (w.registry.get? .health h).isSome

/-- The box of an entity that has a place and a shape: the place is its top left corner. -/
def boxOf (w : World) (h : Handle) : Box :=
  match w.registry.get? .position h, w.registry.get? .drawable h with
  | some p, some d => ⟨p.x, p.y, d.width, d.height⟩
  | _, _ => default

/-- The damage that a bullet does. -/
def damageOf (w : World) (t : Tuning) (b : Handle) : UInt8 :=
  (w.registry.get? .damage b).getD t.bullet.damage

/-- How much is left of an entity that has a health. -/
def healthLeft (w : World) (h : Handle) : Nat :=
  ((w.registry.get? .health h).map fun x => x.current.toNat).getD 0

/-- The damage that these strikes do to an entity, all in all. -/
def damageTo (w : World) (t : Tuning) (strikes : List (Handle × Handle)) (h : Handle) : Nat :=
  ((strikes.filter fun s => s.2 = h).map fun s => (w.damageOf t s.1).toNat).sum

/-- A bullet with the enemy that it strikes, for every bullet that strikes, in the order in which it
happens. -/
def strikes (w : World) (t : Tuning) : List (Handle × Handle) :=
  (w.hits t).map fun hit => (hit.shot.handle, hit.target.handle)

/-! ### Bodies as a pass reads them -/

theorem body?_eq_some_iff {n : UInt32} {box : Box} : w.body? h = some (n, box) ↔
    ∃ p d, w.registry.get? .position h = some p ∧ w.registry.get? .drawable h = some d ∧
      w.registry.get? .networkId h = some n ∧ d.boxAt p = box := by
  simp only [body?, Option.bind_eq_bind, Option.bind_eq_some_iff, Option.pure_def, Option.some.injEq,
    Prod.mk.injEq]
  constructor
  · rintro ⟨p, hp, d, hd, _, hn, rfl, hbox⟩
    exact ⟨p, d, hp, hd, hn, hbox⟩
  · rintro ⟨p, d, hp, hd, hn, hbox⟩
    exact ⟨p, hp, d, hd, n, hn, rfl, hbox⟩

theorem networkId_of_body? {n : UInt32} {box : Box} (hb : w.body? h = some (n, box)) :
    w.registry.get? .networkId h = some n := by
  obtain ⟨p, d, -, -, hn, -⟩ := body?_eq_some_iff.mp hb
  exact hn

theorem boxOf_of_body? {n : UInt32} {box : Box} (hb : w.body? h = some (n, box)) :
    w.boxOf h = box := by
  obtain ⟨p, d, hp, hd, -, hbox⟩ := body?_eq_some_iff.mp hb
  rw [boxOf, hp, hd]
  exact hbox

theorem hasBody_iff : w.HasBody h ↔ ∃ body, w.body? h = some body := by
  constructor
  · rintro ⟨hp, hd, hn⟩
    obtain ⟨p, hp⟩ := Option.isSome_iff_exists.mp hp
    obtain ⟨d, hd⟩ := Option.isSome_iff_exists.mp hd
    obtain ⟨n, hn⟩ := Option.isSome_iff_exists.mp hn
    exact ⟨(n, d.boxAt p), body?_eq_some_iff.mpr ⟨p, d, hp, hd, hn, rfl⟩⟩
  · rintro ⟨⟨n, box⟩, hb⟩
    obtain ⟨p, d, hp, hd, hn, -⟩ := body?_eq_some_iff.mp hb
    exact ⟨Option.isSome_of_eq_some hp, Option.isSome_of_eq_some hd, Option.isSome_of_eq_some hn⟩

theorem mem_shots_iff : shot ∈ w.shots t ↔
    w.registry.get? .kind shot.handle = some .playerBullet ∧
      w.body? shot.handle = some (shot.networkId, shot.box) ∧
      w.damageOf t shot.handle = shot.damage := by
  rw [shots, List.mem_mergeSort, List.mem_filterMap]
  constructor
  · rintro ⟨k, hk, hs⟩
    obtain ⟨⟨n, box⟩, hb, rfl⟩ := Option.map_eq_some_iff.mp hs
    exact ⟨mem_ofKind.mp hk, hb, rfl⟩
  · rintro ⟨hk, hb, hd⟩
    obtain ⟨k, n, box, damage⟩ := shot
    refine ⟨k, mem_ofKind.mpr hk, ?_⟩
    rw [shot?, hb, Option.map_some]
    exact congrArg some (congrArg (Shot.mk k n box) hd)

theorem mem_targets_iff : target ∈ w.targets ↔
    w.registry.get? .kind target.handle = some .enemy ∧
      w.body? target.handle = some (target.networkId, target.box) ∧
      w.registry.get? .health target.handle = some target.health := by
  rw [targets, List.mem_mergeSort, List.mem_filterMap]
  constructor
  · rintro ⟨k, hk, hs⟩
    obtain ⟨⟨n, box⟩, hb, hs⟩ := Option.bind_eq_some_iff.mp hs
    obtain ⟨x, hx, rfl⟩ := Option.map_eq_some_iff.mp hs
    exact ⟨mem_ofKind.mp hk, hb, hx⟩
  · rintro ⟨hk, hb, hx⟩
    refine ⟨target.handle, mem_ofKind.mpr hk, ?_⟩
    rw [target?, hb, Option.bind_some, hx]
    rfl

theorem isBullet_iff (t : Tuning) : w.IsBullet h ↔ ∃ shot ∈ w.shots t, shot.handle = h := by
  constructor
  · rintro ⟨hk, hb⟩
    obtain ⟨⟨n, box⟩, hb⟩ := hasBody_iff.mp hb
    exact ⟨⟨h, n, box, w.damageOf t h⟩, mem_shots_iff.mpr ⟨hk, hb, rfl⟩, rfl⟩
  · rintro ⟨shot, hs, rfl⟩
    obtain ⟨hk, hb, -⟩ := mem_shots_iff.mp hs
    exact ⟨hk, hasBody_iff.mpr ⟨_, hb⟩⟩

theorem isEnemy_iff : w.IsEnemy h ↔ ∃ target ∈ w.targets, target.handle = h := by
  constructor
  · rintro ⟨hk, hb, hx⟩
    obtain ⟨⟨n, box⟩, hb⟩ := hasBody_iff.mp hb
    obtain ⟨x, hx⟩ := Option.isSome_iff_exists.mp hx
    exact ⟨⟨h, n, box, x⟩, mem_targets_iff.mpr ⟨hk, hb, hx⟩, rfl⟩
  · rintro ⟨target, ht, rfl⟩
    obtain ⟨hk, hb, hx⟩ := mem_targets_iff.mp ht
    exact ⟨hk, hasBody_iff.mpr ⟨_, hb⟩, Option.isSome_of_eq_some hx⟩

theorem boxOf_shot (hs : shot ∈ w.shots t) : w.boxOf shot.handle = shot.box :=
  boxOf_of_body? (mem_shots_iff.mp hs).2.1

theorem boxOf_target (ht : target ∈ w.targets) : w.boxOf target.handle = target.box :=
  boxOf_of_body? (mem_targets_iff.mp ht).2.1

theorem healthLeft_target (ht : target ∈ w.targets) :
    w.healthLeft target.handle = target.health.current.toNat := by
  rw [healthLeft, (mem_targets_iff.mp ht).2.2]
  rfl

/-! ### Each of them once -/

/-- What is made of entities, at most one thing of each, can be told apart by them. -/
theorem map_filterMap_nodup {α : Type} {f : Handle → Option α} {g : α → Handle}
    (hf : ∀ {h a}, f h = some a → g a = h) {handles : List Handle} (hnd : handles.Nodup) :
    ((handles.filterMap f).map g).Nodup := by
  have hpairs : (handles.filterMap f).Pairwise fun a b => g a ≠ g b := by
    refine List.Pairwise.filterMap f (fun h h' hne a ha b hb => ?_) hnd
    rw [hf ha, hf hb]
    exact hne
  exact List.pairwise_map.mpr hpairs

theorem shots_nodup (w : World) (t : Tuning) : ((w.shots t).map Shot.handle).Nodup := by
  have hsame : ∀ {k s}, w.shot? t k = some s → s.handle = k := by
    intro k s hs
    obtain ⟨_, -, rfl⟩ := Option.map_eq_some_iff.mp hs
    rfl
  exact (((List.mergeSort_perm _ _).map _).nodup_iff).mpr
    (map_filterMap_nodup hsame (w.ofKind_nodup _))

theorem targets_nodup (w : World) : (w.targets.map Target.handle).Nodup := by
  have hsame : ∀ {k e}, w.target? k = some e → e.handle = k := by
    intro k e he
    obtain ⟨_, -, he⟩ := Option.bind_eq_some_iff.mp he
    obtain ⟨_, -, rfl⟩ := Option.map_eq_some_iff.mp he
    rfl
  exact (((List.mergeSort_perm _ _).map _).nodup_iff).mpr
    (map_filterMap_nodup hsame (w.ofKind_nodup _))

/-! ## Hits -/

theorem shot_mem_of_hit {hit : Hit} (hh : hit ∈ w.hits t) : hit.shot ∈ w.shots t :=
  (mem_volley hh).1

/-- The bullets that strike keep their order. -/
theorem hits_sublist (w : World) (t : Tuning) : ((w.hits t).map Hit.shot).Sublist (w.shots t) :=
  shots_sublist w.targets_nodup

/-- The enemy that is hit is one of the world, as the hits before have left it. -/
theorem target_of_hit {before after : List Hit} {hit : Hit}
    (hsplit : w.hits t = before ++ hit :: after) :
    ∃ e ∈ w.targets, hit.target = e.after before ∧
      0 < (e.after before).health.current.toNat ∧ hit.shot.box.overlaps e.box = true := by
  obtain ⟨earlier, later, -, -, hchoice⟩ := exists_turn w.targets_nodup hsplit
  obtain ⟨e, he, heq⟩ := List.mem_map.mp (choose?_mem hchoice)
  have hstruck := isStruckBy_of_choose? hchoice
  rw [← heq, Target.isStruckBy, Bool.and_eq_true, decide_eq_true_eq] at hstruck
  exact ⟨e, he, heq.symm, UInt8.lt_iff_toNat_lt.mp hstruck.1, hstruck.2⟩

/-- Hits and strikes do the same damage. -/
theorem damageTo_eq {hits : List Hit} (hmem : ∀ hit ∈ hits, hit.shot ∈ w.shots t) (h : Handle) :
    w.damageTo t (hits.map fun hit => (hit.shot.handle, hit.target.handle)) h =
      ((blows hits h).map UInt8.toNat).sum := by
  rw [damageTo, blows, List.filter_map, List.map_map, List.map_map]
  refine congrArg List.sum (List.map_congr_left fun hit hh => ?_)
  have hs := hmem hit (List.mem_of_mem_filter hh)
  exact congrArg UInt8.toNat (mem_shots_iff.mp hs).2.2

/-- What is left of an enemy after some of the hits of a pass. -/
theorem toNat_after {hits : List Hit} (hmem : ∀ hit ∈ hits, hit.shot ∈ w.shots t)
    (ht : target ∈ w.targets) : (target.after hits).health.current.toNat =
      w.healthLeft target.handle -
        w.damageTo t (hits.map fun hit => (hit.shot.handle, hit.target.handle)) target.handle := by
  rw [damageTo_eq hmem, healthLeft_target ht]
  exact Health.toNat_hitAll _ _

/-! ## The registry after the hits -/

theorem pool_foldl_hit (hits : List Hit) (r : Registry ComponentType.Value) :
    (hits.foldl (fun r hit =>
      r.modify .health hit.target.handle fun health => health.hit hit.shot.damage) r).pool =
        r.pool := by
  induction hits generalizing r with
  | nil => rfl
  | cons hit rest ih => rw [List.foldl_cons, ih, Registry.pool_modify]

theorem column_foldl_hit {c : ComponentType} (hc : c ≠ .health) (hits : List Hit)
    (r : Registry ComponentType.Value) :
    (hits.foldl (fun r hit =>
      r.modify .health hit.target.handle fun health => health.hit hit.shot.damage) r).column c =
        r.column c := by
  induction hits generalizing r with
  | nil => rfl
  | cons hit rest ih =>
    rw [List.foldl_cons, ih, Registry.modify]
    split
    · rfl
    · exact Registry.column_setColumn_of_ne r hc.symm _

/-- Every health is what its owner's blows leave of it. -/
theorem get?_health_foldl_hit (h : Handle) (hits : List Hit) (r : Registry ComponentType.Value) :
    (hits.foldl (fun r hit =>
      r.modify .health hit.target.handle fun health => health.hit hit.shot.damage) r).get? .health h =
        (r.get? .health h).map (·.hitAll (blows hits h)) := by
  induction hits generalizing r with
  | nil => exact Option.map_id'.symm
  | cons hit rest ih =>
    rw [List.foldl_cons, ih]
    by_cases heq : hit.target.handle = h
    · subst heq
      rw [Registry.get?_modify_self, Option.map_map]
      simp [blows, Health.hitAll, Function.comp_def]
    · rw [Registry.get?_modify_of_ne _ (.inr heq)]
      simp [blows, heq]

/-- What a pass leaves of anybody's health. -/
theorem get?_health_collide (w : World) (t : Tuning) (h : Handle) :
    (w.collide t).1.registry.get? .health h = (w.registry.get? .health h).map fun x =>
      { x with current := .ofNat (x.current.toNat - w.damageTo t (w.strikes t) h) } := by
  have hdamage := damageTo_eq (fun _ => shot_mem_of_hit (w := w) (t := t)) h
  rw [strikes, hdamage]
  refine (get?_health_foldl_hit h (w.hits t) w.registry).trans ?_
  simp only [Health.hitAll_eq]

/-- A pass leaves all other components as they are. -/
theorem get?_collide_of_ne (w : World) (t : Tuning) {c : ComponentType} (hc : c ≠ .health)
    (h : Handle) : (w.collide t).1.registry.get? c h = w.registry.get? c h := by
  have hcolumn : (w.collide t).1.registry.column c = w.registry.column c := column_foldl_hit hc _ _
  rw [Registry.get?, hcolumn]
  rfl

theorem hasBody_collide (w : World) (t : Tuning) (h : Handle) :
    (w.collide t).1.HasBody h ↔ w.HasBody h := by
  have hsame : (w.collide t).1.body? h = w.body? h := by
    rw [body?, get?_collide_of_ne w t (by decide), get?_collide_of_ne w t (by decide),
      get?_collide_of_ne w t (by decide)]
    rfl
  rw [hasBody_iff, hsame, hasBody_iff]

theorem boxOf_collide (w : World) (t : Tuning) (h : Handle) :
    (w.collide t).1.boxOf h = w.boxOf h := by
  rw [boxOf, get?_collide_of_ne w t (by decide), get?_collide_of_ne w t (by decide)]
  rfl

theorem isEnemy_collide (w : World) (t : Tuning) (h : Handle) :
    (w.collide t).1.IsEnemy h ↔ w.IsEnemy h := by
  rw [IsEnemy, get?_collide_of_ne w t (by decide), hasBody_collide, get?_health_collide,
    Option.isSome_map]
  rfl

theorem healthLeft_collide (w : World) (t : Tuning) (h : Handle) :
    (w.collide t).1.healthLeft h = w.healthLeft h - w.damageTo t (w.strikes t) h := by
  rw [healthLeft, get?_health_collide, healthLeft]
  cases w.registry.get? .health h with
  | none => exact (Nat.zero_sub _).symm
  | some x =>
    show (UInt8.ofNat (x.current.toNat - _)).toNat = x.current.toNat - _
    rw [UInt8.toNat_ofNat']
    exact Nat.mod_eq_of_lt (Nat.lt_of_le_of_lt (Nat.sub_le _ _) x.current.toNat_lt)

/-- What a pass leaves of an enemy. -/
theorem healthLeft_collide_target (ht : target ∈ w.targets) :
    (w.collide t).1.healthLeft target.handle =
      (target.after (w.hits t)).health.current.toNat := by
  rw [healthLeft_collide, toNat_after (fun _ => shot_mem_of_hit) ht]
  rfl

/-! ## The condemned -/

/-- A hit is lethal when nothing is left after it of the enemy that is hit. -/
theorem isLethal_iff {e : Target} {before : List Hit} {hit : Hit}
    (heq : hit.target = e.after before) :
    hit.isLethal = true ↔ (e.after (before ++ [hit])).health.current.toNat = 0 := by
  have hblow : blows [hit] e.handle = [hit.shot.damage] := by simp [blows, heq]
  have hremaining : (e.after (before ++ [hit])).health = hit.remaining := by
    rw [Target.after_append, Hit.remaining, heq, Target.after, Target.handle_after, hblow]
    rfl
  rw [hremaining, Hit.isLethal, Health.isSpent, beq_iff_eq, ← UInt8.toNat_inj]
  rfl

/-- Some hit is lethal to an entity just when it is an enemy of which something was left and nothing is
any more. -/
theorem exists_lethal_iff : (∃ hit ∈ w.hits t, hit.isLethal = true ∧ hit.target.handle = h) ↔
    w.IsEnemy h ∧ 0 < w.healthLeft h ∧ (w.collide t).1.healthLeft h = 0 := by
  constructor
  · rintro ⟨hit, hh, hkill, rfl⟩
    obtain ⟨before, after, hsplit⟩ := List.append_of_mem hh
    obtain ⟨e, he, heq, hpos, -⟩ := target_of_hit hsplit
    have hhandle : hit.target.handle = e.handle := by rw [heq, Target.handle_after]
    rw [hhandle, healthLeft_collide_target he, healthLeft_target he]
    refine ⟨isEnemy_iff.mpr ⟨e, he, rfl⟩, ?_, ?_⟩
    · exact Nat.lt_of_lt_of_le hpos (Target.toNat_after_append_le [] before e)
    · -- at the hit that kills it nothing is left, and later hits bring nothing back
      have hdone := (isLethal_iff heq).mp hkill
      have hle := Target.toNat_after_append_le (before ++ [hit]) after e
      rw [List.append_assoc, List.singleton_append, ← hsplit] at hle
      omega
  · rintro ⟨henemy, hpos, hzero⟩
    obtain ⟨e, he, rfl⟩ := isEnemy_iff.mp henemy
    rw [healthLeft_target he] at hpos
    rw [healthLeft_collide_target he] at hzero
    -- there is a hit after which for the first time nothing is left of it
    obtain ⟨before, hit, after, hsplit, hbefore, hafter⟩ :=
      exists_tipping (P := fun hits => 0 < (e.after hits).health.current.toNat) hpos
        (Nat.not_lt.mpr (Nat.le_of_eq hzero))
    -- the hit that makes a difference to it is one on it
    obtain ⟨e', he', heq, -, -⟩ := target_of_hit hsplit
    have hhandle : hit.target.handle = e.handle := by
      by_contra hne
      have hnone : blows [hit] e.handle = [] := by simp [blows, hne]
      rw [Target.after_append, Target.after, Target.handle_after, hnone] at hafter
      exact hafter hbefore
    obtain rfl : e = e' := List.inj_on_of_nodup_map w.targets_nodup he he' (by
      rw [← hhandle, heq, Target.handle_after])
    refine ⟨hit, hsplit ▸ List.mem_append_right _ List.mem_cons_self, ?_, hhandle⟩
    exact (isLethal_iff heq).mpr (Nat.eq_zero_of_not_pos hafter)

theorem mem_departed : h ∈ w.departed t ↔
    (w.IsBullet h ∧ t.bullet.despawnX < (w.boxOf h).x) ∨
      (w.IsEnemy h ∧ (w.boxOf h).x < t.enemy.despawnX) := by
  simp only [departed, List.mem_append, List.mem_map, List.mem_filter, decide_eq_true_eq]
  refine or_congr ⟨?_, ?_⟩ ⟨?_, ?_⟩
  · rintro ⟨shot, ⟨hs, hx⟩, rfl⟩
    exact ⟨(isBullet_iff t).mpr ⟨shot, hs, rfl⟩, by rwa [boxOf_shot hs]⟩
  · rintro ⟨hb, hx⟩
    obtain ⟨shot, hs, rfl⟩ := (isBullet_iff t).mp hb
    exact ⟨shot, ⟨hs, by rwa [boxOf_shot hs] at hx⟩, rfl⟩
  · rintro ⟨e, ⟨he, hx⟩, rfl⟩
    exact ⟨isEnemy_iff.mpr ⟨e, he, rfl⟩, by rwa [boxOf_target he]⟩
  · rintro ⟨hb, hx⟩
    obtain ⟨e, he, rfl⟩ := isEnemy_iff.mp hb
    exact ⟨e, ⟨he, by rwa [boxOf_target he] at hx⟩, rfl⟩

/-- Whom a pass condemns. -/
theorem mem_collide : h ∈ (w.collide t).2 ↔
    (∃ e, (h, e) ∈ w.strikes t) ∨
    (w.IsEnemy h ∧ 0 < w.healthLeft h ∧ (w.collide t).1.healthLeft h = 0) ∨
    (w.IsBullet h ∧ t.bullet.despawnX < (w.boxOf h).x) ∨
    (w.IsEnemy h ∧ (w.boxOf h).x < t.enemy.despawnX) := by
  -- the queue has the bullets that struck, those that were killed, and then those that left the
  -- field
  have hcondemned : h ∈ (w.collide t).2 ↔
      h ∈ (w.hits t).flatMap condemnedBy ∨ h ∈ w.departed t := List.mem_append
  have hhits : h ∈ (w.hits t).flatMap condemnedBy ↔ (∃ e, (h, e) ∈ w.strikes t) ∨
      ∃ hit ∈ w.hits t, hit.isLethal = true ∧ hit.target.handle = h := by
    simp only [List.mem_flatMap, condemnedBy, List.mem_cons, strikes, List.mem_map, Prod.mk.injEq]
    constructor
    · rintro ⟨hit, hh, rfl | hkill⟩
      · exact .inl ⟨_, hit, hh, rfl, rfl⟩
      · split at hkill
        · exact .inr ⟨hit, hh, ‹_›, (List.mem_singleton.mp hkill).symm⟩
        · exact absurd hkill List.not_mem_nil
    · rintro (⟨_, hit, hh, rfl, -⟩ | ⟨hit, hh, hkill, rfl⟩)
      · exact ⟨hit, hh, .inl rfl⟩
      · exact ⟨hit, hh, .inr (by rw [if_pos hkill]; exact List.mem_singleton_self _)⟩
  rw [hcondemned, hhits, exists_lethal_iff, mem_departed, or_assoc]

/-! ## The account of a pass -/

/-- What a pass over bullets and enemies does to a world and to the set of those who are condemned, as
told by the strikes. -/
structure Settles (w : World) (t : Tuning) (queue : HandleSet) (strikes : List (Handle × Handle))
    (w' : World) (queue' : HandleSet) : Prop where
  /-- A bullet strikes at most one enemy. -/
  once : (strikes.map Prod.fst).Nodup
  /-- A bullet strikes an enemy that it overlaps. -/
  overlap : ∀ b e, (b, e) ∈ strikes →
    w.IsBullet b ∧ w.IsEnemy e ∧ (w.boxOf b).overlaps (w.boxOf e) = true
  /-- Something is left of an enemy when it is struck. -/
  standing : ∀ before b e after, strikes = before ++ (b, e) :: after →
    w.damageTo t before e < w.healthLeft e
  /-- Everybody's health is less by the damage of the strikes, down to nothing. -/
  health : ∀ h, w'.registry.get? .health h = (w.registry.get? .health h).map fun x =>
    { x with current := .ofNat (x.current.toNat - w.damageTo t strikes h) }
  /-- A bullet misses only if in the end nothing is left of any enemy that it overlaps. -/
  idle : ∀ b, w.IsBullet b → (∀ e, (b, e) ∉ strikes) → ∀ e, w.IsEnemy e →
    (w.boxOf b).overlaps (w.boxOf e) = true → w'.healthLeft e = 0
  /-- Condemned are those who were, the bullets that strike, the enemies of which nothing is left any
  more, and those who have left the field. -/
  queued : ∀ h, h ∈ queue' ↔ h ∈ queue ∨ (∃ e, (h, e) ∈ strikes) ∨
    (w.IsEnemy h ∧ 0 < w.healthLeft h ∧ w'.healthLeft h = 0) ∨
    (w.IsBullet h ∧ t.bullet.despawnX < (w.boxOf h).x) ∨
    (w.IsEnemy h ∧ (w.boxOf h).x < t.enemy.despawnX)
  /-- Nobody comes or goes. -/
  pool : w'.registry.pool = w.registry.pool
  /-- All components but healths stay as they are. -/
  column : ∀ c, c ≠ .health → w'.registry.column c = w.registry.column c
  players : w'.players = w.players
  nextNetworkId : w'.nextNetworkId = w.nextNetworkId

theorem strikes_once (w : World) (t : Tuning) : ((w.strikes t).map Prod.fst).Nodup := by
  have hsub := (w.hits_sublist t).map Shot.handle
  rw [List.map_map] at hsub
  rw [strikes, List.map_map]
  exact (w.shots_nodup t).sublist hsub

theorem overlap_of_strike {b e : Handle} (h : (b, e) ∈ w.strikes t) :
    w.IsBullet b ∧ w.IsEnemy e ∧ (w.boxOf b).overlaps (w.boxOf e) = true := by
  obtain ⟨hit, hh, heq⟩ := List.mem_map.mp h
  obtain ⟨rfl, rfl⟩ := Prod.mk.inj heq
  obtain ⟨before, after, hsplit⟩ := List.append_of_mem hh
  obtain ⟨e, he, htarget, -, hoverlap⟩ := target_of_hit hsplit
  have hs := shot_mem_of_hit hh
  have hhandle : hit.target.handle = e.handle := by rw [htarget, Target.handle_after]
  rw [hhandle, boxOf_shot hs, boxOf_target he]
  exact ⟨(isBullet_iff t).mpr ⟨_, hs, rfl⟩, isEnemy_iff.mpr ⟨e, he, rfl⟩, hoverlap⟩

theorem standing_of_strike {before after : List (Handle × Handle)} {b e : Handle}
    (h : w.strikes t = before ++ (b, e) :: after) : w.damageTo t before e < w.healthLeft e := by
  obtain ⟨past, rest, hsplit, rfl, hrest⟩ := List.map_eq_append_iff.mp h
  obtain ⟨hit, future, rfl, hpair, -⟩ := List.map_eq_cons_iff.mp hrest
  obtain ⟨rfl, rfl⟩ := Prod.mk.inj hpair
  obtain ⟨e, he, htarget, hpos, -⟩ := target_of_hit hsplit
  have hmem : ∀ x ∈ past, x.shot ∈ w.shots t :=
    fun x hx => shot_mem_of_hit (hsplit ▸ List.mem_append_left _ hx)
  have hhandle : hit.target.handle = e.handle := by rw [htarget, Target.handle_after]
  rw [toNat_after hmem he] at hpos
  rw [hhandle]
  exact Nat.lt_of_sub_pos hpos

theorem healthLeft_of_idle {b e : Handle} (hb : w.IsBullet b) (hidle : ∀ e, (b, e) ∉ w.strikes t)
    (he : w.IsEnemy e) (hoverlap : (w.boxOf b).overlaps (w.boxOf e) = true) :
    (w.collide t).1.healthLeft e = 0 := by
  obtain ⟨shot, hs, rfl⟩ := (isBullet_iff t).mp hb
  obtain ⟨target, ht, rfl⟩ := isEnemy_iff.mp he
  obtain ⟨earlier, later, hsplit⟩ := List.append_of_mem hs
  have hhits : w.hits t = volley t.hitPolicy (earlier ++ shot :: later) w.targets := by
    rw [hits, hsplit]
  have hnone : ∀ hit ∈ volley t.hitPolicy (earlier ++ shot :: later) w.targets, hit.shot ≠ shot :=
    fun hit hh heq => hidle hit.target.handle (List.mem_map.mpr ⟨hit, hhits ▸ hh, by rw [heq]⟩)
  have hchoice := no_choice_of_no_hit w.targets_nodup hnone
  -- when the bullet had its turn, nothing was left of the enemy
  have hunharmed := choose?_eq_none_iff.mp hchoice _ (List.mem_map_of_mem ht)
  rw [boxOf_shot hs, boxOf_target ht] at hoverlap
  have hspent : (target.after (volley t.hitPolicy earlier w.targets)).health.current.toNat = 0 := by
    have hnot : ¬ 0 < (target.after (volley t.hitPolicy earlier w.targets)).health.current := by
      intro hpos
      rw [Target.isStruckBy, decide_eq_true hpos, Bool.true_and] at hunharmed
      exact absurd (hunharmed.symm.trans hoverlap) (by simp)
    exact Nat.eq_zero_of_not_pos fun hpos => hnot (UInt8.lt_iff_toNat_lt.mpr hpos)
  rw [healthLeft_collide_target ht, hhits, volley_append w.targets_nodup]
  exact Nat.le_zero.mp (hspent ▸ Target.toNat_after_append_le _ _ target)

end World

namespace Simulation

/-- **A pass over bullets and enemies, settled.** In whatever state a simulation is, and whoever is
condemned in it already: the strikes of a pass account for everything that the pass does to the world and
to the condemned, and the rest of the simulation is left alone. -/
theorem collide_settles (s : Simulation) :
    s.world.Settles s.tuning s.condemned (s.world.strikes s.tuning) s.collide.world
      s.collide.condemned ∧
    s.collide = { s with world := s.collide.world, condemned := s.collide.condemned } := by
  refine ⟨⟨s.world.strikes_once s.tuning, fun _ _ => World.overlap_of_strike,
    fun _ _ _ _ => World.standing_of_strike, s.world.get?_health_collide s.tuning,
    fun _ hb hidle _ he => World.healthLeft_of_idle hb hidle he, fun h => ?_,
    World.pool_foldl_hit _ _, fun _ hc => World.column_foldl_hit hc _ _, rfl, rfl⟩, rfl⟩
  have hqueue : h ∈ s.collide.condemned ↔ h ∈ (s.world.collide s.tuning).2 ∨ h ∈ s.condemned :=
    HandleSet.mem_insertAll
  rw [hqueue, World.mem_collide, or_comm]
  rfl

end Simulation

end Skirmish
