import Mathlib.Data.List.Sort
import Skirmish.Proofs.Strikes
/-!
# Whom a bullet aims at

The bullets of a world have their turns in the order of their network ids. Each strikes the enemy that the
policy prefers among those in its reach: those that it overlaps and that the strikes before have left
standing (`World.Aims`).

Handles have no part in this. Take the handles away from bullets and enemies, and let them be known by
their network ids alone: the volley is the same (`volley_bare`). Two worlds that hold the same bullets and
the same enemies under the same network ids (`World.Alike`) differ in nothing else that a volley could
see, so in both the same bullets strike the same enemies, and the same are condemned in the same order
(`World.collide_selects`).
-/

namespace Skirmish

/-! ## The first of least measure -/

theorem leastBy_map {α β : Type} (f : α → β) (measure : β → Int) (as : List α) :
    leastBy measure (as.map f) = (leastBy (measure ∘ f) as).map f := by
  cases as with
  | nil => rfl
  | cons a rest =>
    rw [List.map_cons, leastBy, leastBy, Option.map_some, List.foldl_map]
    refine congrArg some (List.foldl_hom f fun best b => ?_)
    exact (apply_ite f _ _ _).symm

/-- Sorted by network ids. -/
theorem sorted_mergeSort {α : Type} (key : α → UInt32) (as : List α) :
    (as.mergeSort fun a b => key a ≤ key b).Pairwise fun a b => key a ≤ key b := by
  refine (List.pairwise_mergeSort (fun a b c hab hbc => ?_) (fun a b => ?_) as).imp of_decide_eq_true
  · rw [decide_eq_true_eq] at hab hbc ⊢
    exact UInt32.le_trans hab hbc
  · rw [Bool.or_eq_true, decide_eq_true_eq, decide_eq_true_eq]
    exact UInt32.le_total _ _

/-- Sorted by network ids of which no two are the same. -/
theorem ascending_mergeSort {α : Type} (key : α → UInt32) {as : List α} (hnd : (as.map key).Nodup) :
    (as.mergeSort fun a b => key a ≤ key b).Pairwise fun a b => key a < key b := by
  have hne := (((List.mergeSort_perm as fun a b => key a ≤ key b).map key).nodup_iff).mpr hnd
  exact ((sorted_mergeSort key as).and (List.pairwise_map.mp hne)).imp fun h =>
    UInt32.lt_of_le_of_ne h.1 h.2

/-- Two lists that ascend are the same if they have the same members. -/
theorem eq_of_ascending {α : Type} (key : α → UInt32) {as bs : List α}
    (ha : as.Pairwise fun a b => key a < key b) (hb : bs.Pairwise fun a b => key a < key b)
    (h : ∀ a, a ∈ as ↔ a ∈ bs) : as = bs := by
  have : Std.Irrefl fun a b : α => key a < key b := ⟨fun _ => UInt32.lt_irrefl _⟩
  have : Std.Antisymm fun a b : α => key a < key b :=
    ⟨fun _ _ hlt hgt => absurd hgt (UInt32.lt_asymm hlt)⟩
  exact ha.eq_of_mem_iff hb h

theorem least_of_choose? {policy : HitPolicy} {shot : Shot} {targets : List Target}
    (hasc : targets.Pairwise fun a b => a.networkId < b.networkId) {e e' : Target}
    (hchoice : policy.choose? shot targets = some e) (he' : e' ∈ targets)
    (hstruck : e'.isStruckBy shot = true) : policy.measure shot e < policy.measure shot e' ∨
      policy.measure shot e = policy.measure shot e' ∧ e.networkId ≤ e'.networkId := by
  rw [choose?_eq] at hchoice
  obtain ⟨before, after, hsplit, hbefore, hafter⟩ := isFirstLeast_of_leastBy hchoice
  have hsorted := hasc.sublist (List.filter_sublist (p := (·.isStruckBy shot)))
  have hmem : e' ∈ targets.filter (·.isStruckBy shot) := List.mem_filter.mpr ⟨he', hstruck⟩
  rw [hsplit] at hsorted hmem
  rcases List.mem_append.mp hmem with hm | hm
  · exact .inl (hbefore e' hm)
  · rcases List.mem_cons.mp hm with rfl | hm
    · exact .inr ⟨rfl, UInt32.le_refl _⟩
    · have hlater := (List.pairwise_cons.mp (List.pairwise_append.mp hsorted).2.1).1 e' hm
      rcases Int.lt_or_eq_of_le (hafter e' hm) with hlt | heq
      · exact .inl hlt
      · exact .inr ⟨heq, UInt32.le_of_lt hlater⟩

/-- Among enemies in the order of their network ids, a bullet strikes the one in its reach that measures
least, and of those that measure the same the one of least network id. -/
theorem choose?_eq_some_iff {policy : HitPolicy} {shot : Shot} {targets : List Target}
    (hasc : targets.Pairwise fun a b => a.networkId < b.networkId) {e : Target} :
    policy.choose? shot targets = some e ↔ (e ∈ targets ∧ e.isStruckBy shot = true) ∧
      ∀ e' ∈ targets, e'.isStruckBy shot = true → policy.measure shot e < policy.measure shot e' ∨
        policy.measure shot e = policy.measure shot e' ∧ e.networkId ≤ e'.networkId := by
  constructor
  · intro hchoice
    exact ⟨⟨World.choose?_mem hchoice, isStruckBy_of_choose? hchoice⟩,
      fun e' => least_of_choose? hasc hchoice⟩
  · rintro ⟨⟨he, hstruck⟩, hbest⟩
    cases hchoice : policy.choose? shot targets with
    | none => exact absurd (choose?_eq_none_iff.mp hchoice e he) (by simp [hstruck])
    | some e₀ =>
      -- each of the two is preferred to the other, so they have one network id
      have he₀ := World.choose?_mem hchoice
      have hthis := least_of_choose? hasc hchoice he hstruck
      have hthat := hbest e₀ he₀ (isStruckBy_of_choose? hchoice)
      have hid : e₀.networkId = e.networkId := by
        rcases hthis with h | ⟨h, hle⟩
        · omega
        · rcases hthat with h' | ⟨-, hle'⟩
          · omega
          · exact UInt32.le_antisymm hle hle'
      -- the handles are not in order, but the network ids are, so an id has one target
      have hids : (targets.map Target.networkId).Nodup :=
        List.pairwise_map.mpr (hasc.imp fun hlt => UInt32.ne_of_lt hlt)
      rw [List.inj_on_of_nodup_map hids he₀ he hid]

/-! ## Without handles -/

/-- A bullet that is known by its network id alone. -/
def Shot.bare (shot : Shot) : Shot := { shot with handle := ⟨shot.networkId.toNat⟩ }

/-- An enemy that is known by its network id alone, and what is left of it. -/
def Target.bare (e : Target) : Target :=
  { e with handle := ⟨e.networkId.toNat⟩, health := { e.health with max := 0 } }

def Hit.bare (hit : Hit) : Hit := ⟨hit.shot.bare, hit.target.bare⟩

theorem choose?_bare (policy : HitPolicy) (shot : Shot) (targets : List Target) :
    policy.choose? shot.bare (targets.map Target.bare) =
      (policy.choose? shot targets).map Target.bare := by
  have hmeasure : policy.measure shot.bare ∘ Target.bare = policy.measure shot := by
    cases policy <;> rfl
  rw [choose?_eq, choose?_eq, List.filter_map, leastBy_map, hmeasure]
  rfl

theorem strike_bare (policy : HitPolicy) (shot : Shot) (targets : List Target) :
    policy.strike shot.bare (targets.map Target.bare) =
      (policy.strike shot targets).map Hit.bare := by
  rw [HitPolicy.strike, choose?_bare, HitPolicy.strike]
  cases policy.choose? shot targets <;> rfl

/-- Blows find the same enemy by its network id as by its handle. -/
theorem after_bare {hits : List Hit} {e : Target}
    (hsame : ∀ hit ∈ hits, hit.target.networkId = e.networkId ↔ hit.target.handle = e.handle) :
    e.bare.after (hits.map Hit.bare) = (e.after hits).bare := by
  have hblows : blows (hits.map Hit.bare) e.bare.handle = blows hits e.handle := by
    rw [blows, List.filter_map, List.map_map, blows]
    refine congrArg (List.map _) (List.filter_congr fun hit hh => ?_)
    rw [Function.comp_apply, decide_eq_decide, ← hsame hit hh, ← UInt32.toNat_inj]
    exact ⟨congrArg Handle.index, congrArg Handle.mk⟩
  rw [Target.after, hblows, Health.hitAll_eq, Target.after, Health.hitAll_eq]
  rfl

/-- Enemies who can be told apart by their handles, and by their network ids as well. -/
structure Discerned (targets : List Target) : Prop where
  handle : (targets.map Target.handle).Nodup
  networkId : (targets.map Target.networkId).Nodup

namespace Discerned

variable {targets : List Target}

theorem after (ht : Discerned targets) (hits : List Hit) :
    Discerned (targets.map (Target.after hits)) := by
  refine ⟨by rw [Target.map_handle_after]; exact ht.handle, ?_⟩
  rw [List.map_map]
  exact ht.networkId

theorem bare (ht : Discerned targets) : ((targets.map Target.bare).map Target.handle).Nodup := by
  have hids := ht.networkId.map (f := fun n : UInt32 => Handle.mk n.toNat) fun a b h =>
    UInt32.toNat_inj.mp (congrArg Handle.index h)
  rw [List.map_map] at hids ⊢
  exact hids

/-- After the same hits the enemies are the same, with handles or without. -/
theorem map_after_bare (ht : Discerned targets) {hits : List Hit}
    (hmem : ∀ hit ∈ hits, ∃ e ∈ targets, hit.target.handle = e.handle ∧
      hit.target.networkId = e.networkId) :
    (targets.map Target.bare).map (Target.after (hits.map Hit.bare)) =
      (targets.map (Target.after hits)).map Target.bare := by
  rw [List.map_map, List.map_map]
  refine List.map_congr_left fun e he => after_bare fun hit hh => ?_
  obtain ⟨e', he', hhandle, hid⟩ := hmem hit hh
  rw [hhandle, hid]
  constructor
  · intro heq
    rw [List.inj_on_of_nodup_map ht.networkId he' he heq]
  · intro heq
    rw [List.inj_on_of_nodup_map ht.handle he' he heq]

end Discerned

/-- A volley goes the same way without handles. -/
theorem volley_bare (policy : HitPolicy) (shots : List Shot) {targets : List Target}
    (ht : Discerned targets) :
    volley policy (shots.map Shot.bare) (targets.map Target.bare) =
      (volley policy shots targets).map Hit.bare := by
  induction shots generalizing targets with
  | nil => rfl
  | cons shot rest ih =>
    have hmem : ∀ hit ∈ policy.strike shot targets, ∃ e ∈ targets,
        hit.target.handle = e.handle ∧ hit.target.networkId = e.networkId :=
      fun hit hh => ⟨_, World.choose?_mem (mem_strike.mp hh).2, rfl, rfl⟩
    rw [List.map_cons, volley_cons ht.bare, strike_bare, ht.map_after_bare hmem, ih (ht.after _),
      volley_cons ht.handle, List.map_append]

namespace World

variable {w : World} {t : Tuning} {shot : Shot} {target : Target}

/-! ## In a world -/

/-- Network ids tell entities apart. -/
def Distinct (w : World) : Prop :=
  ∀ h h' n, w.registry.get? .networkId h = some n → w.registry.get? .networkId h' = some n → h = h'

theorem distinct_of_nodup (h : ((w.registry.entries .networkId).map Prod.snd).Nodup) :
    w.Distinct := by
  intro k k' n hk hk'
  exact congrArg Prod.fst (List.inj_on_of_nodup_map h (Registry.mem_entries.mpr hk)
    (Registry.mem_entries.mpr hk') rfl)

/-- The network id of an entity, zero if it has none. -/
def idOf (w : World) (h : Handle) : UInt32 := (w.registry.get? .networkId h).getD 0

theorem idOf_shot (hs : shot ∈ w.shots t) : w.idOf shot.handle = shot.networkId := by
  rw [idOf, networkId_of_body? (mem_shots_iff.mp hs).2.1]
  rfl

theorem idOf_target (ht : target ∈ w.targets) : w.idOf target.handle = target.networkId := by
  rw [idOf, networkId_of_body? (mem_targets_iff.mp ht).2.1]
  rfl

theorem shots_ids_nodup (hd : w.Distinct) (t : Tuning) :
    ((w.shots t).map Shot.networkId).Nodup := by
  refine List.Nodup.map_on (fun a ha b hb hid => ?_) (w.shots_nodup t).of_map
  refine List.inj_on_of_nodup_map (w.shots_nodup t) ha hb ?_
  refine hd _ _ a.networkId (networkId_of_body? (mem_shots_iff.mp ha).2.1) ?_
  rw [hid]
  exact networkId_of_body? (mem_shots_iff.mp hb).2.1

theorem discerned_targets (hd : w.Distinct) : Discerned w.targets := by
  refine ⟨w.targets_nodup, List.Nodup.map_on (fun a ha b hb hid => ?_) w.targets_nodup.of_map⟩
  refine List.inj_on_of_nodup_map w.targets_nodup ha hb ?_
  refine hd _ _ a.networkId (networkId_of_body? (mem_targets_iff.mp ha).2.1) ?_
  rw [hid]
  exact networkId_of_body? (mem_targets_iff.mp hb).2.1

theorem shots_ascending (hd : w.Distinct) (t : Tuning) :
    (w.shots t).Pairwise fun a b => a.networkId < b.networkId := by
  refine ascending_mergeSort Shot.networkId ?_
  exact (((List.mergeSort_perm _ _).map _).nodup_iff).mp (shots_ids_nodup hd t)

theorem targets_ascending (hd : w.Distinct) :
    w.targets.Pairwise fun a b => a.networkId < b.networkId := by
  refine ascending_mergeSort Target.networkId ?_
  exact (((List.mergeSort_perm _ _).map _).nodup_iff).mp (discerned_targets hd).networkId

/-! ### What a bullet sees when it has its turn -/

/-- An enemy that a bullet overlaps and that these strikes have left standing. -/
def InReach (w : World) (t : Tuning) (before : List (Handle × Handle)) (b e : Handle) : Prop :=
  w.IsEnemy e ∧ (w.boxOf b).overlaps (w.boxOf e) = true ∧ w.damageTo t before e < w.healthLeft e

/-- How far the centres of two entities are apart, squared, as a place in the order of all numbers. -/
def distance (w : World) (b e : Handle) : Int :=
  ((w.boxOf b).centre.distanceSquared (w.boxOf e).centre).totalOrder

/-- A bullet strikes the enemy `e` rather than `e'`. -/
def Prefers (w : World) (policy : HitPolicy) (b e e' : Handle) : Prop :=
  match policy with
  | .oldestFirst => w.idOf e ≤ w.idOf e'
  | .nearest => w.distance b e < w.distance b e' ∨
      w.distance b e = w.distance b e' ∧ w.idOf e ≤ w.idOf e'

/-- The strikes of the bullets that have their turns before a bullet. -/
def strikesBefore (w : World) (strikes : List (Handle × Handle)) (b : Handle) :
    List (Handle × Handle) :=
  strikes.filter fun s => w.idOf s.1 < w.idOf b

theorem inReach_iff {hits : List Hit} (hmem : ∀ hit ∈ hits, hit.shot ∈ w.shots t)
    (hs : shot ∈ w.shots t) {e : Handle} :
    w.InReach t (hits.map fun hit => (hit.shot.handle, hit.target.handle)) shot.handle e ↔
      ∃ target ∈ w.targets.map (Target.after hits), target.handle = e ∧
        target.isStruckBy shot = true := by
  constructor
  · -- the pass knows who is left by what its copy has, and the others by the blows struck before
    rintro ⟨he, hoverlap, hleft⟩
    obtain ⟨target, ht, rfl⟩ := isEnemy_iff.mp he
    rw [boxOf_shot hs, boxOf_target ht] at hoverlap
    refine ⟨target.after hits, List.mem_map_of_mem ht, rfl, ?_⟩
    have hpos : 0 < (target.after hits).health.current.toNat := by
      rw [toNat_after hmem ht]
      exact Nat.sub_pos_of_lt hleft
    rw [Target.isStruckBy, Bool.and_eq_true, decide_eq_true_eq]
    exact ⟨UInt8.lt_iff_toNat_lt.mpr hpos, hoverlap⟩
  · rintro ⟨_, hm, rfl, hstruck⟩
    obtain ⟨target, ht, rfl⟩ := List.mem_map.mp hm
    rw [Target.isStruckBy, Bool.and_eq_true, decide_eq_true_eq] at hstruck
    have hpos := UInt8.lt_iff_toNat_lt.mp hstruck.1
    rw [toNat_after hmem ht] at hpos
    rw [InReach, Target.handle_after, boxOf_shot hs, boxOf_target ht]
    exact ⟨isEnemy_iff.mpr ⟨target, ht, rfl⟩, hstruck.2, Nat.lt_of_sub_pos hpos⟩

theorem prefers_iff (policy : HitPolicy) (hits : List Hit) (hs : shot ∈ w.shots t)
    {e e' : Target} (he : e ∈ w.targets.map (Target.after hits))
    (he' : e' ∈ w.targets.map (Target.after hits)) :
    w.Prefers policy shot.handle e.handle e'.handle ↔
      policy.measure shot e < policy.measure shot e' ∨
        policy.measure shot e = policy.measure shot e' ∧ e.networkId ≤ e'.networkId := by
  obtain ⟨e, hm, rfl⟩ := List.mem_map.mp he
  obtain ⟨e', hm', rfl⟩ := List.mem_map.mp he'
  have hid : ∀ {e : Target}, e ∈ w.targets →
      w.idOf (e.after hits).handle = (e.after hits).networkId := by
    intro e hm
    rw [Target.handle_after, idOf_target hm]
    rfl
  have hdist : ∀ {e : Target}, e ∈ w.targets → w.distance shot.handle (e.after hits).handle =
      ((e.after hits).distanceTo shot).totalOrder := by
    intro e hm
    rw [distance, boxOf_shot hs, Target.handle_after, boxOf_target hm]
    rfl
  -- the oldest is measured as all the same, so that only the network id is left to decide
  cases policy with
  | oldestFirst =>
    rw [Prefers, hid hm, hid hm']
    exact ⟨fun hle => .inr ⟨rfl, hle⟩, fun h => (h.resolve_left (Int.lt_irrefl 0)).2⟩
  | nearest =>
    rw [Prefers, hid hm, hid hm', hdist hm, hdist hm']
    rfl

/-- The hits are those of the bullets of lesser network ids, those of a given bullet, and the others. -/
theorem exists_hits_split (hd : w.Distinct) (hs : shot ∈ w.shots t) : ∃ before own rest : List Hit,
    w.hits t = before ++ (own ++ rest) ∧
    own = t.hitPolicy.strike shot (w.targets.map (Target.after before)) ∧
    (∀ hit ∈ before, hit.shot.networkId < shot.networkId) ∧
    (∀ hit ∈ own, hit.shot = shot) ∧ ∀ hit ∈ rest, shot.networkId < hit.shot.networkId := by
  obtain ⟨earlier, later, hsplit⟩ := List.append_of_mem hs
  have hasc := shots_ascending hd t
  rw [hsplit, List.pairwise_append, List.pairwise_cons] at hasc
  obtain ⟨-, ⟨hlater, -⟩, hearlier⟩ := hasc
  have hhits : w.hits t = volley t.hitPolicy (earlier ++ shot :: later) w.targets := by
    rw [hits, hsplit]
  rw [volley_split w.targets_nodup] at hhits
  exact ⟨_, _, _, hhits, rfl, fun hit hh => hearlier _ (mem_volley hh).1 shot List.mem_cons_self,
    fun hit hh => (mem_strike.mp hh).1, fun hit hh => hlater _ (mem_volley hh).1⟩

/-- How things stand when a bullet has its turn. -/
theorem exists_standing (hd : w.Distinct) (hs : shot ∈ w.shots t) : ∃ hits : List Hit,
    (∀ hit ∈ hits, hit.shot ∈ w.shots t) ∧
    w.strikesBefore (w.strikes t) shot.handle =
      hits.map (fun hit => (hit.shot.handle, hit.target.handle)) ∧
    ∀ e, (shot.handle, e) ∈ w.strikes t ↔ ∃ target,
      t.hitPolicy.choose? shot (w.targets.map (Target.after hits)) = some target ∧
        target.handle = e := by
  -- the strikes are those of earlier bullets, of this one and of later ones, in the order of ids
  obtain ⟨before, own, rest, hhits, hstrike, hbefore, hown, hrest⟩ := exists_hits_split hd hs
  have hmem : ∀ hit ∈ before ++ (own ++ rest), hit.shot ∈ w.shots t :=
    fun hit hh => shot_mem_of_hit (hhits ▸ hh)
  refine ⟨before, fun hit hh => hmem hit (List.mem_append_left _ hh), ?_, fun e => ?_⟩
  · -- what was struck before this bullet is what the bullets with lesser ids struck
    rw [strikesBefore, strikes, hhits, List.filter_map]
    refine congrArg (List.map _) ?_
    rw [List.filter_append, List.filter_eq_self.mpr, List.filter_eq_nil_iff.mpr, List.append_nil]
    · intro hit hh
      have hs' := hmem hit (List.mem_append_right _ hh)
      rw [Function.comp_apply, decide_eq_true_eq, idOf_shot hs', idOf_shot hs]
      rcases List.mem_append.mp hh with hh | hh
      · rw [hown hit hh]
        exact UInt32.lt_irrefl _
      · exact UInt32.lt_asymm (hrest hit hh)
    · intro hit hh
      have hs' := hmem hit (List.mem_append_left _ hh)
      rw [Function.comp_apply, decide_eq_true_eq, idOf_shot hs', idOf_shot hs]
      exact hbefore hit hh
  · rw [strikes, hhits, List.mem_map]
    constructor
    · rintro ⟨hit, hh, heq⟩
      obtain ⟨hb, rfl⟩ := Prod.mk.inj heq
      -- a strike of its own is under its own id, which neither the earlier nor the later ones have
      have hid : hit.shot.networkId = shot.networkId := by
        rw [← idOf_shot (hmem hit hh), hb, idOf_shot hs]
      rcases List.mem_append.mp hh with hh | hh
      · exact absurd (hbefore hit hh) (hid ▸ UInt32.lt_irrefl _)
      · rcases List.mem_append.mp hh with hh | hh
        · exact ⟨hit.target, (mem_strike.mp (hstrike ▸ hh)).2, rfl⟩
        · exact absurd (hrest hit hh) (hid ▸ UInt32.lt_irrefl _)
    · rintro ⟨target, hchoice, rfl⟩
      exact ⟨⟨shot, target⟩, List.mem_append_right _ (List.mem_append_left _
        (hstrike ▸ mem_strike.mpr ⟨rfl, hchoice⟩)), rfl⟩

/-! ### The order of the strikes -/

/-- Who strikes whom, and in which order. -/
structure Aims (w : World) (t : Tuning) (strikes : List (Handle × Handle)) : Prop where
  /-- Only bullets strike. -/
  bullet : ∀ b e, (b, e) ∈ strikes → w.IsBullet b
  /-- Bullets have their turns in the order of their network ids. -/
  ascending : strikes.Pairwise fun s s' => w.idOf s.1 < w.idOf s'.1
  /-- A bullet strikes an enemy just when this enemy is in its reach at that time and preferred to all
  others who are. -/
  choice : ∀ b e, w.IsBullet b → ((b, e) ∈ strikes ↔
    w.InReach t (w.strikesBefore strikes b) b e ∧
      ∀ e', w.InReach t (w.strikesBefore strikes b) b e' → w.Prefers t.hitPolicy b e e')
  /-- A bullet does not miss as long as somebody is in its reach. -/
  eager : ∀ b e, w.IsBullet b → w.InReach t (w.strikesBefore strikes b) b e →
    ∃ e', (b, e') ∈ strikes

theorem aims (hd : w.Distinct) (t : Tuning) : w.Aims t (w.strikes t) := by
  refine ⟨fun _ _ h => (overlap_of_strike h).1, ?_, fun b e hb => ?_, fun b e hb hreach => ?_⟩
  · -- the strikes are in the order of the bullets, which is that of their ids
    have hids := (shots_ascending hd t).sublist (w.hits_sublist t)
    rw [List.pairwise_map] at hids
    rw [strikes, List.pairwise_map]
    refine hids.imp_of_mem fun hx hy hlt => ?_
    rw [idOf_shot (shot_mem_of_hit hx), idOf_shot (shot_mem_of_hit hy)]
    exact hlt
  · obtain ⟨shot, hs, rfl⟩ := (isBullet_iff t).mp hb
    obtain ⟨hits, hmem, hbefore, hstrike⟩ := exists_standing hd hs
    have hasc : (w.targets.map (Target.after hits)).Pairwise fun a b => a.networkId < b.networkId :=
      List.pairwise_map.mpr (targets_ascending hd)
    simp only [hbefore, hstrike, inReach_iff hmem hs, choose?_eq_some_iff hasc]
    -- all that is left to say is about the targets as they are at this turn, once for each
    constructor
    · rintro ⟨e, ⟨⟨he, hstruck⟩, hbest⟩, rfl⟩
      refine ⟨⟨e, he, rfl, hstruck⟩, ?_⟩
      rintro _ ⟨e', he', rfl, hstruck'⟩
      exact (prefers_iff _ hits hs he he').mpr (hbest e' he' hstruck')
    · rintro ⟨⟨e, he, rfl, hstruck⟩, hbest⟩
      exact ⟨e, ⟨⟨he, hstruck⟩, fun e' he' hstruck' =>
        (prefers_iff _ hits hs he he').mp (hbest _ ⟨e', he', rfl, hstruck'⟩)⟩, rfl⟩
  · obtain ⟨shot, hs, rfl⟩ := (isBullet_iff t).mp hb
    obtain ⟨hits, hmem, hbefore, hstrike⟩ := exists_standing hd hs
    rw [hbefore, inReach_iff hmem hs] at hreach
    obtain ⟨e, he, -, hstruck⟩ := hreach
    cases hchoice : t.hitPolicy.choose? shot (w.targets.map (Target.after hits)) with
    | none => exact absurd (choose?_eq_none_iff.mp hchoice e he) (by simp [hstruck])
    | some target => exact ⟨target.handle, (hstrike _).mpr ⟨target, hchoice, rfl⟩⟩

/-! ## Two worlds -/

/-- There is a bullet of this network id, with this box and this damage. -/
def HasBullet (w : World) (t : Tuning) (n : UInt32) (box : Box) (damage : UInt8) : Prop :=
  ∃ h, w.IsBullet h ∧ w.registry.get? .networkId h = some n ∧ w.boxOf h = box ∧
    w.damageOf t h = damage

/-- There is an enemy of this network id, with this box, and so much is left of it. -/
def HasEnemy (w : World) (n : UInt32) (box : Box) (left : Nat) : Prop :=
  ∃ h, w.IsEnemy h ∧ w.registry.get? .networkId h = some n ∧ w.boxOf h = box ∧ w.healthLeft h = left

/-- Two worlds hold the same bullets and the same enemies, whatever their handles. -/
structure Alike (w : World) (t : Tuning) (w' : World) : Prop where
  bullets : ∀ n box damage, w.HasBullet t n box damage ↔ w'.HasBullet t n box damage
  enemies : ∀ n box left, w.HasEnemy n box left ↔ w'.HasEnemy n box left

/-- The bullets of a world without their handles. -/
def bareShots (w : World) (t : Tuning) : List Shot := (w.shots t).map Shot.bare

/-- The enemies of a world without their handles. -/
def bareTargets (w : World) : List Target := w.targets.map Target.bare

/-- The hits in a world without handles. -/
def bareHits (w : World) (t : Tuning) : List Hit := (w.hits t).map Hit.bare

theorem mem_bareShots : shot ∈ w.bareShots t ↔ shot.handle = ⟨shot.networkId.toNat⟩ ∧
    w.HasBullet t shot.networkId shot.box shot.damage := by
  rw [bareShots, List.mem_map]
  constructor
  · rintro ⟨s, hs, rfl⟩
    have hs' := mem_shots_iff.mp hs
    exact ⟨rfl, s.handle, (isBullet_iff t).mpr ⟨s, hs, rfl⟩, networkId_of_body? hs'.2.1,
      boxOf_shot hs, hs'.2.2⟩
  · obtain ⟨k, n, box, damage⟩ := shot
    rintro ⟨hk, h, hb, hn, hbox, hd⟩
    obtain rfl : k = ⟨n.toNat⟩ := hk
    obtain ⟨s, hs, rfl⟩ := (isBullet_iff t).mp hb
    have hs' := mem_shots_iff.mp hs
    refine ⟨s, hs, ?_⟩
    obtain rfl : s.networkId = n :=
      Option.some.inj ((networkId_of_body? hs'.2.1).symm.trans hn)
    obtain rfl : s.box = box := (boxOf_shot hs).symm.trans hbox
    obtain rfl : s.damage = damage := hs'.2.2.symm.trans hd
    rfl

theorem mem_bareTargets : target ∈ w.bareTargets ↔ (target.handle = ⟨target.networkId.toNat⟩ ∧
    target.health.max = 0) ∧
      w.HasEnemy target.networkId target.box target.health.current.toNat := by
  rw [bareTargets, List.mem_map]
  constructor
  · -- a bare target has the id in place of the handle, and no greatest health; the rest is as it
    -- was
    rintro ⟨e, he, rfl⟩
    have he' := mem_targets_iff.mp he
    exact ⟨⟨rfl, rfl⟩, e.handle, isEnemy_iff.mpr ⟨e, he, rfl⟩, networkId_of_body? he'.2.1,
      boxOf_target he, healthLeft_target he⟩
  · obtain ⟨k, n, box, current, max⟩ := target
    rintro ⟨⟨hk, hmax⟩, h, hb, hn, hbox, hx⟩
    obtain rfl : k = ⟨n.toNat⟩ := hk
    obtain rfl : max = 0 := hmax
    obtain ⟨e, he, rfl⟩ := isEnemy_iff.mp hb
    have he' := mem_targets_iff.mp he
    refine ⟨e, he, ?_⟩
    obtain rfl : e.networkId = n :=
      Option.some.inj ((networkId_of_body? he'.2.1).symm.trans hn)
    obtain rfl : e.box = box := (boxOf_target he).symm.trans hbox
    obtain rfl : e.health.current = current :=
      UInt8.toNat_inj.mp ((healthLeft_target he).symm.trans hx)
    rfl

theorem bareHits_eq (hd : w.Distinct) (t : Tuning) :
    w.bareHits t = volley t.hitPolicy (w.bareShots t) w.bareTargets :=
  (volley_bare _ _ (discerned_targets hd)).symm

theorem hasBullet_iff {n : UInt32} {box : Box} {damage : UInt8} : w.HasBullet t n box damage ↔
    ∃ shot ∈ w.bareShots t, shot.networkId = n ∧ shot.box = box ∧ shot.damage = damage := by
  constructor
  · intro hb
    exact ⟨⟨⟨n.toNat⟩, n, box, damage⟩, mem_bareShots.mpr ⟨rfl, hb⟩, rfl, rfl, rfl⟩
  · rintro ⟨shot, hs, rfl, rfl, rfl⟩
    exact (mem_bareShots.mp hs).2

theorem hasEnemy_iff {n : UInt32} {box : Box} {left : Nat} : w.HasEnemy n box left ↔
    ∃ e ∈ w.bareTargets, e.networkId = n ∧ e.box = box ∧ e.health.current.toNat = left := by
  constructor
  · rintro ⟨h, hb, hn, hbox, rfl⟩
    obtain ⟨e, he, rfl⟩ := isEnemy_iff.mp hb
    have hid := networkId_of_body? (mem_targets_iff.mp he).2.1
    exact ⟨e.bare, List.mem_map_of_mem he, Option.some.inj (hid.symm.trans hn),
      (boxOf_target he).symm.trans hbox, (healthLeft_target he).symm⟩
  · rintro ⟨e, he, rfl, rfl, rfl⟩
    exact (mem_bareTargets.mp he).2

/-- Worlds that hold the same look the same without handles. -/
theorem alike_iff {w' : World} (hd : w.Distinct) (hd' : w'.Distinct) :
    w.Alike t w' ↔ w.bareShots t = w'.bareShots t ∧ w.bareTargets = w'.bareTargets := by
  constructor
  · intro hw
    constructor
    · refine eq_of_ascending Shot.networkId (List.pairwise_map.mpr (shots_ascending hd t))
        (List.pairwise_map.mpr (shots_ascending hd' t)) fun shot => ?_
      rw [mem_bareShots, mem_bareShots, hw.bullets]
    · refine eq_of_ascending Target.networkId (List.pairwise_map.mpr (targets_ascending hd))
        (List.pairwise_map.mpr (targets_ascending hd')) fun target => ?_
      rw [mem_bareTargets, mem_bareTargets, hw.enemies]
  · rintro ⟨hshots, htargets⟩
    refine ⟨fun n box damage => ?_, fun n box left => ?_⟩
    · rw [hasBullet_iff, hasBullet_iff, hshots]
    · rw [hasEnemy_iff, hasEnemy_iff, htargets]

/-- The order in which bullets and enemies are found does not matter. -/
theorem alike_of_perm {w' : World}
    (hshots : (((w.ofKind .playerBullet).filterMap (w.shot? t)).map Shot.bare).Perm
      (((w'.ofKind .playerBullet).filterMap (w'.shot? t)).map Shot.bare))
    (htargets : (((w.ofKind .enemy).filterMap w.target?).map Target.bare).Perm
      (((w'.ofKind .enemy).filterMap w'.target?).map Target.bare)) : w.Alike t w' := by
  have hbullets : (w.bareShots t).Perm (w'.bareShots t) :=
    ((List.mergeSort_perm _ _).map _).trans (hshots.trans ((List.mergeSort_perm _ _).map _).symm)
  have henemies : w.bareTargets.Perm w'.bareTargets :=
    ((List.mergeSort_perm _ _).map _).trans (htargets.trans ((List.mergeSort_perm _ _).map _).symm)
  refine ⟨fun n box damage => ?_, fun n box left => ?_⟩
  · simp only [hasBullet_iff, hbullets.mem_iff]
  · simp only [hasEnemy_iff, henemies.mem_iff]

/-! ### What does not need handles -/

/-- A strike by the network ids of the bullet and the enemy. -/
def namesOf (w : World) (strike : Handle × Handle) : UInt32 × UInt32 :=
  (w.idOf strike.1, w.idOf strike.2)

theorem idOf_of_hit {hit : Hit} (hh : hit ∈ w.hits t) :
    w.idOf hit.shot.handle = hit.shot.networkId ∧
      w.idOf hit.target.handle = hit.target.networkId := by
  obtain ⟨before, after, hsplit⟩ := List.append_of_mem hh
  obtain ⟨e, he, htarget, -, -⟩ := target_of_hit hsplit
  rw [idOf_shot (shot_mem_of_hit hh), htarget, Target.handle_after, idOf_target he]
  exact ⟨rfl, rfl⟩

theorem map_namesOf_strikes (w : World) (t : Tuning) : (w.strikes t).map w.namesOf =
    (w.bareHits t).map fun hit => (hit.shot.networkId, hit.target.networkId) := by
  rw [strikes, bareHits, List.map_map, List.map_map]
  refine List.map_congr_left fun hit hh => ?_
  exact Prod.ext (idOf_of_hit hh).1 (idOf_of_hit hh).2

/-- The network ids of those who are condemned, in the same order. -/
theorem map_idOf_collide (w : World) (t : Tuning) : (w.collide t).2.map w.idOf =
    ((w.bareHits t).flatMap fun hit =>
      hit.shot.networkId :: if hit.isLethal then [hit.target.networkId] else []) ++
    (((w.bareShots t).filter fun s => t.bullet.despawnX < s.box.x).map Shot.networkId ++
      (w.bareTargets.filter fun e => e.box.x < t.enemy.despawnX).map Target.networkId) := by
  -- the queue has three parts, and each is told by ids alone
  have hhits : ((w.hits t).flatMap condemnedBy).map w.idOf = (w.bareHits t).flatMap fun hit =>
      hit.shot.networkId :: if hit.isLethal then [hit.target.networkId] else [] := by
    rw [List.map_flatMap, bareHits, List.flatMap_map]
    refine List.flatMap_congr fun hit hh => ?_
    obtain ⟨hshot, htarget⟩ := idOf_of_hit hh
    rw [condemnedBy, List.map_cons, hshot, apply_ite (List.map w.idOf), List.map_singleton,
      htarget]
    rfl
  have hshots : ((w.shots t).filter fun s => t.bullet.despawnX < s.box.x).map
      (w.idOf ∘ Shot.handle) =
        ((w.bareShots t).filter fun s => t.bullet.despawnX < s.box.x).map Shot.networkId := by
    rw [bareShots, List.filter_map, List.map_map]
    exact List.map_congr_left fun shot hs => idOf_shot (List.mem_of_mem_filter hs)
  have htargets : (w.targets.filter fun e => e.box.x < t.enemy.despawnX).map
      (w.idOf ∘ Target.handle) =
        (w.bareTargets.filter fun e => e.box.x < t.enemy.despawnX).map Target.networkId := by
    rw [bareTargets, List.filter_map, List.map_map]
    exact List.map_congr_left fun e he => idOf_target (List.mem_of_mem_filter he)
  rw [← hhits, ← hshots, ← htargets, ← List.map_map, ← List.map_map, ← List.map_append,
    ← List.map_append]
  rfl

/-- What is left of the enemies. -/
theorem hasEnemy_collide (hd : w.Distinct) (t : Tuning) (n : UInt32) (box : Box) (left : Nat) :
    (w.collide t).1.HasEnemy n box left ↔
      ∃ e ∈ w.bareTargets.map (Target.after (w.bareHits t)),
        e.networkId = n ∧ e.box = box ∧ e.health.current.toNat = left := by
  -- striking and forgetting the handles may be done in either order
  have hafter : w.bareTargets.map (Target.after (w.bareHits t)) =
      (w.targets.map (Target.after (w.hits t))).map Target.bare := by
    refine (discerned_targets hd).map_after_bare fun hit hh => ?_
    obtain ⟨before, after, hsplit⟩ := List.append_of_mem hh
    obtain ⟨e, he, htarget, -, -⟩ := target_of_hit hsplit
    exact ⟨e, he, by rw [htarget]; rfl, by rw [htarget]; rfl⟩
  rw [hafter]
  constructor
  · rintro ⟨h, hb, hn, hbox, hleft⟩
    obtain ⟨e, he, rfl⟩ := isEnemy_iff.mp ((isEnemy_collide w t h).mp hb)
    -- network ids and boxes stay as they are in a collision, and health is what is left
    rw [get?_collide_of_ne w t (by decide), networkId_of_body? (mem_targets_iff.mp he).2.1] at hn
    rw [boxOf_collide, boxOf_target he] at hbox
    rw [healthLeft_collide_target he] at hleft
    exact ⟨_, List.mem_map_of_mem (List.mem_map_of_mem he), Option.some.inj hn, hbox, hleft⟩
  · intro hex
    obtain ⟨_, hm, hn, hbox, hleft⟩ := hex
    rw [List.map_map] at hm
    obtain ⟨e, he, rfl⟩ := List.mem_map.mp hm
    refine ⟨e.handle, (isEnemy_collide w t _).mpr (isEnemy_iff.mpr ⟨e, he, rfl⟩), ?_, ?_, ?_⟩
    · rw [get?_collide_of_ne w t (by decide), ← hn]
      exact networkId_of_body? (mem_targets_iff.mp he).2.1
    · rw [boxOf_collide, boxOf_target he, ← hbox]
      rfl
    · rw [healthLeft_collide_target he, ← hleft]
      rfl

/-! ### The pass, strike by strike -/

/-- The world after these strikes, one after the other. -/
def struck (w : World) (t : Tuning) (strikes : List (Handle × Handle)) : World :=
  { w with registry := strikes.foldl (fun r s =>
      r.modify .health s.2 fun health => health.hit (w.damageOf t s.1)) w.registry }

theorem collide_fst (w : World) (t : Tuning) : (w.collide t).1 = w.struck t (w.strikes t) := by
  have hfold : ∀ (hits : List Hit) (r : Registry ComponentType.Value),
      (∀ hit ∈ hits, hit.shot ∈ w.shots t) →
      hits.foldl (fun r hit =>
          r.modify .health hit.target.handle fun health => health.hit hit.shot.damage) r =
        hits.foldl (fun r hit =>
          r.modify .health hit.target.handle fun health =>
            health.hit (w.damageOf t hit.shot.handle)) r := by
    intro hits
    induction hits with
    | nil => exact fun _ _ => rfl
    | cons hit rest ih =>
      intro r hmem
      rw [List.foldl_cons, List.foldl_cons, (mem_shots_iff.mp (hmem hit List.mem_cons_self)).2.2]
      exact ih _ fun x hx => hmem x (List.mem_cons_of_mem _ hx)
  rw [struck, strikes, List.foldl_map, ← hfold _ _ fun _ => shot_mem_of_hit]
  rfl

/-- **Whom bullets select.** In a world whose network ids tell entities apart, a pass is its strikes, one
after the other. They come in the order of the bullets' network ids, and each bullet strikes the enemy that
the policy prefers among those in its reach. Hence handles make no difference: in a second world that holds
the same bullets and enemies by their network ids, the strikes are the same by network ids, as much is left
of every enemy, and the same network ids are condemned, in the same order. -/
theorem collide_selects (hd : w.Distinct) (t : Tuning) :
    (w.collide t).1 = w.struck t (w.strikes t) ∧ w.Aims t (w.strikes t) ∧
    ∀ w' : World, w'.Distinct → w.Alike t w' →
      (w'.strikes t).map w'.namesOf = (w.strikes t).map w.namesOf ∧
      (∀ n box left, (w'.collide t).1.HasEnemy n box left ↔
        (w.collide t).1.HasEnemy n box left) ∧
      (w'.collide t).2.map w'.idOf = (w.collide t).2.map w.idOf := by
  refine ⟨w.collide_fst t, aims hd t, fun w' hd' hw => ?_⟩
  obtain ⟨hshots, htargets⟩ := (alike_iff hd hd').mp hw
  have hhits : w'.bareHits t = w.bareHits t := by
    rw [bareHits_eq hd, bareHits_eq hd', hshots, htargets]
  refine ⟨?_, fun n box left => ?_, ?_⟩
  · rw [map_namesOf_strikes, map_namesOf_strikes, hhits]
  · rw [hasEnemy_collide hd, hasEnemy_collide hd', hhits, htargets]
  · rw [map_idOf_collide, map_idOf_collide, hhits, hshots, htargets]

/-- Two bullets fly at two enemies. -/
def twoBullets : World :=
  let t := Tuning.default
  let muzzle : Vector2 := ⟨.ofNat 800, .ofNat 105⟩
  let w := (World.empty.spawnEnemy t (.ofNat 100)).2
  let w := (w.spawnEnemy t (.ofNat 110)).2
  let w := (w.spawnBullet t 1 muzzle).2
  (w.spawnBullet t 1 muzzle).2

/-- The same two bullets and two enemies, who have come in another order. One who had come in between is
gone. -/
def otherOrder : World :=
  let t := Tuning.default
  let muzzle : Vector2 := ⟨.ofNat 800, .ofNat 105⟩
  let w := ({ World.empty with nextNetworkId := 4 }.spawnBullet t 1 muzzle).2
  let (gone, w) := w.spawnEnemy t (.ofNat 120)
  let w := ({ w with nextNetworkId := 2 }.spawnEnemy t (.ofNat 110)).2
  let w := (w.spawnBullet t 1 muzzle).2
  let w := ({ w with nextNetworkId := 1 }.spawnEnemy t (.ofNat 100)).2
  { w with registry := w.registry.destroy gone }

theorem collide_selects_of_twoBullets :
    let t := { Tuning.default with hitPolicy := .nearest }
    twoBullets.Distinct ∧ otherOrder.Distinct ∧ twoBullets.Alike t otherOrder ∧
      twoBullets.Aims t (twoBullets.strikes t) ∧
      (twoBullets.strikes t).map twoBullets.namesOf = [(3, 2), (4, 2)] ∧
      (otherOrder.strikes t).map otherOrder.namesOf = (twoBullets.strikes t).map twoBullets.namesOf ∧
      (otherOrder.collide t).2.map otherOrder.idOf =
        (twoBullets.collide t).2.map twoBullets.idOf := by
  intro t
  have hd : twoBullets.Distinct := distinct_of_nodup (by decide +kernel)
  have hd' : otherOrder.Distinct := distinct_of_nodup (by decide +kernel)
  have hw : twoBullets.Alike t otherOrder := alike_of_perm (by decide +kernel) (by decide +kernel)
  obtain ⟨-, haims, hsame⟩ := collide_selects hd t
  obtain ⟨hstrikes, -, hqueue⟩ := hsame otherOrder hd' hw
  refine ⟨hd, hd', hw, haims, ?_, hstrikes, hqueue⟩
  -- the bullets and the enemies are in the order of their network ids already
  have hshots : twoBullets.shots t =
      (twoBullets.ofKind .playerBullet).filterMap (twoBullets.shot? t) :=
    List.mergeSort_of_pairwise (by decide +kernel)
  have htargets : twoBullets.targets = (twoBullets.ofKind .enemy).filterMap twoBullets.target? :=
    List.mergeSort_of_pairwise (by decide +kernel)
  rw [strikes, hits, hshots, htargets]
  decide +kernel

end World

end Skirmish
