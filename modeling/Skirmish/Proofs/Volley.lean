import Mathlib.Algebra.GroupWithZero.Nat
import Mathlib.Data.List.Nodup
import Skirmish.Proofs.Systems
/-!
# A volley, bullet by bullet

A volley is worked off from the front: each bullet meets the enemies as the bullets before it have left
them. How an enemy has been left is a matter of the hits so far (`Target.after`), so a volley of some
bullets and then others is the volley of the first and the volley of the others against what is left
(`volley_append`). From this follows how things stood when a given bullet had its turn: `exists_turn` for
a bullet that strikes, `no_choice_of_no_hit` for one that does not.

Whom a bullet strikes is under either policy the first of the enemies in reach for which a number is least
(`choose?_eq`), so nothing has to be said twice.
-/

namespace Skirmish

/-! ## One blow after the other -/

namespace Health

/-- Hit by all of these, one after the other. -/
def hitAll (x : Health) (amounts : List UInt8) : Health := amounts.foldl hit x

theorem hitAll_append (x : Health) (amounts amounts' : List UInt8) :
    x.hitAll (amounts ++ amounts') = (x.hitAll amounts).hitAll amounts' :=
  List.foldl_append

theorem max_hitAll (amounts : List UInt8) : ∀ x : Health, (x.hitAll amounts).max = x.max := by
  induction amounts with
  | nil => exact fun _ => rfl
  | cons a rest ih => exact fun x => ih (x.hit a)

/-- Blows add up, as long as there is something left. -/
theorem toNat_hitAll (amounts : List UInt8) : ∀ x : Health,
    (x.hitAll amounts).current.toNat = x.current.toNat - (amounts.map UInt8.toNat).sum := by
  induction amounts with
  | nil => exact fun _ => rfl
  | cons a rest ih =>
    intro x
    have hrest : ((x.hit a).hitAll rest).current.toNat = _ := ih (x.hit a)
    rw [toNat_hit] at hrest
    rw [List.map_cons, List.sum_cons, ← Nat.sub_sub]
    exact hrest

/-- What is left, in one number. -/
theorem hitAll_eq (amounts : List UInt8) (x : Health) : x.hitAll amounts =
    { x with current := .ofNat (x.current.toNat - (amounts.map UInt8.toNat).sum) } := by
  have hcurrent : (x.hitAll amounts).current =
      .ofNat (x.current.toNat - (amounts.map UInt8.toNat).sum) := by
    rw [← toNat_hitAll, UInt8.ofNat_toNat]
  rw [← hcurrent, ← max_hitAll amounts x]

end Health

/-! ## Enemies who have been hit -/

/-- The damage of the hits that an enemy takes, one after the other. -/
def blows (hits : List Hit) (h : Handle) : List UInt8 :=
  (hits.filter fun hit => hit.target.handle = h).map fun hit => hit.shot.damage

theorem blows_append (hits hits' : List Hit) (h : Handle) :
    blows (hits ++ hits') h = blows hits h ++ blows hits' h := by
  rw [blows, List.filter_append, List.map_append, blows, blows]

/-- The enemy after these hits. -/
def Target.after (hits : List Hit) (e : Target) : Target :=
  { e with health := e.health.hitAll (blows hits e.handle) }

namespace Target

@[simp]
theorem handle_after (hits : List Hit) (e : Target) : (e.after hits).handle = e.handle := rfl

theorem after_append (hits hits' : List Hit) (e : Target) :
    e.after (hits ++ hits') = (e.after hits).after hits' := by
  rw [after, blows_append, Health.hitAll_append]
  rfl

theorem map_after_append (hits hits' : List Hit) (targets : List Target) :
    targets.map (after (hits ++ hits')) = (targets.map (after hits)).map (after hits') := by
  rw [List.map_map]
  exact List.map_congr_left fun e _ => after_append hits hits' e

theorem map_after_nil (targets : List Target) : targets.map (after []) = targets :=
  List.map_id _

theorem map_handle_after (hits : List Hit) (targets : List Target) :
    (targets.map (after hits)).map handle = targets.map handle := by
  rw [List.map_map]
  rfl

/-- Hits leave no more of an enemy than there was. -/
theorem toNat_after_append_le (hits hits' : List Hit) (e : Target) :
    (e.after (hits ++ hits')).health.current.toNat ≤ (e.after hits).health.current.toNat := by
  rw [after_append, after, Health.toNat_hitAll]
  exact Nat.sub_le _ _

end Target

/-- A hit among enemies who can be told apart leaves them as they are after it. -/
theorem Hit.applied_eq {hit : Hit} {targets : List Target}
    (hnd : (targets.map Target.handle).Nodup) (hmem : hit.target ∈ targets) :
    hit.applied targets = targets.map (Target.after [hit]) := by
  refine List.map_congr_left fun e he => ?_
  by_cases heq : e.handle = hit.target.handle
  · obtain rfl : e = hit.target := List.inj_on_of_nodup_map hnd he hmem heq
    simp [Target.after, blows, Hit.remaining, Health.hitAll]
  · simp [Target.after, blows, heq, Ne.symm heq, Health.hitAll]

/-! ## Whom a bullet strikes -/

/-- What is to be least about the enemy that a bullet strikes. Which enemy comes first is a matter of
their order. -/
def HitPolicy.measure (policy : HitPolicy) (shot : Shot) (e : Target) : Int :=
  match policy with
  | .oldestFirst => 0
  | .nearest => (e.distanceTo shot).totalOrder

/-- The item is the first of least measure: all before it measure more, and none after it less. -/
def IsFirstLeast {α : Type} (measure : α → Int) (as : List α) (a : α) : Prop :=
  ∃ before after, as = before ++ a :: after ∧ (∀ b ∈ before, measure a < measure b) ∧
    ∀ b ∈ after, measure a ≤ measure b

theorem leastBy_eq_none_iff {α : Type} {measure : α → Int} {as : List α} :
    leastBy measure as = none ↔ as = [] := by
  cases as <;> simp [leastBy]

/-- With a measure that tells nothing apart the first item is the one. -/
theorem leastBy_const {α : Type} (n : Int) (as : List α) : leastBy (fun _ => n) as = as.head? := by
  cases as with
  | nil => rfl
  | cons a rest =>
    have hkeep : ∀ l : List α,
        l.foldl (fun best b => if n < n then b else best) a = a := by
      intro l
      induction l with
      | nil => rfl
      | cons b l ih => rwa [List.foldl_cons, if_neg (Int.lt_irrefl n)]
    exact congrArg some (hkeep rest)

/-- One more is the first of least measure if it measures less than the one before. -/
theorem IsFirstLeast.concat {α : Type} {measure : α → Int} {seen : List α} {best : α}
    (h : IsFirstLeast measure seen best) (b : α) :
    IsFirstLeast measure (seen ++ [b]) (if measure b < measure best then b else best) := by
  obtain ⟨before, after, rfl, hbefore, hafter⟩ := h
  split
  · rename_i hless
    refine ⟨before ++ best :: after, [], by simp, fun c hc => ?_, by simp⟩
    rw [List.mem_append, List.mem_cons] at hc
    rcases hc with hc | rfl | hc
    · exact Int.lt_trans hless (hbefore c hc)
    · exact hless
    · exact Int.lt_of_lt_of_le hless (hafter c hc)
  · rename_i hless
    refine ⟨before, after ++ [b], by simp, hbefore, fun c hc => ?_⟩
    rw [List.mem_append, List.mem_singleton] at hc
    rcases hc with hc | rfl
    · exact hafter c hc
    · exact Int.not_lt.mp hless

theorem IsFirstLeast.foldl {α : Type} {measure : α → Int} (todo : List α) :
    ∀ {seen : List α} {best : α}, IsFirstLeast measure seen best →
      IsFirstLeast measure (seen ++ todo)
        (todo.foldl (fun best b => if measure b < measure best then b else best) best) := by
  induction todo with
  | nil =>
    intro seen best hbest
    rwa [List.append_nil]
  | cons b todo ih =>
    intro seen best hbest
    rw [List.append_cons]
    exact ih (hbest.concat b)

theorem isFirstLeast_of_leastBy {α : Type} {measure : α → Int} {as : List α} {a : α}
    (h : leastBy measure as = some a) : IsFirstLeast measure as a := by
  cases as with
  | nil => cases h
  | cons first rest =>
    -- the best so far is the first of least measure among all that have been looked at
    have hfirst : IsFirstLeast measure [first] first := ⟨[], [], rfl, by simp, by simp⟩
    rw [← Option.some.inj h]
    exact hfirst.foldl rest

/-- Under either policy a bullet strikes the first enemy of least measure among those in its reach. -/
theorem choose?_eq (policy : HitPolicy) (shot : Shot) (targets : List Target) :
    policy.choose? shot targets =
      leastBy (policy.measure shot) (targets.filter (·.isStruckBy shot)) := by
  cases policy with
  | oldestFirst => exact (leastBy_const 0 _).symm
  | nearest => rfl

theorem choose?_eq_none_iff {policy : HitPolicy} {shot : Shot} {targets : List Target} :
    policy.choose? shot targets = none ↔ ∀ e ∈ targets, e.isStruckBy shot = false := by
  rw [choose?_eq, leastBy_eq_none_iff, List.filter_eq_nil_iff]
  simp

theorem isStruckBy_of_choose? {policy : HitPolicy} {shot : Shot} {targets : List Target}
    {e : Target} (h : policy.choose? shot targets = some e) : e.isStruckBy shot = true := by
  rw [choose?_eq] at h
  exact (List.mem_filter.mp (World.leastBy_mem h)).2

/-! ## Turns -/

/-- The hit of one bullet, if it strikes somebody. -/
def HitPolicy.strike (policy : HitPolicy) (shot : Shot) (targets : List Target) : List Hit :=
  ((policy.choose? shot targets).map (Hit.mk shot)).toList

section

variable {policy : HitPolicy} {shots earlier later : List Shot} {shot : Shot}
  {targets : List Target} {hit : Hit}

theorem mem_strike : hit ∈ policy.strike shot targets ↔
    hit.shot = shot ∧ policy.choose? shot targets = some hit.target := by
  obtain ⟨s, e⟩ := hit
  simp only [HitPolicy.strike, Option.mem_toList, Option.map_eq_some_iff, Hit.mk.injEq]
  constructor
  · rintro ⟨e', h, rfl, rfl⟩
    exact ⟨rfl, h⟩
  · rintro ⟨rfl, h⟩
    exact ⟨e, h, rfl, rfl⟩

/-- The first bullet strikes or not, and the others meet what it has left. -/
theorem volley_cons (hnd : (targets.map Target.handle).Nodup) :
    volley policy (shot :: shots) targets = policy.strike shot targets ++
      volley policy shots (targets.map (Target.after (policy.strike shot targets))) := by
  rw [volley, HitPolicy.strike]
  cases hchoice : policy.choose? shot targets with
  | none =>
    show _ = volley policy shots (targets.map (Target.after []))
    rw [Target.map_after_nil]
  | some e =>
    have happlied : (Hit.mk shot e).applied targets = targets.map (Target.after [⟨shot, e⟩]) :=
      Hit.applied_eq hnd (World.choose?_mem hchoice)
    show _ = ⟨shot, e⟩ :: volley policy shots (targets.map (Target.after [⟨shot, e⟩]))
    rw [← happlied]

/-- The first bullets are done before the others begin. -/
theorem volley_append (hnd : (targets.map Target.handle).Nodup) :
    volley policy (earlier ++ later) targets = volley policy earlier targets ++
      volley policy later (targets.map (Target.after (volley policy earlier targets))) := by
  induction earlier generalizing targets with
  | nil =>
    show volley policy later targets = volley policy later (targets.map (Target.after []))
    rw [Target.map_after_nil]
  | cons shot rest ih =>
    rw [List.cons_append, volley_cons hnd, volley_cons hnd,
      ih (by rwa [Target.map_handle_after]), List.append_assoc, Target.map_after_append]

/-- The turn of one bullet among others. -/
theorem volley_split (hnd : (targets.map Target.handle).Nodup) :
    volley policy (earlier ++ shot :: later) targets =
      volley policy earlier targets ++
        (policy.strike shot (targets.map (Target.after (volley policy earlier targets))) ++
          volley policy later (targets.map (Target.after (volley policy earlier targets ++
            policy.strike shot
              (targets.map (Target.after (volley policy earlier targets))))))) := by
  rw [volley_append hnd, volley_cons (by rwa [Target.map_handle_after]), Target.map_after_append]

/-- Whoever strikes has a turn, and chooses among the enemies as the hits before have left them. -/
theorem exists_turn (hnd : (targets.map Target.handle).Nodup) {before after : List Hit}
    (h : volley policy shots targets = before ++ hit :: after) :
    ∃ earlier later, shots = earlier ++ hit.shot :: later ∧
      before = volley policy earlier targets ∧
      policy.choose? hit.shot (targets.map (Target.after before)) = some hit.target := by
  -- on the bullets, for any targets, since those who come later meet what the earlier ones have
  -- left
  induction shots generalizing targets before with
  | nil => simp [volley] at h
  | cons shot rest ih =>
    have hnd' : ∀ hits, ((targets.map (Target.after hits)).map Target.handle).Nodup := by
      intro hits
      rwa [Target.map_handle_after]
    rw [volley_cons hnd] at h
    -- what is chosen depends on the targets, so the equation is kept for every list of bullets
    have hcons : ∀ more, volley policy (shot :: more) targets = _ := fun more => volley_cons hnd
    -- the first bullet either strikes nobody or begins the list of hits
    cases hchoice : policy.choose? shot targets with
    | none =>
      have hstrike : policy.strike shot targets = [] := by rw [HitPolicy.strike, hchoice]; rfl
      rw [hstrike, Target.map_after_nil, List.nil_append] at h
      obtain ⟨earlier, later, rfl, hbefore, hturn⟩ := ih hnd h
      refine ⟨shot :: earlier, later, rfl, ?_, hturn⟩
      rw [hcons, hstrike, Target.map_after_nil, hbefore, List.nil_append]
    | some e =>
      have hstrike : policy.strike shot targets = [⟨shot, e⟩] := by
        rw [HitPolicy.strike, hchoice]
        rfl
      rw [hstrike, List.singleton_append] at h
      cases before with
      | nil =>
        obtain ⟨rfl, -⟩ := List.cons.inj h
        exact ⟨[], rest, rfl, rfl, by rwa [Target.map_after_nil]⟩
      | cons first before =>
        obtain ⟨rfl, hrest⟩ := List.cons.inj h
        obtain ⟨earlier, later, rfl, hbefore, hturn⟩ := ih (hnd' _) hrest
        refine ⟨shot :: earlier, later, rfl, ?_, ?_⟩
        · rw [hcons, hstrike, hbefore, List.singleton_append]
        · rwa [← List.singleton_append, Target.map_after_append]

/-- Whoever does not strike found nobody in reach. -/
theorem no_choice_of_no_hit (hnd : (targets.map Target.handle).Nodup)
    (hnone : ∀ hit ∈ volley policy (earlier ++ shot :: later) targets, hit.shot ≠ shot) :
    policy.choose? shot (targets.map (Target.after (volley policy earlier targets))) = none := by
  rw [← Option.not_isSome_iff_eq_none, Option.isSome_iff_exists]
  rintro ⟨e, he⟩
  refine hnone ⟨shot, e⟩ ?_ rfl
  rw [volley_split hnd]
  exact List.mem_append_right _ (List.mem_append_left _ (mem_strike.mpr ⟨rfl, he⟩))

/-- The bullets that strike are among all bullets, in the same order, each at most once. -/
theorem shots_sublist (hnd : (targets.map Target.handle).Nodup) :
    ((volley policy shots targets).map Hit.shot).Sublist shots := by
  induction shots generalizing targets with
  | nil => exact List.Sublist.refl _
  | cons shot rest ih =>
    have hrest : ((volley policy rest
        (targets.map (Target.after (policy.strike shot targets)))).map Hit.shot).Sublist rest :=
      ih (by rwa [Target.map_handle_after])
    rw [volley_cons hnd, List.map_append]
    have hstrike : ((policy.strike shot targets).map Hit.shot).Sublist [shot] := by
      rw [HitPolicy.strike]
      cases policy.choose? shot targets with
      | none => exact List.nil_sublist _
      | some e => exact List.Sublist.refl _
    exact hstrike.append hrest

end

end Skirmish
