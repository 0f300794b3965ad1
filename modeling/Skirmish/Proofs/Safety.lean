import Skirmish.Proofs.Bounds
import Skirmish.Proofs.Comparison
import Skirmish.Proofs.Isolation
import Skirmish.Proofs.Order
/-!
# Valid settings never fail

A step of time can fail for want of a random number or of a place for a player, and a registry that
checks its indices could stop. Settings that pass `Settings.validate` leave the field with points
(`World.exists_clamp?_field`), so there always is a place, and neither of the two ranges that numbers
are drawn from is empty.

Whether there is a number in a range that is not empty is up to whoever draws it: a range can be
wider than any number. So the draw is made a parameter here, a `Sampler`. With one that has a number
in each range that is not empty, every run ends in a state (`Simulation.run_safe`). The library's own
is `Sampler.seeded`; with it a run fails, if it does, in a range that is not empty. The registry of a
world is what calls lead to (`World.Built`), whatever the steps, so its checks never fail.
-/

namespace Skirmish

/-! ## Where random numbers come from -/

/-- How a number is drawn from a closed and from a half-open range. -/
structure Sampler where
  between : Generator → Single → Single → Except RangeFault (Single × Generator)
  below : Generator → Single → Single → Except RangeFault (Single × Generator)

namespace Sampler

def seeded : Sampler := ⟨Generator.between, Generator.below⟩

/-- In a range that is not empty there is a number, unless there is none for such a cause. -/
structure FailsOnly (S : Sampler) (P : RangeFault → Prop) : Prop where
  between : ∀ {g low high cause}, low ≤ high → S.between g low high = .error cause → P cause
  below : ∀ {g low high cause}, low < high → S.below g low high = .error cause → P cause

/-- There is a number in every range that is not empty. -/
structure Willing (S : Sampler) : Prop where
  between : ∀ {g low high}, low ≤ high → ∃ drawn, S.between g low high = .ok drawn
  below : ∀ {g low high}, low < high → ∃ drawn, S.below g low high = .ok drawn

theorem Willing.failsOnly {S : Sampler} (h : S.Willing) : S.FailsOnly fun _ => False where
  between := by
    intro g low high cause hle hfault
    obtain ⟨drawn, hdrawn⟩ := @h.between g low high hle
    rw [hdrawn] at hfault
    cases hfault
  below := by
    intro g low high cause hlt hfault
    obtain ⟨drawn, hdrawn⟩ := @h.below g low high hlt
    rw [hdrawn] at hfault
    cases hfault

/-- The library's own sampler never takes a range for empty that is not. -/
theorem failsOnly_seeded : seeded.FailsOnly (· ≠ .empty) where
  -- with its bounds in order a range is not empty, but it can still be too wide
  between := by
    intro g low high cause hle h
    unfold seeded Generator.between at h
    dsimp only at h
    rw [if_neg (not_not_intro hle)] at h
    split at h
    · obtain rfl := Except.error.inj h
      simp
    · cases h
  -- without its upper bound it may also be that no draw is within the range
  below := by
    intro g low high cause hlt h
    unfold seeded Generator.below at h
    dsimp only at h
    rw [if_neg (not_not_intro hlt)] at h
    split at h
    · obtain rfl := Except.error.inj h
      simp
    · split at h
      · cases h
      · obtain rfl := Except.error.inj h
        simp

/-- The library's own sampler, but where a range is too wide for it the lower bound will do. -/
def obliging : Sampler where
  between g low high := (g.between low high).tryCatch (oblige g low)
  below g low high := (g.below low high).tryCatch (oblige g low)
where
  oblige (g : Generator) (low : Single) : RangeFault → Except RangeFault (Single × Generator)
    | .empty => .error .empty
    | .tooWide | .exhausted => .ok (low, g.advance 1)

theorem exists_oblige {g : Generator} {low : Single}
    {drawn : Except RangeFault (Single × Generator)} (h : drawn ≠ .error .empty) :
    ∃ drawn', drawn.tryCatch (obliging.oblige g low) = .ok drawn' := by
  rcases drawn with (_ | _ | _) | r
  · exact absurd rfl h
  · exact ⟨_, rfl⟩
  · exact ⟨_, rfl⟩
  · exact ⟨r, rfl⟩

theorem willing_obliging : obliging.Willing where
  between hle := exists_oblige fun hempty => failsOnly_seeded.between hle hempty rfl
  below hlt := exists_oblige fun hempty => failsOnly_seeded.below hlt hempty rfl

/-- `S` extends `T`: every number that `T` draws is drawn by `S`. -/
structure Extends (S T : Sampler) : Prop where
  between : ∀ {g low high drawn}, T.between g low high = .ok drawn →
    S.between g low high = .ok drawn
  below : ∀ {g low high drawn}, T.below g low high = .ok drawn → S.below g low high = .ok drawn

theorem extends_obliging : obliging.Extends seeded where
  between := by
    intro g low high drawn h
    show (g.between low high).tryCatch (obliging.oblige g low) = _
    rw [show g.between low high = .ok drawn from h]
    rfl
  below := by
    intro g low high drawn h
    show (g.below low high).tryCatch (obliging.oblige g low) = _
    rw [show g.below low high = .ok drawn from h]
    rfl

end Sampler

variable {S : Sampler}

/-! ### The wave with any sampler -/

/-- `Wave.advance`, drawing from a sampler. -/
def Wave.advanceWith (S : Sampler) (wave : Wave) (t : Tuning) (g : Generator) (dt : Single) :
    Except RangeFault (Option Single × Wave × Generator) := do
  let elapsed := wave.elapsed + dt
  if elapsed < wave.threshold then return (none, ⟨elapsed, wave.threshold⟩, g)
  let (threshold, g) ← S.between g t.enemy.spawnIntervalMin t.enemy.spawnIntervalMax
  let (y, g) ← S.below g .zero t.fieldHeight
  return (some y, ⟨.zero, threshold⟩, g)

/-- Who the wave brings. -/
def World.receive (w : World) (t : Tuning) : Option Single → World × List Dispatch
  | some y => w.receiveEnemy t y
  | none => (w, [])

namespace Simulation

/-- `Simulation.sendWave`, drawing from a sampler. -/
def sendWaveWith (S : Sampler) (s : Simulation) (dt : Single) : Except StepFault Simulation :=
  match s.wave.advanceWith S s.tuning s.generator dt with
  | .error cause => .error (.noRange cause)
  | .ok (place, wave, generator) =>
    let (world, dispatches) := s.world.receive s.tuning place
    .ok ({ s with wave, generator, world }.say dispatches)

/-- `Simulation.tick`, drawing from a sampler. -/
def tickWith (S : Sampler) (s : Simulation) (dt : Single) :
    Except StepFault (Simulation × List Dispatch) := do
  let s ← (s.passTime dt).steer.sendWaveWith S dt
  let s ← s.move dt
  return ((s.age dt).collide.reap.publish dt).flush

/-- `Simulation.step`, drawing from a sampler. -/
def stepWith (S : Sampler) (s : Simulation) : Step → Except StepFault (Simulation × List Dispatch)
  | .event e => .ok (s.handle e, [])
  | .tick dt => s.tickWith S dt

/-- `Simulation.run`, drawing from a sampler. -/
def runWith (S : Sampler) (s : Simulation) :
    List Step → Except StepFault (Simulation × List Dispatch)
  | [] => .ok (s, [])
  | x :: rest => do
    let (next, sent) ← s.stepWith S x
    let (last, more) ← next.runWith S rest
    return (last, sent ++ more)

theorem sendWaveWith_seeded (s : Simulation) (dt : Single) :
    s.sendWaveWith .seeded dt = s.sendWave dt := by
  have hadvance : s.wave.advanceWith .seeded s.tuning s.generator dt =
      s.wave.advance s.tuning s.generator dt := rfl
  rw [sendWaveWith, sendWave, World.sendWave, hadvance]
  cases s.wave.advance s.tuning s.generator dt with
  | error cause => rfl
  | ok r =>
    obtain ⟨place, wave, generator⟩ := r
    cases place <;> rfl

theorem tickWith_seeded (s : Simulation) (dt : Single) : s.tickWith .seeded dt = s.tick dt := by
  rw [tickWith, sendWaveWith_seeded, tick]

/-- **With the library's own sampler a run is a run.** -/
theorem runWith_seeded (steps : List Step) (s : Simulation) :
    s.runWith .seeded steps = (s.run steps).map fun o => (o.simulation, o.sent) := by
  induction steps generalizing s with
  | nil => rfl
  | cons x rest ih =>
    have hstep : s.stepWith .seeded x = s.step x := by
      cases x with
      | event e => rfl
      | tick dt => exact s.tickWith_seeded dt
    rw [runWith, hstep, run]
    cases s.step x with
    | error fault => rfl
    | ok r =>
      obtain ⟨next, sent⟩ := r
      simp only [bind, Except.bind]
      rw [ih next]
      cases next.run rest <;> rfl

/-! ### What a sampler draws beyond another

A run that draws every number it asks for goes the same way with a sampler that has more of them.
-/

section Extends

variable {T : Sampler}

theorem advanceWith_of_extends (h : S.Extends T) {wave : Wave} {t : Tuning} {g : Generator}
    {dt : Single} {r : Option Single × Wave × Generator} (hr : wave.advanceWith T t g dt = .ok r) :
    wave.advanceWith S t g dt = .ok r := by
  unfold Wave.advanceWith at hr ⊢
  dsimp only at hr ⊢
  split at hr
  case isTrue hearly =>
    rw [if_pos hearly]
    exact hr
  case isFalse hdue =>
    rw [if_neg hdue]
    obtain ⟨threshold, hthreshold, hr⟩ := bind_eq_ok_iff.mp hr
    obtain ⟨y, hy, hr⟩ := bind_eq_ok_iff.mp hr
    exact bind_eq_ok_iff.mpr
      ⟨threshold, h.between hthreshold, bind_eq_ok_iff.mpr ⟨y, h.below hy, hr⟩⟩

theorem sendWaveWith_of_extends (h : S.Extends T) {s s' : Simulation} {dt : Single}
    (hs : s.sendWaveWith T dt = .ok s') : s.sendWaveWith S dt = .ok s' := by
  unfold sendWaveWith at hs ⊢
  cases hr : s.wave.advanceWith T s.tuning s.generator dt with
  | error cause =>
    rw [hr] at hs
    cases hs
  | ok r =>
    rw [hr] at hs
    rw [advanceWith_of_extends h hr]
    exact hs

theorem stepWith_of_extends (h : S.Extends T) {s : Simulation} {x : Step}
    {r : Simulation × List Dispatch} (hr : s.stepWith T x = .ok r) : s.stepWith S x = .ok r := by
  cases x with
  | event e => exact hr
  | tick dt =>
    obtain ⟨swept, hswept, hr⟩ := bind_eq_ok_iff.mp hr
    exact bind_eq_ok_iff.mpr ⟨swept, sendWaveWith_of_extends h hswept, hr⟩

theorem runWith_of_extends (h : S.Extends T) {steps : List Step} {s : Simulation}
    {r : Simulation × List Dispatch} (hr : s.runWith T steps = .ok r) :
    s.runWith S steps = .ok r := by
  induction steps generalizing s r with
  | nil => exact hr
  | cons x rest ih =>
    obtain ⟨next, hnext, hr⟩ := bind_eq_ok_iff.mp hr
    obtain ⟨last, hlast, hr⟩ := bind_eq_ok_iff.mp hr
    exact bind_eq_ok_iff.mpr
      ⟨next, stepWith_of_extends h hnext, bind_eq_ok_iff.mpr ⟨last, ih hlast, hr⟩⟩

/-- A run that ends in a state with the library's own sampler ends there with one that extends it.
-/
theorem runWith_of_run (h : S.Extends .seeded) {steps : List Step} {s : Simulation} {o : Outcome}
    (ho : s.run steps = .ok o) : s.runWith S steps = .ok (o.simulation, o.sent) := by
  refine runWith_of_extends h ?_
  rw [runWith_seeded, ho]
  rfl

end Extends

end Simulation

/-! ## What valid settings guarantee -/

/-- A field with points, and an order of the bounds between two enemies. -/
structure Tuning.Playable (t : Tuning) : Prop where
  width : .zero < t.fieldWidth
  height : .zero < t.fieldHeight
  interval : t.enemy.spawnIntervalMin ≤ t.enemy.spawnIntervalMax

theorem require_eq_ok_iff {ε : Type} {holds : Bool} {fault : ε} :
    require holds fault = .ok () ↔ holds = true := by
  cases holds <;> simp [require]

theorem playable_of_validate {settings : Settings} (h : settings.validate = .ok ()) :
    settings.game.Playable := by
  obtain ⟨-, -, h⟩ := bind_eq_ok_iff.mp h
  obtain ⟨-, -, h⟩ := bind_eq_ok_iff.mp h
  obtain ⟨-, -, h⟩ := bind_eq_ok_iff.mp h
  obtain ⟨-, -, h⟩ := bind_eq_ok_iff.mp h
  obtain ⟨-, -, h⟩ := bind_eq_ok_iff.mp h
  obtain ⟨_, hfield, h⟩ := bind_eq_ok_iff.mp h
  obtain ⟨_, hinterval, -⟩ := bind_eq_ok_iff.mp h
  rw [require_eq_ok_iff, Bool.and_eq_true, decide_eq_true_eq, decide_eq_true_eq] at hfield hinterval
  exact ⟨hfield.1, hfield.2, hinterval.2⟩

namespace World

variable {w : World} {t : Tuning}

/-- Bounds that a coordinate can be brought between, whatever it is. -/
structure Clampable (low high : Single) : Prop where
  low_number : low.isNaN = false
  high_number : high.isNaN = false
  ordered : low ≤ high

theorem clampable_of_pos {size : Single} (h : .zero < size) : Clampable .zero (.zero + size) := by
  have hle := Single.zero_le_zero_add h
  exact ⟨Single.isNaN_left_of_le hle, Single.isNaN_right_of_le hle, hle⟩

theorem Clampable.exists_clamp? {low high : Single} (h : Clampable low high) (x : Single) :
    ∃ y, x.clamp? low high = some y :=
  Option.isSome_iff_exists.mp (Single.clamp?_isSome.mpr h.ordered)

/-- Every point has a nearest one in a field that has points. -/
theorem exists_clamp?_field (ht : t.Playable) (p : Vector2) :
    ∃ q, (field t).clamp? p = some q := by
  obtain ⟨x, hx⟩ := (clampable_of_pos ht.width).exists_clamp? p.x
  obtain ⟨y, hy⟩ := (clampable_of_pos ht.height).exists_clamp? p.y
  refine ⟨⟨x, y⟩, ?_⟩
  show (p.x.clamp? .zero (.zero + t.fieldWidth)).bind (fun x =>
    (p.y.clamp? .zero (.zero + t.fieldHeight)).bind fun y => some (Vector2.mk x y)) = _
  rw [hx, Option.bind_some, hy, Option.bind_some]

/-- So motion never fails, whatever the places and the velocities are. -/
theorem exists_move? (ht : t.Playable) (w : World) (dt : Single) :
    ∃ w', w.move? t dt = some w' := by
  unfold move?
  cases hpositions : (w.registry.column .position).change? (w.nextPosition t dt) with
  | some positions => exact ⟨_, rfl⟩
  | none =>
    obtain ⟨h, p, -, hnone⟩ := Column.change?_eq_none_iff.mp hpositions
    unfold nextPosition at hnone
    split at hnone
    · cases hnone
    · split at hnone
      · obtain ⟨q, hq⟩ := exists_clamp?_field ht (moved p _ dt)
        rw [hq] at hnone
        cases hnone
      · cases hnone

/-! ## How the registry of a world comes about -/

/-- The registry is what calls on a new one lead to. -/
def Built (w : World) : Prop := w.registry.Reached

theorem Built.of_registry {w' : World} (hw : w.Built) (h : w'.registry = w.registry) : w'.Built := by
  rw [Built, h]
  exact hw

theorem built_empty : World.empty.Built := by
  have hregister : ∀ (types : List ComponentType) {r : Registry ComponentType.Value}, r.Reached →
      (types.foldl Registry.register r).Reached := by
    intro types
    induction types with
    | nil => exact id
    | cons c rest ih => exact fun hr => ih (hr.call (.register c))
  exact hregister _ Registry.reached_empty

theorem reached_equip {r : Registry ComponentType.Value} (hr : r.Reached) (h : Handle)
    (parts : List Part) : (equip r h parts).Reached := by
  induction parts generalizing r with
  | nil => exact hr
  | cons part rest ih => exact ih (hr.call (.insert part.1 h part.2))

theorem Built.summon (hw : w.Built) (parts : List Part) : (w.summon parts).2.Built :=
  reached_equip (hw.call .spawn) _ _

theorem Built.reap (hw : w.Built) (condemned : HandleSet) : (w.reap condemned).1.Built :=
  hw.destroyAll (w.reaped condemned)

theorem Built.spawnPlayer (hw : w.Built) (t : Tuning) (id : UInt8) (username : String) :
    (w.spawnPlayer t id username).2.Built :=
  (hw.summon (avatarParts t id)).of_registry (registry_spawnPlayer t id username)

theorem Built.fire (hw : w.Built) (t : Tuning) (now : Double) (endpoints : List Endpoint)
    (id : UInt8) (origin : Vector2) : (w.fire t now endpoints id origin).1.Built := by
  have hreloading : (w.reloading now id).Built := hw.of_registry rfl
  rw [fire_fst]
  exact hreloading.summon (bulletParts t id origin)

theorem Built.steerPlayer (hw : w.Built) (t : Tuning) (now : Double) (endpoints : List Endpoint)
    (id : UInt8) : (w.steerPlayer t now endpoints id).1.Built := by
  unfold World.steerPlayer
  split
  · exact hw
  · rename_i i _
    unfold obey
    split
    · exact hw.of_registry rfl
    · rename_i h _
      have hturned : (w.turned id h (steeredVelocity t i)).Built :=
        hw.call (.insert .velocity h (steeredVelocity t i))
      dsimp only
      split
      · split
        · exact hturned.fire t now endpoints id _
        · exact hturned
      · exact hturned

theorem Built.steerPlayers (hw : w.Built) (t : Tuning) (now : Double) (endpoints : List Endpoint)
    (ids : List UInt8) : (steerPlayers t now endpoints ids w).1.Built := by
  induction ids generalizing w with
  | nil => exact hw
  | cons id rest ih => exact ih (hw.steerPlayer t now endpoints id)

theorem Built.receive (hw : w.Built) (t : Tuning) (place : Option Single) :
    (w.receive t place).1.Built := by
  cases place with
  | none => exact hw
  | some y =>
    show (w.receiveEnemy t y).1.Built
    rw [receiveEnemy_eq]
    exact hw.summon (enemyParts t y)

theorem Built.move? (hw : w.Built) {dt : Single} {w' : World} (h : w.move? t dt = some w') :
    w'.Built := by
  obtain ⟨positions, hpositions, rfl⟩ := Option.map_eq_some_iff.mp h
  unfold Column.change? at hpositions
  split at hpositions
  · obtain rfl := Option.some.inj hpositions
    exact hw.call (.overwrite .position _)
  · cases hpositions

theorem Built.age (hw : w.Built) (dt : Single) : (w.age dt).Built :=
  hw.call (.overwrite .lifetime _)

theorem Built.collide (hw : w.Built) (t : Tuning) : (w.collide t).1.Built := by
  have hhits : ∀ (hits : List Hit) {r : Registry ComponentType.Value}, r.Reached →
      (hits.foldl (fun r hit =>
        r.modify .health hit.target.handle fun health => health.hit hit.shot.damage) r).Reached := by
    intro hits
    induction hits with
    | nil => exact id
    | cons hit rest ih => exact fun hr => ih (hr.call (.modify .health hit.target.handle _))
  exact hhits _ hw

end World

namespace Simulation

variable {s : Simulation}

/-! ## Events -/

theorem built_handle (hw : s.world.Built) (e : Event) : (s.handle e).world.Built := by
  -- a registry is built by calls, and the handlers make no use of it but by calls
  cases e with
  | connected id username =>
    show (s.connect id username).world.Built
    unfold connect
    split
    · exact (World.Built.reap hw _).spawnPlayer s.tuning id username
    · exact hw.spawnPlayer s.tuning id username
  | udpReady id endpoint =>
    show (s.welcome id endpoint).world.Built
    unfold welcome
    split
    · exact hw
    · exact hw.of_registry rfl
  | endpointChanged id endpoint => exact hw.of_registry rfl
  | disconnected id =>
    show (s.disconnect id).world.Built
    unfold disconnect
    split
    · exact hw
    · dsimp only
      split
      · exact World.Built.reap (hw.of_registry rfl) _
      · exact hw.of_registry rfl
  | input id i => exact hw.of_registry rfl

/-! ## Steps of time -/

/-- It ends well, or for want of a number and for such a cause. -/
def Ends {α : Type} (P : RangeFault → Prop) (Q : α → Prop) : Except StepFault α → Prop
  | .ok a => Q a
  | .error (.noRange cause) => P cause
  | .error .noField => False

variable {P : RangeFault → Prop}

theorem Ends.bind {α β : Type} {Q : α → Prop} {R : β → Prop} {x : Except StepFault α}
    {f : α → Except StepFault β} (hx : Ends P Q x) (hf : ∀ a, Q a → Ends P R (f a)) :
    Ends P R (x >>= f) := by
  cases x with
  | ok a => exact hf a hx
  | error fault => cases fault <;> exact hx

/-- What is kept from step to step: the rules of the game, and that the registry is what calls on a
new one lead to. -/
structure Steady (t : Tuning) (s : Simulation) : Prop where
  tuning : s.tuning = t
  built : s.world.Built

variable {t : Tuning}

theorem steady_start (settings : Settings) (entropy : Generator) :
    Steady settings.game (start settings entropy) :=
  ⟨rfl, World.built_empty⟩

/-- The wave goes on, unless there is no number. -/
theorem advanceWith_cases (hS : S.FailsOnly P) (ht : t.Playable) (wave : Wave) (g : Generator)
    (dt : Single) :
    (∃ r, wave.advanceWith S t g dt = .ok r) ∨
      ∃ cause, wave.advanceWith S t g dt = .error cause ∧ P cause := by
  unfold Wave.advanceWith
  dsimp only
  split
  · exact .inl ⟨_, rfl⟩
  · cases hthreshold : S.between g t.enemy.spawnIntervalMin t.enemy.spawnIntervalMax with
    | error cause => exact .inr ⟨cause, rfl, hS.between ht.interval hthreshold⟩
    | ok drawn =>
      obtain ⟨threshold, g₁⟩ := drawn
      simp only [bind, Except.bind]
      cases hy : S.below g₁ .zero t.fieldHeight with
      | error cause => exact .inr ⟨cause, rfl, hS.below ht.height hy⟩
      | ok drawn => exact .inl ⟨_, rfl⟩

theorem Steady.sendWaveWith (hs : Steady t s) (hS : S.FailsOnly P) (ht : t.Playable) (dt : Single) :
    Ends P (Steady t) (s.sendWaveWith S dt) := by
  obtain ⟨rfl, hw⟩ := hs
  rw [Simulation.sendWaveWith]
  rcases advanceWith_cases hS ht s.wave s.generator dt with ⟨r, hadvance⟩ | ⟨cause, hadvance, hcause⟩
  · rw [hadvance]
    exact ⟨rfl, hw.receive s.tuning r.1⟩
  · rw [hadvance]
    exact hcause

theorem Steady.move (hs : Steady t s) (ht : t.Playable) (dt : Single) :
    Ends P (Steady t) (s.move dt) := by
  obtain ⟨rfl, hw⟩ := hs
  obtain ⟨w, hmove⟩ := World.exists_move? ht s.world dt
  rw [Simulation.move, hmove]
  exact ⟨rfl, hw.move? hmove⟩

/-- **A step fails for no other reason than the sampler, under playable rules.** -/
theorem Steady.stepWith (hs : Steady t s) (hS : S.FailsOnly P) (ht : t.Playable) (x : Step) :
    Ends P (fun r => Steady t r.1) (s.stepWith S x) := by
  cases x with
  | event e =>
    obtain ⟨_, _, _, hkeeps⟩ := s.handle_keeps e
    refine ⟨?_, built_handle hs.built e⟩
    rw [hkeeps]
    exact hs.tuning
  | tick dt =>
    have hsteered : Steady t (s.passTime dt).steer := ⟨hs.tuning, hs.built.steerPlayers _ _ _ _⟩
    refine (hsteered.sendWaveWith hS ht dt).bind fun swept hswept => ?_
    refine (hswept.move ht dt).bind fun moved hmoved => ?_
    obtain ⟨hworld, htuning⟩ := (moved.age dt).collide.reap.world_publish dt
    refine ⟨htuning.trans hmoved.tuning, ?_⟩
    show ((moved.age dt).collide.reap.publish dt).world.Built
    rw [hworld]
    exact ((hmoved.built.age dt).collide moved.tuning).reap _

/-- **So does a run.** -/
theorem Steady.runWith (hS : S.FailsOnly P) (ht : t.Playable) (steps : List Step)
    (hs : Steady t s) : Ends P (fun r => Steady t r.1) (s.runWith S steps) := by
  induction steps generalizing s with
  | nil => exact hs
  | cons x rest ih =>
    refine (hs.stepWith hS ht x).bind fun next hnext => ?_
    exact (ih hnext).bind fun last hlast => hlast

/-- **Valid settings never fail.** The bounds that players are held between are numbers and in
order, so every point has a nearest one in the field; neither of the two ranges that numbers are
drawn from is empty. With a sampler that has a number in each range that is not empty, a run of any
steps ends in a state whose registry never goes out of bounds. With the library's own sampler a run
ends in such a state too, or fails because there is no number in a range, but not because the range
is empty. -/
theorem run_safe {settings : Settings} (h : settings.validate = .ok ()) :
    (World.Clampable .zero (.zero + settings.game.fieldWidth) ∧
      World.Clampable .zero (.zero + settings.game.fieldHeight) ∧
      ∀ p, ∃ q, (World.field settings.game).clamp? p = some q) ∧
    (settings.game.enemy.spawnIntervalMin ≤ settings.game.enemy.spawnIntervalMax ∧
      .zero < settings.game.fieldHeight) ∧
    (∀ S : Sampler, S.Willing → ∀ (entropy : Generator) (steps : List Step), ∃ last sent,
      (start settings entropy).runWith S steps = .ok (last, sent) ∧
      last.tuning = settings.game ∧ last.world.registry.InBounds) ∧
    ∀ (entropy : Generator) (steps : List Step),
      (∃ o, (start settings entropy).run steps = .ok o ∧
        o.simulation.tuning = settings.game ∧ o.simulation.world.registry.InBounds) ∨
      ∃ cause, (start settings entropy).run steps = .error (.noRange cause) ∧ cause ≠ .empty := by
  have ht := playable_of_validate h
  refine ⟨⟨World.clampable_of_pos ht.width, World.clampable_of_pos ht.height,
    World.exists_clamp?_field ht⟩, ⟨ht.interval, ht.height⟩, ?_, ?_⟩
  · intro S hS entropy steps
    have hends := (steady_start settings entropy).runWith hS.failsOnly ht steps
    rcases hrun : (start settings entropy).runWith S steps with (cause | _) | ⟨last, sent⟩
    -- the sampler fails for nothing, and the field has points: neither fault is left
    · rw [hrun] at hends
      exact hends.elim
    · rw [hrun] at hends
      exact hends.elim
    · rw [hrun] at hends
      exact ⟨last, sent, rfl, hends.tuning, hends.built.inBounds⟩
  · intro entropy steps
    -- the library's own sampler may fail, and only for a range that has something in it
    have hends := (steady_start settings entropy).runWith Sampler.failsOnly_seeded ht steps
    rw [runWith_seeded] at hends
    rcases hrun : (start settings entropy).run steps with (cause | _) | o
    · rw [hrun] at hends
      exact .inr ⟨cause, rfl, hends⟩
    · rw [hrun] at hends
      exact hends.elim
    · rw [hrun] at hends
      exact .inl ⟨o, rfl, hends.tuning, hends.built.inBounds⟩

/-- A player comes, and then the time that passes is infinite, runs back, stands still and is no
number. -/
def irregularTicks : List Step := [
  .event (.connected 1 "ace"),
  .tick ⟨0x7f800000⟩,
  .tick (.ofInt (-1)),
  .tick .zero,
  .tick ⟨0x7fc00000⟩]

/-- Two enemies have come. The infinite time has carried the first off, and the second has its
handle; like the avatar it is nowhere. The library's own sampler draws every number, so a willing
one that extends it draws the same. -/
theorem run_safe_of_irregularTicks : ∃ o p,
    Settings.default.validate = .ok () ∧ Sampler.obliging.Willing ∧
    (start .default (.ofSeed 0)).run irregularTicks = .ok o ∧
    (start .default (.ofSeed 0)).runWith .obliging irregularTicks = .ok (o.simulation, o.sent) ∧
    o.simulation.world.registry.get? .position ⟨0⟩ = some p ∧ p.x.isNaN = true ∧ p.y.isNaN = true ∧
    o.simulation.world.registry.entities = [⟨0⟩, ⟨1⟩] ∧
    (o.simulation.world.registry.run? [.destroy ⟨1⟩, .spawn, .spawn]).isSome = true := by
  have hvalid : Settings.default.validate = .ok () := by decide
  obtain ⟨-, -, hwilling, hseeded⟩ := run_safe hvalid
  -- what is to be seen at the end of the run, so that it is evaluated once
  have hends : ((start .default (.ofSeed 0)).run irregularTicks).toOption.any (fun o =>
      (o.simulation.world.registry.get? .position ⟨0⟩).any (fun p => p.x.isNaN && p.y.isNaN) &&
        (decide (o.simulation.world.registry.entities = [⟨0⟩, ⟨1⟩]) &&
          decide ((o.simulation.world.registry.run [.destroy ⟨1⟩, .spawn, .spawn]).2.pool.next <
            UInt32.size))) = true := by decide +kernel
  rcases hseeded (.ofSeed 0) irregularTicks with ⟨o, hrun, -, -⟩ | ⟨cause, hrun, -⟩
  · rw [hrun] at hends
    obtain ⟨hplace, hends⟩ := Bool.and_eq_true_iff.mp hends
    rw [Bool.and_eq_true, decide_eq_true_eq, decide_eq_true_eq] at hends
    obtain ⟨p, hp, hplace⟩ := (Option.any_eq_true _ _).mp hplace
    rw [Bool.and_eq_true] at hplace
    -- a run that ends with the library's sampler ends the same way with any one that extends it
    have hsame := runWith_of_run Sampler.extends_obliging hrun
    obtain ⟨last, sent, hlast, -, hbounds⟩ :=
      hwilling .obliging Sampler.willing_obliging (.ofSeed 0) irregularTicks
    obtain ⟨rfl, rfl⟩ := Prod.mk.inj (Except.ok.inj (hlast.symm.trans hsame))
    refine ⟨o, p, hvalid, Sampler.willing_obliging, hrun, hsame, hp, hplace.1, hplace.2, hends.1, ?_⟩
    rw [hbounds.run?_eq _ hends.2]
    rfl
  · rw [hrun] at hends
    cases hends

end Simulation

end Skirmish
