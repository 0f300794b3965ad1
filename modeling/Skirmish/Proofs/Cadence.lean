import Mathlib.Data.List.Induction
import Skirmish.Proofs.Approach
/-!
# The cadence of fire

What a player does is told by the story of a run, moment by moment (`Simulation.story`): each step,
the time after it, and how many bullets of the player came in it. From the story alone it can be
told when a player fires (`Story.FiresByHistory`). All that matters is what has happened since the
player came: the latest input that no step of time has come after, and the time of the latest
bullet.

Slots hold the same two things. The invariant of a run (`Story.Recalls`) is that a slot remembers what the
story tells, however many inputs come between two steps of time, and whoever comes and goes.
-/

namespace Skirmish

open World

/-! ## What has happened since -/

/-- The last item that begins something, and what has come since, if nothing that has come since ends
it. -/
def Since {α : Type} (begins ends : α → Prop) (past since : List α) : Prop :=
  ∃ before a, past = before ++ a :: since ∧ begins a ∧ ∀ b ∈ since, ¬ ends b

section

variable {α : Type} {begins ends : α → Prop} {past since since' : List α} {a : α}

theorem not_since_nil : ¬ Since begins ends [] since := by
  rintro ⟨before, a, heq, -⟩
  exact absurd heq.symm (by simp)

/-- One more item begins it, or ends it, or neither. -/
theorem since_concat : Since begins ends (past ++ [a]) since ↔
    (begins a ∧ since = []) ∨
      (¬ ends a ∧ ∃ rest, Since begins ends past rest ∧ since = rest ++ [a]) := by
  -- whether anything has happened since is whether the list since then is empty, seen from its end
  constructor
  · rintro ⟨before, b, heq, hb, hnone⟩
    rcases List.eq_nil_or_concat since with rfl | ⟨rest, c, rfl⟩
    · obtain ⟨-, hab⟩ := List.append_inj' heq rfl
      obtain rfl : a = b := List.head_eq_of_cons_eq hab
      exact .inl ⟨hb, rfl⟩
    · rw [List.concat_eq_append] at heq hnone ⊢
      rw [← List.cons_append, ← List.append_assoc] at heq
      obtain ⟨hpast, hac⟩ := List.append_inj' heq rfl
      obtain rfl : a = c := List.head_eq_of_cons_eq hac
      refine .inr ⟨hnone a (by simp), rest, ⟨before, b, hpast, hb, fun c hc => ?_⟩, rfl⟩
      exact hnone c (List.mem_append_left _ hc)
  · rintro (⟨ha, rfl⟩ | ⟨ha, rest, ⟨before, b, rfl, hb, hnone⟩, rfl⟩)
    · exact ⟨past, a, rfl, ha, by simp⟩
    · refine ⟨before, b, by simp, hb, fun c hc => ?_⟩
      rcases List.mem_append.mp hc with hc | hc
      · exact hnone c hc
      · rwa [List.mem_singleton.mp hc]

theorem exists_since_concat : (∃ rest, Since begins ends (past ++ [a]) rest) ↔
    begins a ∨ ¬ ends a ∧ ∃ rest, Since begins ends past rest := by
  simp only [since_concat]
  constructor
  · rintro ⟨_, ⟨ha, -⟩ | ⟨ha, rest, hrest, -⟩⟩
    · exact .inl ha
    · exact .inr ⟨ha, rest, hrest⟩
  · rintro (ha | ⟨ha, rest, hrest⟩)
    · exact ⟨[], .inl ⟨ha, rfl⟩⟩
    · exact ⟨rest ++ [a], .inr ⟨ha, rest, hrest, rfl⟩⟩

/-- What begins it anew ends it as well, so there is only one last time. -/
theorem Since.unique (hends : ∀ a, begins a → ends a) (h : Since begins ends past since)
    (h' : Since begins ends past since') : since' = since := by
  induction past using List.reverseRecOn generalizing since since' with
  | nil => exact absurd h not_since_nil
  | append_singleton past a ih =>
    rcases since_concat.mp h with ⟨ha, rfl⟩ | ⟨ha, rest, hrest, rfl⟩
    · rcases since_concat.mp h' with ⟨-, rfl⟩ | ⟨hna, -⟩
      · rfl
      · exact absurd (hends a ha) hna
    · rcases since_concat.mp h' with ⟨hb, rfl⟩ | ⟨-, rest', hrest', rfl⟩
      · exact absurd (hends a hb) ha
      · rw [ih hrest hrest']

/-- Nothing of this begins it, so it began before. -/
theorem Since.of_append {more : List α} (hmore : ∀ b ∈ more, ¬ begins b)
    (h : Since begins ends (past ++ more) since) :
    ∃ rest, Since begins ends past rest ∧ since = rest ++ more := by
  induction more generalizing past with
  | nil => exact ⟨since, by rwa [List.append_nil] at h, (List.append_nil _).symm⟩
  | cons b more ih =>
    rw [List.append_cons] at h
    obtain ⟨rest, hrest, rfl⟩ := ih (fun c hc => hmore c (List.mem_cons_of_mem _ hc)) h
    rcases since_concat.mp hrest with ⟨hb, -⟩ | ⟨-, rest', hrest', rfl⟩
    · exact absurd hb (hmore b List.mem_cons_self)
    · exact ⟨rest', hrest', by simp⟩

end

/-! ## Stories -/

namespace Step

variable (p : UInt8)

/-- The player comes. -/
def brings : Step → Bool
  | .event (.connected q _) => q = p
  | _ => false

/-- The player comes or goes. -/
def turns : Step → Bool
  | .event (.connected q _) => q = p
  | .event (.disconnected q) => q = p
  | _ => false

/-- The player's input. -/
def input? : Step → Option Wire.Input
  | .event (.input q i) => if q = p then some i else none
  | _ => none

theorem turns_of_brings {x : Step} (h : x.brings p = true) : x.turns p = true := by
  cases x with
  | tick dt => cases h
  | event e => cases e <;> first | exact h | cases h

end Step

/-- A step of a run. -/
structure Moment where
  step : Step
  /-- The time after the step. -/
  now : Double
  /-- How many bullets of the player come. -/
  bullets : Nat
deriving DecidableEq

/-- What happens to a player in a run. -/
abbrev Story := List Moment

namespace Story

variable {t : Tuning} {p : UInt8} {story since since' : Story} {m : Moment} {f : Profile}

/-- The player is there, and this has happened since the player came. -/
def Stays (p : UInt8) (story since : Story) : Prop :=
  Since (fun m => m.step.brings p = true) (fun m => m.step.turns p = true) story since

/-- The player's latest input. -/
def Latest (p : UInt8) (since : Story) (i : Wire.Input) : Prop :=
  ∃ rest, Since (fun m => m.step.input? p = some i) (fun m => (m.step.input? p).isSome = true)
    since rest

/-- The player's latest input, if no step of time has come after it. -/
def Waits (p : UInt8) (since : Story) (i : Wire.Input) : Prop :=
  ∃ rest, Since (fun m => m.step.input? p = some i)
    (fun m => (m.step.input? p).isSome = true ∨ m.step.span?.isSome = true) since rest

/-- The time of the player's latest bullet. -/
def LastFired (since : Story) (now : Double) : Prop :=
  ∃ rest, Since (fun m => 0 < m.bullets ∧ m.now = now) (fun m => 0 < m.bullets) since rest

theorem Stays.unique (h : Stays p story since) (h' : Stays p story since') : since' = since :=
  Since.unique (fun _ => Step.turns_of_brings p) h h'

theorem Waits.latest {i : Wire.Input} (h : Waits p since i) : Latest p since i := by
  obtain ⟨rest, before, a, heq, ha, hnone⟩ := h
  exact ⟨rest, before, a, heq, ha, fun b hb hi => hnone b hb (.inl hi)⟩

/-- There is only one latest input. -/
theorem Latest.unique {i j : Wire.Input} (h : Latest p since i) (h' : Latest p since j) :
    j = i := by
  induction since using List.reverseRecOn with
  | nil => exact absurd h.choose_spec not_since_nil
  | append_singleton since a ih =>
    rcases exists_since_concat.mp h with hi | ⟨hnone, hi⟩
    · rcases exists_since_concat.mp h' with hj | ⟨hnone, -⟩
      · exact Option.some.inj (hj.symm.trans hi)
      · exact absurd (by rw [hi]; rfl) hnone
    · rcases exists_since_concat.mp h' with hj | ⟨-, hj⟩
      · exact absurd (by rw [hj]; rfl) hnone
      · exact ih hi hj

/-! ### One more moment -/

theorem latest_concat {i : Wire.Input} : Latest p (since ++ [m]) i ↔
    m.step.input? p = some i ∨ m.step.input? p = none ∧ Latest p since i := by
  rw [Latest, exists_since_concat, Option.not_isSome_iff_eq_none]
  rfl

theorem waits_concat {i : Wire.Input} : Waits p (since ++ [m]) i ↔ m.step.input? p = some i ∨
    (m.step.input? p = none ∧ m.step.span? = none) ∧ Waits p since i := by
  rw [Waits, exists_since_concat, not_or, Option.not_isSome_iff_eq_none,
    Option.not_isSome_iff_eq_none]
  rfl

theorem lastFired_concat {now : Double} : LastFired (since ++ [m]) now ↔
    (0 < m.bullets ∧ m.now = now) ∨ m.bullets = 0 ∧ LastFired since now := by
  rw [LastFired, exists_since_concat, Nat.not_lt, Nat.le_zero]
  rfl

/-- The player stays on. -/
theorem stays_concat (hturns : m.step.turns p = false) :
    Stays p (story ++ [m]) since ↔ ∃ rest, Stays p story rest ∧ since = rest ++ [m] := by
  have hbrings : ¬ m.step.brings p = true := fun hb => by
    rw [Step.turns_of_brings p hb] at hturns
    cases hturns
  have hturns : ¬ m.step.turns p = true := by simp [hturns]
  rw [Stays, since_concat]
  exact ⟨fun h => (h.resolve_left fun hb => hbrings hb.1).2, fun h => .inr ⟨hturns, h⟩⟩

/-! ## What a slot remembers -/

/-- The avatar flies where the latest input says, with the speed of players, and stands still as long as
there has been none. -/
structure FliesAsTold (t : Tuning) (p : UInt8) (since : Story) (velocity : Option Vector2) : Prop where
  of_input : ∀ i, Latest p since i → velocity =
    some ⟨.ofInt i.moveX.toInt.sign * t.player.speed, .ofInt i.moveY.toInt.sign * t.player.speed⟩
  of_none : (∀ i, ¬ Latest p since i) → velocity = some .zero

/-- A profile knows of what has happened since the player came. -/
structure Remembers (t : Tuning) (p : UInt8) (since : Story) (f : Profile) : Prop where
  pending : ∀ i, f.slot.pending = some i ↔ Waits p since i
  lastShot : ∀ now, f.slot.lastShot = some now ↔ LastFired since now
  /-- Once the input has been obeyed, it shows. -/
  velocity : f.slot.pending = none → FliesAsTold t p since f.velocity

/-- There is a profile just when the player is there, and it knows of what has happened since. -/
structure Recalls (t : Tuning) (p : UInt8) (story : Story) (profile : Option Profile) : Prop where
  of_none : profile = none → ∀ since, ¬ Stays p story since
  of_some : ∀ f, profile = some f → ∃ since, Stays p story since ∧ Remembers t p since f

theorem recalls_nil : Recalls t p [] none :=
  ⟨fun _ _ => not_since_nil, fun _ h => by cases h⟩

/-- A moment without inputs of the player, without bullets and without time. -/
structure IsStill (p : UInt8) (m : Moment) : Prop where
  input : m.step.input? p = none
  span : m.step.span? = none
  bullets : m.bullets = 0

theorem FliesAsTold.concat (h : FliesAsTold t p since f.velocity) (hinput : m.step.input? p = none) :
    FliesAsTold t p (since ++ [m]) f.velocity := by
  have hlatest : ∀ i, Latest p (since ++ [m]) i ↔ Latest p since i := by
    intro i
    rw [latest_concat, hinput]
    simp
  exact ⟨fun i hi => h.of_input i ((hlatest i).mp hi),
    fun hnone => h.of_none fun i hi => hnone i ((hlatest i).mpr hi)⟩

/-- A still moment changes nothing that a profile would have to know of. -/
theorem Remembers.still (h : Remembers t p since f) (hm : IsStill p m) :
    Remembers t p (since ++ [m]) f := by
  refine ⟨fun i => ?_, fun now => ?_, fun hp => (h.velocity hp).concat hm.input⟩
  · rw [h.pending, waits_concat, hm.input, hm.span]
    simp
  · rw [h.lastShot, lastFired_concat, hm.bullets]
    simp

/-- While the player stays on, it is enough to say what becomes of the profile. -/
theorem Recalls.stay {profile : Option Profile} (h : Recalls t p story profile)
    (hturns : m.step.turns p = false) {g : Profile → Profile}
    (hg : ∀ f since, profile = some f → Remembers t p since f →
      Remembers t p (since ++ [m]) (g f)) :
    Recalls t p (story ++ [m]) (profile.map g) := by
  refine ⟨fun hnone since hs => ?_, fun f hf => ?_⟩
  · obtain ⟨rest, hrest, -⟩ := (stays_concat hturns).mp hs
    exact h.of_none (Option.map_eq_none_iff.mp hnone) rest hrest
  · obtain ⟨f, hold, rfl⟩ := Option.map_eq_some_iff.mp hf
    obtain ⟨since, hs, hknows⟩ := h.of_some f hold
    exact ⟨since ++ [m], (stays_concat hturns).mpr ⟨since, hs, rfl⟩, hg f since hold hknows⟩

theorem Recalls.still {profile : Option Profile} (h : Recalls t p story profile)
    (hm : IsStill p m) (hturns : m.step.turns p = false) {g : Profile → Profile}
    (hslot : ∀ f, (g f).slot.pending = f.slot.pending ∧ (g f).slot.lastShot = f.slot.lastShot)
    (hvelocity : ∀ f, (g f).velocity = f.velocity) :
    Recalls t p (story ++ [m]) (profile.map g) := by
  refine h.stay hturns fun f since _ hknows => ?_
  have hsame := hknows.still hm
  exact ⟨by rw [(hslot f).1]; exact hsame.pending, by rw [(hslot f).2]; exact hsame.lastShot,
    by rw [(hslot f).1, hvelocity]; exact hsame.velocity⟩

/-- A player who comes has done nothing yet. -/
theorem recalls_come (hbrings : m.step.brings p = true) (username : String) :
    Recalls t p (story ++ [m]) (some (.fresh t p username)) := by
  refine ⟨(fun h => by cases h), fun f hf => ⟨[], since_concat.mpr (.inl ⟨hbrings, rfl⟩), ?_⟩⟩
  obtain rfl := Option.some.inj hf
  refine ⟨fun i => iff_of_false (by simp [Profile.fresh]) ?_,
    fun now => iff_of_false (by simp [Profile.fresh]) ?_, fun _ => ⟨fun i hi => ?_, fun _ => rfl⟩⟩
  · rintro ⟨_, h⟩
    exact not_since_nil h
  · rintro ⟨_, h⟩
    exact not_since_nil h
  · exact absurd hi.choose_spec not_since_nil

/-- Of a player who goes there is nothing to know. -/
theorem recalls_go (hturns : m.step.turns p = true) (hbrings : m.step.brings p = false) :
    Recalls t p (story ++ [m]) none := by
  refine ⟨fun _ since hs => ?_, fun _ h => by cases h⟩
  rcases since_concat.mp hs with ⟨hb, -⟩ | ⟨hnot, -⟩
  · rw [hbrings] at hb
    cases hb
  · exact hnot hturns

/-- An input waits, whatever waited before. -/
theorem Recalls.input {profile : Option Profile} (h : Recalls t p story profile) {i : Wire.Input}
    (hinput : m.step = .event (.input p i)) (hbullets : m.bullets = 0) :
    Recalls t p (story ++ [m])
      (profile.map fun f => { f with slot := { f.slot with pending := some i } }) := by
  have hturns : m.step.turns p = false := by rw [hinput]; rfl
  have hinput : m.step.input? p = some i := by rw [hinput]; exact if_pos rfl
  refine h.stay hturns fun f since _ hknows => ⟨fun j => ?_, fun now => ?_,
    fun hnone => by cases hnone⟩
  · rw [waits_concat, hinput]
    simp
  · rw [lastFired_concat, hbullets, ← hknows.lastShot]
    simp

/-- Nothing waits after a step of time. -/
theorem pending_steered_moved (t : Tuning) (now : Double) (dt : Single) (f : Profile) :
    ((f.steered t now).moved t dt).slot.pending = none := by
  cases hp : f.slot.pending with
  | none => rw [Profile.steered_of_none hp, Profile.moved, hp]
  | some i => rw [Profile.steered_of_some hp, Profile.moved]

/-- In a step of time the input is obeyed. -/
theorem Remembers.tick (h : Remembers t p since f) {dt : Single} (hstep : m.step = .tick dt)
    (hbullets : m.bullets = if f.fires t m.now then 1 else 0) :
    Remembers t p (since ++ [m]) ((f.steered t m.now).moved t dt) := by
  have hinput : m.step.input? p = none := by rw [hstep]; rfl
  have hspan : m.step.span? = some dt := by rw [hstep]; rfl
  -- a step of time uses the input up, starts the wait anew if it fires, and turns the avatar
  have hpending := pending_steered_moved t m.now dt f
  refine ⟨fun i => ?_, fun now => ?_, fun _ => ?_⟩
  · rw [hpending, waits_concat, hinput, hspan]
    simp
  · have hlast : ((f.steered t m.now).moved t dt).slot.lastShot =
        if f.fires t m.now then some m.now else f.slot.lastShot := by
      cases hp : f.slot.pending with
      | none =>
        rw [Profile.steered_of_none hp, Profile.moved, Profile.fires, hp]
        rfl
      | some i => rw [Profile.steered, hp, Profile.moved]
    rw [hlast, lastFired_concat, hbullets]
    split
    · simp
    · simp [h.lastShot]
  · cases hp : f.slot.pending with
    -- with no input since the last step of time the avatar goes on as it was told before
    | none =>
      rw [Profile.steered_of_none hp]
      exact (h.velocity hp).concat hinput
    | some i =>
      -- this input is the latest of all there were, since it is still waiting
      have hlatest : Latest p (since ++ [m]) i :=
        latest_concat.mpr (.inr ⟨hinput, ((h.pending i).mp hp).latest⟩)
      rw [Profile.steered_of_some hp]
      refine ⟨fun j hj => ?_, fun hnone => absurd hlatest (hnone i)⟩
      rw [hlatest.unique hj]
      rfl

theorem Recalls.tick {profile : Option Profile} (h : Recalls t p story profile) {dt : Single}
    (hstep : m.step = .tick dt)
    (hbullets : m.bullets = if profile.any (Profile.fires t m.now) = true then 1 else 0) :
    Recalls t p (story ++ [m]) (profile.map fun f => (f.steered t m.now).moved t dt) := by
  have hturns : m.step.turns p = false := by rw [hstep]; rfl
  refine h.stay hturns fun f since hold hknows => hknows.tick hstep ?_
  rwa [hold, Option.any_some] at hbullets

/-! ## When a player fires -/

/-- How many bullets come in a moment, as told by what has happened before. -/
structure FiresByHistory (t : Tuning) (p : UInt8) (past : Story) (m : Moment) : Prop where
  /-- At most one bullet of the player comes. -/
  once : m.bullets ≤ 1
  /-- One comes in a step of time, if the player is there and the latest input, which waits to be obeyed,
  holds the trigger, and if the wait is over since the latest bullet that has come since the player came,
  or none has. -/
  fires_iff : m.bullets = 1 ↔ m.step.span?.isSome = true ∧
    ∃ since i, Stays p past since ∧ Waits p since i ∧ i.shoots = true ∧
      ∀ last, LastFired since last → t.shootCooldown.toDouble ≤ m.now - last + timeSlack

theorem firesByHistory_of_span (hspan : m.step.span? = none) (hbullets : m.bullets = 0) :
    FiresByHistory t p story m := by
  refine ⟨by omega, iff_of_false (by omega) fun h => ?_⟩
  rw [hspan] at h
  cases h.1

/-- The wait after the latest bullet is over, if there has been one. -/
theorem Remembers.isReady_iff (h : Remembers t p since f) (now : Double) :
    isReady t now f.slot = true ↔
      ∀ last, LastFired since last → t.shootCooldown.toDouble ≤ now - last + timeSlack := by
  unfold isReady
  cases hlast : f.slot.lastShot with
  | none =>
    refine iff_of_true rfl fun last hfired => ?_
    rw [(h.lastShot last).mpr hfired] at hlast
    cases hlast
  | some last =>
    rw [decide_eq_true_eq]
    constructor
    · intro hready last' hfired
      rw [(h.lastShot last').mpr hfired, Option.some.injEq] at hlast
      rwa [hlast]
    · exact fun hall => hall last ((h.lastShot last).mp hlast)

theorem Recalls.firesByHistory {profile : Option Profile} (h : Recalls t p story profile)
    (hspan : m.step.span?.isSome = true)
    (hbullets : m.bullets = if profile.any (Profile.fires t m.now) = true then 1 else 0) :
    FiresByHistory t p story m := by
  have hone : m.bullets = 1 ↔ profile.any (Profile.fires t m.now) = true := by
    rw [hbullets]
    split <;> simp [*]
  refine ⟨by rw [hbullets]; split <;> simp, hone.trans ?_⟩
  constructor
  · intro hfires
    obtain ⟨f, hf, hfires⟩ := (Option.any_eq_true _ _).mp hfires
    obtain ⟨since, hs, hknows⟩ := h.of_some f hf
    rw [Profile.fires, Bool.and_eq_true] at hfires
    obtain ⟨i, hi, hshoots⟩ := (Option.any_eq_true _ _).mp hfires.1
    exact ⟨hspan, since, i, hs, (hknows.pending i).mp hi, hshoots,
      (hknows.isReady_iff m.now).mp hfires.2⟩
  · -- what the story tells is what a slot remembers, if there is a slot at all
    rintro ⟨-, since, i, hs, hwaits, hshoots, hready⟩
    cases hf : profile with
    | none => exact absurd hs (h.of_none hf since)
    | some f =>
      -- there is only one list of what has happened since, so both speak of the same input
      obtain ⟨since', hs', hknows⟩ := h.of_some f hf
      obtain rfl : since = since' := hs'.unique hs
      rw [Option.any_some, Profile.fires, (hknows.pending i).mpr hwaits, Option.any_some, hshoots,
        (hknows.isReady_iff m.now).mpr hready]
      rfl

/-- Between two bullets the wait is over, however many inputs come between them. -/
theorem spaced {past between : Story} {x y : Moment} (hx : FiresByHistory t p past x)
    (hy : FiresByHistory t p (past ++ x :: between) y) (hfirst : x.bullets = 1) (hnext : y.bullets = 1)
    (hbetween : ∀ m ∈ between, m.bullets = 0 ∧ m.step.brings p = false) :
    t.shootCooldown.toDouble ≤ y.now - x.now + timeSlack := by
  obtain ⟨-, since, -, hs, -, -, hready⟩ := hy.fires_iff.mp hnext
  -- bullets come in steps of time, in which nobody comes
  have hspan := (hx.fires_iff.mp hfirst).1
  have hnobody : ∀ m ∈ x :: between, ¬ m.step.brings p = true := by
    intro m hm hbrings
    rcases List.mem_cons.mp hm with rfl | hm
    · cases hstep : m.step with
      | tick dt => rw [hstep] at hbrings; cases hbrings
      | event e => rw [hstep] at hspan; cases hspan
    · rw [(hbetween m hm).2] at hbrings
      cases hbrings
  obtain ⟨rest, -, rfl⟩ := Since.of_append hnobody hs
  exact hready x.now ⟨between, rest, x, rfl, ⟨by omega, rfl⟩, fun m hm =>
    Nat.not_lt.mpr (Nat.le_of_eq (hbetween m hm).1)⟩

end Story

namespace Simulation

variable {s s' : Simulation} {p : UInt8}

open Story

/-! ## The story of a run -/

/-- How many bullets of a player come in a step. -/
def bullets (s : Simulation) (p : UInt8) : Step → Nat
  | .event e => (s.world.newBullets (s.handle e).world p).length
  | .tick dt =>
    -- whoever comes does so before the collisions are settled, and may be gone at the end
    match s.approach dt with
    | .ok m => (s.world.newBullets m.world p).length
    | .error _ => 0

/-- What happens to a player in a run. -/
def story (s : Simulation) (p : UInt8) : List Step → Story
  | [] => []
  | x :: rest =>
    match s.step x with
    | .ok (next, _) => ⟨x, next.clock, s.bullets p x⟩ :: next.story p rest
    | .error _ => []

/-- Events bring no bullets. -/
theorem Settled.bullets_event (hs : Settled s) (e : Event) : s.bullets p (.event e) = 0 := by
  have hnone : s.world.newBullets (s.handle e).world p = [] := by
    rw [List.eq_nil_iff_forall_not_mem]
    intro h hh
    obtain ⟨hdead, hkind, -⟩ := mem_newBullets.mp hh
    rw [hs.get?_handle_of_kind e hkind (by simp), hs.embodied.of_dead hdead] at hkind
    cases hkind
  rw [bullets, hnone]
  rfl

theorem Settled.bullets_tick (hs : Settled s) {dt : Single} {sent : List Dispatch}
    (h : s.tick dt = .ok (s', sent)) : s.bullets p (.tick dt) =
      if (s.world.profile? p).any (Profile.fires s.tuning s'.clock) = true then 1 else 0 := by
  obtain ⟨m, hm, -⟩ := approach_of_tick h
  have hclock : s'.clock = s.clock + dt.toDouble :=
    congrArg Solo.clock (hs.solo_tick (p := p) h).1
  rw [bullets, hm, hclock]
  exact hs.length_newBullets_approach hm p

/-- Whatever event it is, the slot goes on remembering. -/
theorem Settled.recalls_event (hs : Settled s) {past : Story} {m : Moment} {e : Event}
    (h : Recalls s.tuning p past (s.world.profile? p)) (hstep : m.step = .event e)
    (hbullets : m.bullets = 0) :
    Recalls s.tuning p (past ++ [m]) ((s.handle e).world.profile? p) := by
  obtain ⟨x, now, n⟩ := m
  obtain rfl : x = .event e := hstep
  rw [hs.profile?_handle e]
  split
  · rename_i hplayer
    cases e with
    | connected id username =>
      obtain rfl : id = p := hplayer
      have hbrings : Step.brings id (.event (.connected id username)) = true := decide_eq_true rfl
      exact recalls_come (m := ⟨_, _, _⟩) hbrings username
    | udpReady id endpoint =>
      exact h.still ⟨rfl, rfl, hbullets⟩ rfl (fun _ => ⟨rfl, rfl⟩) fun _ => rfl
    | endpointChanged id endpoint =>
      exact h.still ⟨rfl, rfl, hbullets⟩ rfl (fun _ => ⟨rfl, rfl⟩) fun _ => rfl
    | disconnected id =>
      obtain rfl : id = p := hplayer
      have hturns : Step.turns id (.event (.disconnected id)) = true := decide_eq_true rfl
      exact recalls_go (m := ⟨_, _, _⟩) hturns rfl
    | input id i =>
      obtain rfl : id = p := hplayer
      exact h.input rfl hbullets
  · rename_i hplayer
    -- the event is about somebody else
    have hother : Step.input? p (.event e) = none ∧ Step.turns p (.event e) = false := by
      cases e with
      | connected id username => exact ⟨rfl, decide_eq_false hplayer⟩
      | disconnected id => exact ⟨rfl, decide_eq_false hplayer⟩
      | input id i => exact ⟨if_neg hplayer, rfl⟩
      | udpReady id endpoint => exact ⟨rfl, rfl⟩
      | endpointChanged id endpoint => exact ⟨rfl, rfl⟩
    have hsame := h.still (m := ⟨.event e, now, n⟩) (g := id) ⟨hother.1, rfl, hbullets⟩ hother.2
      (fun _ => ⟨rfl, rfl⟩) fun _ => rfl
    rwa [Option.map_id] at hsame

/-- **One step.** The slot goes on remembering, and the player fires when the story says so. -/
theorem Settled.recalls_step (hs : Settled s) {past : Story} {x : Step} {sent : List Dispatch}
    (h : Recalls s.tuning p past (s.world.profile? p)) (hx : s.step x = .ok (s', sent)) :
    Recalls s.tuning p (past ++ [⟨x, s'.clock, s.bullets p x⟩]) (s'.world.profile? p) ∧
      FiresByHistory s.tuning p past ⟨x, s'.clock, s.bullets p x⟩ := by
  cases x with
  | tick dt =>
    have hsolo := (hs.solo_tick (p := p) hx).1
    have hclock : s'.clock = s.clock + dt.toDouble := congrArg Solo.clock hsolo
    have hprofile : s'.world.profile? p = (s.world.profile? p).map fun f =>
        (f.steered s.tuning s'.clock).moved s.tuning dt := by
      rw [hclock]
      exact congrArg Solo.profile hsolo
    have hbullets := hs.bullets_tick (p := p) hx
    rw [hprofile]
    exact ⟨h.tick rfl hbullets, h.firesByHistory rfl hbullets⟩
  | event e =>
    obtain ⟨rfl, -⟩ := Prod.mk.inj (Except.ok.inj hx)
    have hnone := hs.bullets_event (p := p) e
    exact ⟨hs.recalls_event h rfl hnone, firesByHistory_of_span rfl hnone⟩

/-! ## Whole runs -/

theorem story_cons {x : Step} {rest : List Step} {sent : List Dispatch}
    (hx : s.step x = .ok (s', sent)) :
    s.story p (x :: rest) = ⟨x, s'.clock, s.bullets p x⟩ :: s'.story p rest := by
  rw [story, hx]

/-- **A run.** The slot remembers to the end, and the player fires as the story says. -/
theorem Settled.recalls_run {steps : List Step} : ∀ {s : Simulation} {past : Story} {o : Outcome},
    Settled s → Recalls s.tuning p past (s.world.profile? p) → s.run steps = .ok o →
      (s.story p steps).map Moment.step = steps ∧
      (∀ before m later, s.story p steps = before ++ m :: later →
        FiresByHistory s.tuning p (past ++ before) m) ∧
      Recalls s.tuning p (past ++ s.story p steps) (o.simulation.world.profile? p) := by
  -- on the steps, with the story so far in front; the invariant is that slots remember this story
  induction steps with
  | nil =>
    intro s past o hs h hrun
    cases hrun
    refine ⟨rfl, fun before m later heq => absurd heq.symm (by simp [story]), ?_⟩
    rwa [story, List.append_nil]
  | cons x steps ih =>
    intro s past o hs h hrun
    obtain ⟨next, sent, o', hx, hrest, rfl⟩ := run_cons hrun
    obtain ⟨hnext, hfires⟩ := hs.recalls_step h hx
    -- the tuning stays as it is, so the history is read by the same rules throughout
    have htuning : next.tuning = s.tuning := (hs.solo_step (p := p) hx).2
    rw [← htuning] at hnext
    obtain ⟨hsteps, hlater, hend⟩ := ih (hs.step hx) hnext hrest
    rw [htuning] at hlater hend
    rw [story_cons hx]
    refine ⟨congrArg (x :: ·) hsteps, fun before m later heq => ?_, ?_⟩
    · cases before with
      | nil =>
        obtain ⟨rfl, -⟩ := List.cons.inj heq
        rwa [List.append_nil]
      | cons first before =>
        obtain ⟨rfl, htail⟩ := List.cons.inj heq
        rw [List.append_cons]
        exact hlater before m later htail
    · rw [List.append_cons]
      exact hend

/-- Every input has been obeyed: none waits, and the player's avatar flies where the latest one says that has
come since the player came. -/
structure Obeyed (t : Tuning) (p : UInt8) (story : Story) (w : World) : Prop where
  pending : ∀ q slot, w.players.get? q = some slot → slot.pending = none
  velocity : ∀ slot, w.players.get? p = some slot → ∃ avatar since, slot.entity = some avatar ∧
    Stays p story since ∧ FliesAsTold t p since (w.registry.get? .velocity avatar)

/-- After a step of time every input has been obeyed. -/
theorem Settled.obeyed_tick (hs : Settled s) {dt : Single} {sent : List Dispatch}
    (htick : s.tick dt = .ok (s', sent)) {t : Tuning} {story : Story}
    (h : Recalls t p story (s'.world.profile? p)) : Obeyed t p story s'.world := by
  have hb := (hs.tick htick).bound
  have hpending : ∀ q slot, s'.world.players.get? q = some slot → slot.pending = none := by
    intro q slot hslot
    obtain ⟨avatar, hent, -⟩ := hb.of_slot hslot (by simp)
    have hprofile := congrArg Solo.profile (hs.solo_tick (p := q) htick).1
    obtain ⟨f, -, hf⟩ := Option.map_eq_some_iff.mp
      (hprofile.symm.trans (profile?_of_slot hslot hent))
    have hnone := pending_steered_moved s.tuning (s.clock + dt.toDouble) dt f
    exact congrArg (fun f => f.slot.pending) hf ▸ hnone
  refine ⟨hpending, fun slot hslot => ?_⟩
  obtain ⟨avatar, hent, -⟩ := hb.of_slot hslot (by simp)
  obtain ⟨since, hstays, hknows⟩ := h.of_some _ (profile?_of_slot hslot hent)
  exact ⟨avatar, since, hent, hstays, hknows.velocity (hpending p slot hslot)⟩

/-- **The cadence of fire.** Whatever players do, the story of a player has all the steps of the run, and at
every moment the player fires just as the past tells: one bullet, in a step of time, if the latest input
holds the trigger and the wait is over. Between any two bullets in a row the wait is over, unless the player
has come anew. And after a step of time every input has been obeyed. -/
theorem run_firesByHistory {settings : Settings} {entropy : Generator} {steps : List Step}
    {o : Outcome}
    (h : (start settings entropy).run steps = .ok o) (p : UInt8) :
    ((start settings entropy).story p steps).map Moment.step = steps ∧
    (∀ past m later, (start settings entropy).story p steps = past ++ m :: later →
      FiresByHistory settings.game p past m) ∧
    (∀ past x between y later,
      (start settings entropy).story p steps = past ++ x :: (between ++ y :: later) →
      x.bullets = 1 → y.bullets = 1 →
      (∀ m ∈ between, m.bullets = 0 ∧ m.step.brings p = false) →
      settings.game.shootCooldown.toDouble ≤ y.now - x.now + timeSlack) ∧
    ∀ earlier dt, steps = earlier ++ [.tick dt] →
      Obeyed settings.game p ((start settings entropy).story p steps) o.simulation.world := by
  have hs := (sound_start settings entropy).toSettled
  obtain ⟨hsteps, hfires, hend⟩ := hs.recalls_run (p := p) recalls_nil h
  refine ⟨hsteps, hfires, fun past x between y later heq hx hy hbetween => ?_,
    fun earlier dt heq => ?_⟩
  · -- the second bullet is told from a history that has the first one in it
    refine spaced (hfires past x _ heq) (hfires (past ++ x :: between) y later ?_) hx hy hbetween
    rw [heq, List.append_assoc, List.cons_append]
  · -- the last step is split off, since the velocity is that of the world it leaves
    rw [heq] at h
    obtain ⟨o₁, o₂, h₁, h₂, rfl⟩ := run_append h
    obtain ⟨next, sent, o₃, htick, hnil, rfl⟩ := run_cons h₂
    cases hnil
    exact (hs.solo_run (p := p) h₁).1.obeyed_tick htick hend

/-- A player comes and fires, holds the trigger while the wait is not over, and then again when it is. -/
def heldTrigger : List Step := [
  .event (.connected 1 "ace"),
  .event (.input 1 ⟨0, 1, Wire.shootButton, 1, 0⟩),
  .tick ⟨0x3dcccccd⟩,
  .event (.input 1 ⟨1, 1, Wire.shootButton, 1, 0⟩),
  .event (.input 1 ⟨2, 1, Wire.shootButton, 0, 1⟩),
  .tick ⟨0x3dcccccd⟩,
  .event (.input 1 ⟨3, 1, Wire.shootButton, 0, 1⟩),
  .tick ⟨0x40000000⟩]

theorem run_firesByHistory_of_heldTrigger : ∃ o past x between y,
    (start .default (.ofSeed 0)).run heldTrigger = .ok o ∧
    (start .default (.ofSeed 0)).story 1 heldTrigger = past ++ x :: (between ++ [y]) ∧
    FiresByHistory Settings.default.game 1 past x ∧ x.bullets = 1 ∧ y.bullets = 1 ∧
    (∀ m ∈ between, m.bullets = 0 ∧ m.step.brings 1 = false) ∧
    Settings.default.game.shootCooldown.toDouble ≤ y.now - x.now + timeSlack ∧
    Obeyed Settings.default.game 1 ((start .default (.ofSeed 0)).story 1 heldTrigger)
      o.simulation.world := by
  obtain ⟨o, h, -⟩ : ∃ o, (start .default (.ofSeed 0)).run heldTrigger = .ok o ∧ o.ids = 3 :=
    exists_outcome (by decide +kernel)
  obtain ⟨-, hfires, hspaced, hobeyed⟩ := run_firesByHistory h 1
  have hbetween : ∀ m ∈ (((start .default (.ofSeed 0)).story 1 heldTrigger).drop 3).take 4,
      m.bullets = 0 ∧ m.step.brings 1 = false := by decide +kernel
  have hstory : (start .default (.ofSeed 0)).story 1 heldTrigger =
      ((start .default (.ofSeed 0)).story 1 heldTrigger).take 2 ++
        ⟨.tick ⟨0x3dcccccd⟩, ⟨0x3fb99999a0000000⟩, 1⟩ ::
          ((((start .default (.ofSeed 0)).story 1 heldTrigger).drop 3).take 4 ++
            [⟨.tick ⟨0x40000000⟩, ⟨0x400199999a000000⟩, 1⟩]) := by decide +kernel
  exact ⟨o, _, _, _, _, h, hstory, hfires _ _ _ hstory, rfl, rfl, hbetween,
    hspaced _ _ _ _ _ hstory rfl rfl hbetween, hobeyed (heldTrigger.take 7) ⟨0x40000000⟩ rfl⟩

end Simulation

end Skirmish
