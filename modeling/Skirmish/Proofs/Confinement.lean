import Skirmish.Proofs.Comparison
import Skirmish.Proofs.Sweep
/-!
# Players stay in the field

Only motion changes a place, and motion brings an avatar back into the field, wherever it started
and however fast it is (`World.inside_of_move`). Nobody who is reaped later is an avatar, and nothing
else in a step changes a place. So at the end of each step of time every avatar stands inside the
field, as far as its coordinates compare with anything (`Simulation.run_confines`).
-/

namespace Skirmish

namespace World

variable {w w' : World} {t : Tuning} {dt : Single} {h : Handle}

/-- Not beyond any edge of the field. A coordinate that is no number is beyond none. -/
structure Inside (t : Tuning) (p : Vector2) : Prop where
  left : ¬ p.x < .zero
  right : ¬ .zero + t.fieldWidth < p.x
  top : ¬ p.y < .zero
  bottom : ¬ .zero + t.fieldHeight < p.y

theorem inside_of_clamp? {p q : Vector2} (hq : (field t).clamp? p = some q) : Inside t q := by
  obtain ⟨x, hx, hq⟩ := Option.bind_eq_some_iff.mp hq
  obtain ⟨y, hy, hq⟩ := Option.bind_eq_some_iff.mp hq
  obtain rfl := Option.some.inj hq
  have hx := Single.not_lt_of_clamp? hx
  have hy := Single.not_lt_of_clamp? hy
  exact ⟨hx.1, hx.2, hy.1, hy.2⟩

/-! ## Motion -/

/-- Motion gives everything that has a place its next place. -/
theorem get?_position_move (hmove : w.move? t dt = some w') (h : Handle) :
    w'.registry.get? .position h =
      (w.registry.get? .position h).bind (w.nextPosition t dt h) := by
  obtain ⟨positions, hpositions, rfl⟩ := Option.map_eq_some_iff.mp hmove
  rw [Registry.get?_setColumn_self, Column.get?_of_change? hpositions]
  rfl

/-- **Motion leaves in place whatever has no velocity, and touches nothing but places.** -/
theorem move_frame (hmove : w.move? t dt = some w') :
    (∀ c h, c ≠ .position → w'.registry.get? c h = w.registry.get? c h) ∧
    (∀ h, w.registry.get? .position h = none ∨ w.registry.get? .velocity h = none →
      w'.registry.get? .position h = w.registry.get? .position h) ∧
    w'.registry.pool = w.registry.pool ∧ w'.players = w.players ∧
    w'.nextNetworkId = w.nextNetworkId := by
  refine ⟨fun c h hc => get?_move_of_ne hmove (Ne.symm hc) h, fun h hlacks => ?_, ?_⟩
  · rw [get?_position_move hmove]
    rcases hlacks with hnone | hnone
    · rw [hnone]
      rfl
    · cases w.registry.get? .position h with
      | none => rfl
      | some p =>
        rw [Option.bind_some, nextPosition, hnone]
  · obtain ⟨positions, -, rfl⟩ := Option.map_eq_some_iff.mp hmove
    exact ⟨rfl, rfl, rfl⟩

/-- Wherever an avatar was, motion takes it into the field. -/
theorem inside_of_move (he : w.Embodied) (hmove : w.move? t dt = some w')
    (hkind : w.registry.get? .kind h = some .player) {q : Vector2}
    (hq : w'.registry.get? .position h = some q) : Inside t q := by
  obtain ⟨velocity, hvelocity⟩ := he.get?_of_mem (c := .velocity) hkind (by simp [EntityKind.anatomy])
  rw [get?_position_move hmove] at hq
  obtain ⟨p, -, hnext⟩ := Option.bind_eq_some_iff.mp hq
  rw [nextPosition, hvelocity] at hnext
  dsimp only at hnext
  rw [if_pos hkind] at hnext
  exact inside_of_clamp? hnext

end World

namespace Simulation

open World

variable {s s' : Simulation} {dt : Single}

/-- What is there at the end of a step and is not health was there when the collisions began. -/
theorem Settled.get?_of_tick (hs : Settled s) {sent : List Dispatch}
    (h : s.tick dt = .ok (s', sent)) : ∃ w₁ w₂ : World, w₁.Embodied ∧
      w₁.move? s.tuning dt = some w₂ ∧
      ∀ {c : ComponentType} {k : Handle} {v : c.Value}, c ≠ .health → c ≠ .lifetime →
        s'.world.registry.get? c k = some v → w₂.registry.get? c k = some v := by
  obtain ⟨m, hm, -, -, -, he, hworld⟩ := hs.exists_approach h
  obtain ⟨w₁, w₂, out, wave, g, hwave, hmove, hage, -⟩ := approach_stages hm
  have hsteer := steer_evolves hs.embodied hs.bound s.tuning (s.clock + dt.toDouble)
  refine ⟨w₁, w₂, (hsteer.trans (sendWave_evolves hwave)).embodied hs.embodied, hmove, ?_⟩
  intro c k v hhealth hlifetime hv
  rw [hworld, he.get?_reap] at hv
  split at hv
  · cases hv
  · rwa [get?_collide_of_ne _ _ hhealth, hage, get?_age_of_ne _ _ (Ne.symm hlifetime)] at hv

/-- **A step of time leaves every avatar in the field.** -/
theorem Settled.tick_confines (hs : Settled s) {sent : List Dispatch}
    (h : s.tick dt = .ok (s', sent)) {k : Handle}
    (hkind : s'.world.registry.get? .kind k = some .player) :
    ∃ p, s'.world.registry.get? .position k = some p ∧ Inside s.tuning p := by
  obtain ⟨w₁, w₂, he, hmove, hbefore⟩ := hs.get?_of_tick h
  obtain ⟨p, hp⟩ := (hs.tick h).embodied.get?_of_mem (c := .position) hkind
    (by simp [EntityKind.anatomy])
  have hkind' := hbefore (by simp) (by simp) hkind
  rw [get?_move_of_ne hmove (by simp)] at hkind'
  exact ⟨p, hp, inside_of_move he hmove hkind' (hbefore (by simp) (by simp) hp)⟩

/-- The rules of the game stay. -/
theorem tuning_step {x : Step} {sent : List Dispatch} (h : s.step x = .ok (s', sent)) :
    s'.tuning = s.tuning := by
  cases x with
  | event e =>
    obtain ⟨_, _, _, hkeeps⟩ := s.handle_keeps e
    obtain ⟨rfl, -⟩ := Prod.mk.inj (Except.ok.inj h)
    rw [hkeeps]
  | tick dt =>
    obtain ⟨_, _, _, _, _, -, -, -, htuning, -⟩ := tick_stages h
    exact htuning

theorem tuning_run {steps : List Step} {o : Outcome} (h : s.run steps = .ok o) :
    o.simulation.tuning = s.tuning :=
  run_invariant (P := fun _ s' => s'.tuning = s.tuning)
    (fun hs _ hstep => (tuning_step hstep).trans hs) rfl (Nat.lt_succ_self (0 + o.ids)) h

/-- **Players stay in the field.** However a run goes, after each step of time everyone who is the
avatar of a player, by kind or because a slot points there, has a place that is beyond no edge of the
field; and motion as such leaves in place what has no place or no velocity, and touches nothing but
places. -/
theorem run_confines :
    (∀ (settings : Settings) (entropy : Generator) (steps : List Step) (o : Outcome) (dt : Single)
      (next : Simulation) (sent : List Dispatch),
      (start settings entropy).run steps = .ok o → o.simulation.tick dt = .ok (next, sent) →
      ∀ h, (next.world.registry.get? .kind h = some .player ∨
          ∃ id, next.world.playerEntity? id = some h) →
        ∃ p, next.world.registry.get? .position h = some p ∧ Inside settings.game p) ∧
    ∀ (w w' : World) (t : Tuning) (dt : Single), w.move? t dt = some w' →
      (∀ c h, c ≠ .position → w'.registry.get? c h = w.registry.get? c h) ∧
      (∀ h, w.registry.get? .position h = none ∨ w.registry.get? .velocity h = none →
        w'.registry.get? .position h = w.registry.get? .position h) ∧
      w'.registry.pool = w.registry.pool ∧ w'.players = w.players ∧
      w'.nextNetworkId = w.nextNetworkId := by
  refine ⟨?_, fun w w' t dt hmove => move_frame hmove⟩
  intro settings entropy steps o dt next sent hrun htick h havatar
  have hs : Settled o.simulation := (sound_start settings entropy).toSettled.run hrun
  have hnext := hs.tick htick
  have htuning : o.simulation.tuning = settings.game := tuning_run hrun
  rw [← htuning]
  rcases havatar with hkind | ⟨id, hentity⟩
  · exact hs.tick_confines htick hkind
  · -- whoever a slot points to is of the kind of a player
    have hslot := (Option.filter_eq_some_iff.mp hentity).1
    obtain ⟨slot, hslot, -⟩ := Option.bind_eq_some_iff.mp hslot
    obtain ⟨k, -, hk, hkind⟩ := playerEntity?_of_slot hnext.embodied hnext.bound hslot
    obtain rfl := Option.some.inj (hentity.symm.trans hk)
    exact hs.tick_confines htick hkind

/-- Rules under which players start far outside the field and are infinitely fast. -/
def infiniteSpeed : Settings :=
  { Settings.default with
    game := { Tuning.default with
      player := { PlayerTuning.default with
        speed := ⟨0x7f800000⟩
        spawnX := ⟨0x7f800000⟩
        spawnY := .ofInt (-5000) } } }

/-- A player comes and steers to the right. -/
def steerRight : List Step := [
  .event (.connected 1 "ace"),
  .event (.input 1 ⟨0x3f800000, 0, 0, 1, 0⟩)]

/-- The avatar is held at the right edge. Its other coordinate is lost, since an infinite speed times
no steering is no number. -/
theorem run_confines_of_steerRight : ∃ o next sent w p,
    (start infiniteSpeed (.ofSeed 0)).run steerRight = .ok o ∧
    o.simulation.tick ⟨0x3c888889⟩ = .ok (next, sent) ∧
    next.world.registry.get? .kind ⟨0⟩ = some .player ∧
    next.world.registry.get? .position ⟨0⟩ = some p ∧ Inside infiniteSpeed.game p ∧
    p = ⟨.ofNat 800, .invalid⟩ ∧
    o.simulation.world.move? infiniteSpeed.game ⟨0x3c888889⟩ = some w ∧
    w.registry.get? .velocity ⟨0⟩ = o.simulation.world.registry.get? .velocity ⟨0⟩ := by
  -- an infinite speed leads to a position that is no number, in a direction nobody steered in
  have hends : ((start infiniteSpeed (.ofSeed 0)).run steerRight).toOption.any (fun o =>
      (o.simulation.tick ⟨0x3c888889⟩).toOption.any (fun p =>
        p.1.world.registry.get? .kind ⟨0⟩ = some .player &&
          p.1.world.registry.get? .position ⟨0⟩ = some ⟨.ofNat 800, .invalid⟩) &&
      (o.simulation.world.move? infiniteSpeed.game ⟨0x3c888889⟩).isSome) = true := by decide +kernel
  obtain ⟨o, ho, hends⟩ := (Option.any_eq_true _ _).mp hends
  obtain ⟨hends, hmove⟩ := Bool.and_eq_true_iff.mp hends
  obtain ⟨w, hw⟩ := Option.isSome_iff_exists.mp hmove
  obtain ⟨⟨next, sent⟩, htick, hends⟩ := (Option.any_eq_true _ _).mp hends
  rw [Bool.and_eq_true, decide_eq_true_eq, decide_eq_true_eq] at hends
  obtain ⟨hkind, hposition⟩ := hends
  have hrun := eq_ok_of_toOption ho
  have htick := eq_ok_of_toOption htick
  obtain ⟨p, hp, hinside⟩ :=
    run_confines.1 infiniteSpeed (.ofSeed 0) steerRight o _ next sent hrun htick ⟨0⟩ (.inl hkind)
  have hframe :=
    (run_confines.2 o.simulation.world w infiniteSpeed.game _ hw).1 .velocity ⟨0⟩ (by decide)
  exact ⟨o, next, sent, w, p, hrun, htick, hkind, hp, hinside,
    Option.some.inj (hp.symm.trans hposition), hw, hframe⟩

end Simulation

end Skirmish
