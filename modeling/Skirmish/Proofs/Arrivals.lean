import Skirmish.Proofs.Isolation
/-!
# The wave takes no notice of the players

When the next enemy comes, and where, is decided by the settings, the random source and time. After
every step of time the phase of the wave is how it stands, where the random source has got to and
how the enemies were who came (`Simulation.wavePhases`). The enemies are looked for in the worlds
that the run goes through; a machine that has no world (`Wave.phases`) says the same
(`Settled.wavePhases_eq`), so what players do makes no difference.

Nobody else brings enemies: avatars and bullets are born as something else, and nobody turns into an
enemy (`Settled.enemy_of_handle`, `enemy_of_steerPlayers`, `enemy_of_rest`).
-/

namespace Skirmish

open World

/-! ## Enemies who come -/

/-- How an entity is: where, how fast, how large and how well. -/
structure Condition where
  position : Option Vector2
  velocity : Option Vector2
  shape : Option Drawable
  health : Option Health
deriving DecidableEq

/-- An enemy who comes at this height. -/
def newcomer (t : Tuning) (y : Single) : Condition where
  position := some ⟨t.enemy.spawnX, y⟩
  velocity := some ⟨-t.enemy.speed, .zero⟩
  shape := some ⟨t.enemy.width, t.enemy.height, enemyColor⟩
  health := some (.full t.enemy.health)

namespace World

variable {w w' : World}

def condition (w : World) (h : Handle) : Condition where
  position := w.registry.get? .position h
  velocity := w.registry.get? .velocity h
  shape := w.registry.get? .drawable h
  health := w.registry.get? .health h

/-- The enemies of the second world who were no enemies in the first, ascending by handle. -/
def newcomers (w w' : World) : List Handle :=
  (w'.ofKind .enemy).filter fun h => w.registry.get? .kind h ≠ some .enemy

/-- How the enemies are who are new in the second world. -/
def arrivals (w w' : World) : List Condition := (w.newcomers w').map w'.condition

theorem mem_newcomers {h : Handle} : h ∈ w.newcomers w' ↔
    w'.registry.get? .kind h = some .enemy ∧ w.registry.get? .kind h ≠ some .enemy := by
  rw [newcomers, List.mem_filter, mem_ofKind, decide_eq_true_eq]

theorem newcomers_nodup : (w.newcomers w').Nodup :=
  (w'.ofKind_nodup _).sublist List.filter_sublist

/-- If nobody turns into an enemy, no enemy comes. -/
theorem arrivals_of_enemy
    (h : ∀ k, w'.registry.get? .kind k = some .enemy → w.registry.get? .kind k = some .enemy) :
    w.arrivals w' = [] := by
  have hnone : w.newcomers w' = [] := by
    rw [List.eq_nil_iff_forall_not_mem]
    intro k hk
    obtain ⟨henemy, hno⟩ := mem_newcomers.mp hk
    exact hno (h k henemy)
  rw [arrivals, hnone]
  rfl

/-- If one entity turns into an enemy, or one enemy is born, and nobody else, that one comes. -/
theorem arrivals_of_one {n : Handle} (hnew : w'.registry.get? .kind n = some .enemy)
    (hbefore : w.registry.get? .kind n ≠ some .enemy)
    (h : ∀ k, w'.registry.get? .kind k = some .enemy → k = n ∨ w.registry.get? .kind k = some .enemy) :
    w.arrivals w' = [w'.condition n] := by
  have hone : w.newcomers w' = [n] := by
    refine List.perm_singleton.mp ((List.perm_ext_iff_of_nodup newcomers_nodup (by simp)).mpr ?_)
    intro k
    rw [mem_newcomers, List.mem_singleton]
    constructor
    · rintro ⟨henemy, hno⟩
      exact (h k henemy).resolve_right hno
    · rintro rfl
      exact ⟨hnew, hbefore⟩
  rw [arrivals, hone]
  rfl

/-- If nobody but the newborn turns into an enemy while a world evolves, the newborn comes. -/
theorem arrivals_of_birth {births : Nat} {dispatches : List Dispatch} (he : w.Embodied)
    (hev : Evolves w dispatches births w')
    (h : ∀ k, w'.registry.get? .kind k = some .enemy → w.registry.get? .kind k = some .enemy)
    (t : Tuning) (y : Single) :
    w.arrivals (w'.summon (enemyParts t y)).2 = [newcomer t y] := by
  have he' := hev.embodied he
  have hcomplete := complete_enemy t y
  have hnew := he'.get?_newborn (enemyParts t y)
  -- the handle of the newborn was nobody's, also before the world evolved
  have hdead : w.registry.isAlive w'.registry.spawn.1 = false := by
    rw [← Bool.not_eq_true]
    intro ha
    have hstays := (hev.keeps (q := 0) he ha).1
    rw [Registry.isAlive_spawn_fst he'.pool] at hstays
    cases hstays
  have hone : w.arrivals (w'.summon (enemyParts t y)).2 =
      [(w'.summon (enemyParts t y)).2.condition w'.registry.spawn.1] := by
    refine arrivals_of_one ((hnew .kind).trans (hcomplete.kind _)) ?_ fun k hk => ?_
    · rw [he.of_dead hdead]
      simp
    · rcases get?_summon_cases hk with rfl | ⟨-, hold⟩
      · exact .inl rfl
      · exact .inr (h k hold)
  rw [hone, condition, hnew, hnew, hnew, hnew]
  rfl

/-! ## Nobody else brings enemies -/

/-- An entity is born that is no enemy. -/
theorem enemy_of_summon (he : w.Embodied) {k : EntityKind} {parts : List Part}
    (hp : Complete k parts) (hk : k ≠ .enemy) {h : Handle}
    (henemy : (w.summon parts).2.registry.get? .kind h = some .enemy) :
    w.registry.get? .kind h = some .enemy := by
  rcases get?_summon_cases henemy with rfl | ⟨-, hold⟩
  · rw [he.get?_newborn, hp.kind, Option.some.injEq] at henemy
    exact absurd henemy hk
  · exact hold

theorem enemy_of_steerPlayer (he : w.Embodied) (hb : w.Bound none) (t : Tuning) (now : Double)
    (endpoints : List Endpoint) (id : UInt8) {h : Handle}
    (henemy : (w.steerPlayer t now endpoints id).1.registry.get? .kind h = some .enemy) :
    w.registry.get? .kind h = some .enemy := by
  rcases steerPlayer_cases he hb t now endpoints id with
    ⟨-, heq⟩ | ⟨slot, i, avatar, origin, -, -, -, hkind, -, heq⟩
  · rw [heq] at henemy
    exact henemy
  · have hvel := (he.isSome_iff hkind .velocity).mpr (by simp [EntityKind.anatomy])
    have hturn := w.quiet_turned id hvel (steeredVelocity t i)
    rw [heq] at henemy
    split at henemy
    · -- a bullet is born, in a world that is otherwise as it was
      have hq := hturn.trans ((w.turned id avatar (steeredVelocity t i)).quiet_reloading now id)
      rw [fire_fst] at henemy
      have hold := enemy_of_summon (he.of_kept hq.kept) (complete_bullet t id origin) (by simp) henemy
      rwa [hq.kept.kind] at hold
    · rwa [hturn.kept.kind] at henemy

theorem enemy_of_steerPlayers (t : Tuning) (now : Double) {h : Handle} (ids : List UInt8) :
    ∀ {w : World}, w.Embodied → w.Bound none →
      (steerPlayers t now w.endpoints ids w).1.registry.get? .kind h = some .enemy →
        w.registry.get? .kind h = some .enemy := by
  induction ids with
  | nil => exact fun _ _ => id
  | cons id rest ih =>
    intro w he hb henemy
    have hfirst := steerPlayer_evolves he hb t now id
    have hmore := ih (hfirst.embodied he) (hfirst.bound he hb)
    rw [endpoints_congr hfirst.roll] at hmore
    exact enemy_of_steerPlayer he hb t now w.endpoints id (hmore henemy)

end World

namespace Simulation

variable {s s' : Simulation}

/-- Whoever comes or goes, those who are no avatars afterwards were there before, and nothing has happened
to them. -/
theorem Settled.get?_handle_of_kind (hs : Settled s) (e : Event) {h : Handle} {k : EntityKind}
    (hkind : (s.handle e).world.registry.get? .kind h = some k) (hk : k ≠ .player)
    (c : ComponentType) :
    (s.handle e).world.registry.get? c h = s.world.registry.get? c h := by
  -- an end only takes entities away, so whoever has a kind afterwards has kept everything
  have hevict : ∀ {ps : SortedMap UInt8 Slot} {gone : Handle},
      (s.world.evict ps gone).1.registry.get? .kind h = some k →
        (s.world.evict ps gone).1.registry.get? c h = s.world.registry.get? c h := by
    intro ps gone hkind
    rw [hs.embodied.get?_evict] at hkind ⊢
    split at hkind
    · cases hkind
    · rename_i hne
      rw [if_neg hne]
  -- whoever is born is an avatar
  have hbirth : ∀ {w : World} {id : UInt8}, w.Embodied →
      (w.summon (avatarParts s.tuning id)).2.registry.get? .kind h = some k →
        w.registry.spawn.1 ≠ h := by
    rintro w id he hkind rfl
    rw [he.get?_newborn, (complete_avatar s.tuning id).kind, Option.some.injEq] at hkind
    exact hk hkind.symm
  cases e with
  | connected id username =>
    show (s.connect id username).world.registry.get? c h = _
    have hkind : (s.connect id username).world.registry.get? .kind h = some k := hkind
    -- an event adds an avatar, takes one away, or both; the other entities keep all they have
    rcases connect_cases hs.embodied hs.bound hs.condemned id username with
      ⟨-, heq⟩ | ⟨slot, gone, hslot, hent, heq⟩
    · rw [heq, registry_spawnPlayer] at hkind ⊢
      exact get?_summon_of_ne _ c (hbirth hs.embodied hkind)
    · obtain ⟨he, -⟩ := hs.evict hslot hent fun _ _ => rfl
      rw [heq, registry_spawnPlayer] at hkind ⊢
      have hne := hbirth he hkind
      rw [get?_summon_of_ne _ _ hne] at hkind
      exact (get?_summon_of_ne _ c hne).trans (hevict hkind)
  | udpReady id endpoint =>
    show (s.welcome id endpoint).world.registry.get? c h = _
    cases hslot : s.world.players.get? id with
    | none => rw [welcome_of_none hslot]
    | some slot =>
      rw [welcome_of_some hslot]
      rfl
  | endpointChanged id endpoint => rfl
  | disconnected id =>
    show (s.disconnect id).world.registry.get? c h = _
    have hkind : (s.disconnect id).world.registry.get? .kind h = some k := hkind
    rcases disconnect_cases hs.bound hs.condemned id with ⟨-, heq⟩ | ⟨slot, gone, -, -, heq⟩
    · rw [heq]
    · rw [heq] at hkind ⊢
      exact hevict hkind
  | input id i => rfl

/-- Whoever comes or goes, nobody turns into an enemy. -/
theorem Settled.enemy_of_handle (hs : Settled s) (e : Event) {h : Handle}
    (henemy : (s.handle e).world.registry.get? .kind h = some .enemy) :
    s.world.registry.get? .kind h = some .enemy := by
  rw [← hs.get?_handle_of_kind e henemy (by simp)]
  exact henemy

/-- What the wave does, and the rest of a step of time after it. -/
theorem tick_sweeps {dt : Single} {sent : List Dispatch} (h : s.tick dt = .ok (s', sent)) :
    ∃ swept w, (s.passTime dt).steer.sendWave dt = .ok swept ∧
      swept.world.move? swept.tuning dt = some w ∧
      s'.wave = swept.wave ∧ s'.generator = swept.generator ∧ s'.tuning = swept.tuning ∧
      ∃ condemned, s'.world = (((w.age dt).collide swept.tuning).1.reap condemned).1 := by
  obtain ⟨m, hm, hend⟩ := approach_of_tick h
  obtain ⟨swept, w, hswept, hmove, rfl⟩ := approach_cases hm
  obtain ⟨rest, hpub⟩ := publish_eq _ dt
  rw [hpub] at hend
  obtain ⟨rfl, -⟩ := Prod.mk.inj hend
  exact ⟨swept, w, hswept, hmove, rfl, rfl, rfl, _, rfl⟩

/-- The wave goes on by itself. If it brings an enemy, that is the only one who is born. -/
theorem sendWave_eq {dt : Single} {swept : Simulation} (h : s.sendWave dt = .ok swept) :
    ∃ place, s.wave.advance s.tuning s.generator dt = .ok (place, swept.wave, swept.generator) ∧
      swept.tuning = s.tuning ∧
      swept.world = match place with
        | some y => (s.world.summon (enemyParts s.tuning y)).2
        | none => s.world := by
  unfold Simulation.sendWave World.sendWave at h
  cases hadv : s.wave.advance s.tuning s.generator dt with
  | error cause =>
    rw [hadv] at h
    cases h
  | ok r =>
    obtain ⟨place, wave, g⟩ := r
    rw [hadv] at h
    simp only [Except.map, Except.ok.injEq] at h
    subst h
    refine ⟨place, rfl, rfl, ?_⟩
    cases place with
    | none => rfl
    | some y => simp only [say, receiveEnemy_eq]

/-- After the wave, nobody turns into an enemy any more. -/
theorem enemy_of_rest {w w' : World} (he : w.Embodied) {t t' : Tuning} {dt : Single}
    (hmove : w.move? t dt = some w') {condemned : HandleSet} {h : Handle}
    (henemy : (((w'.age dt).collide t').1.reap condemned).1.registry.get? .kind h = some .enemy) :
    w.registry.get? .kind h = some .enemy := by
  have hq := ((move_quiet hmove).trans (w'.age_quiet dt)).trans ((w'.age dt).collide_quiet t')
  rw [(he.of_kept hq.kept).get?_reap] at henemy
  split at henemy
  · cases henemy
  · rwa [hq.kept.kind] at henemy

end Simulation

/-! ## Phases of the wave -/

/-- How things stand with the wave after a step of time. -/
structure WavePhase where
  wave : Wave
  generator : Generator
  /-- How the enemies were who have come since the step of time before, when they came. -/
  arrivals : List Condition

/-- The phases of a wave in no world at all, when time passes by these spans. -/
def Wave.phases (t : Tuning) (wave : Wave) (g : Generator) : List Single → List WavePhase
  | [] => []
  | dt :: rest =>
    match wave.advance t g dt with
    | .ok (place, wave, g) =>
      ⟨wave, g, place.toList.map (newcomer t)⟩ :: Wave.phases t wave g rest
    | .error _ => []

/-- How much time passes in a step. -/
def Step.span? : Step → Option Single
  | .event _ => none
  | .tick dt => some dt

namespace Simulation

variable {s s' : Simulation}

/-- The phases of the wave in a run, one for each step of time, if these enemies have come since the
last one. An event may bring enemies, and a step of time when the wave goes on or afterwards. -/
def wavePhases (s : Simulation) (come : List Condition) : List Step → List WavePhase
  | [] => []
  | .event e :: rest =>
    (s.handle e).wavePhases (come ++ s.world.arrivals (s.handle e).world) rest
  | .tick dt :: rest =>
    match (s.passTime dt).steer.sendWave dt, s.tick dt with
    | .ok swept, .ok (next, _) =>
      ⟨next.wave, next.generator,
        come ++ s.world.arrivals swept.world ++ swept.world.arrivals next.world⟩ ::
          next.wavePhases [] rest
    | _, _ => []

/-- The enemies who come in a step of time are those whom the wave brings. -/
theorem Settled.arrivals_tick (hs : Settled s) {dt : Single} {sent : List Dispatch}
    (h : s.tick dt = .ok (s', sent)) : ∃ swept place,
      (s.passTime dt).steer.sendWave dt = .ok swept ∧
      s.wave.advance s.tuning s.generator dt = .ok (place, s'.wave, s'.generator) ∧
      s'.tuning = s.tuning ∧
      s.world.arrivals swept.world ++ swept.world.arrivals s'.world =
        place.toList.map (newcomer s.tuning) := by
  -- nobody turns into an enemy in the passes before the wave and in those after it
  obtain ⟨swept, w, hswept, hmove, hwave, hgenerator, htuning, condemned, hworld⟩ := tick_sweeps h
  obtain ⟨place, hadvance, htuning', hbirth⟩ := sendWave_eq hswept
  have hev := steer_evolves hs.embodied hs.bound s.tuning (s.clock + dt.toDouble)
  have hsteer : ∀ k,
      (s.world.steer s.tuning (s.clock + dt.toDouble)).1.registry.get? .kind k = some .enemy →
        s.world.registry.get? .kind k = some .enemy := fun k =>
    enemy_of_steerPlayers s.tuning (s.clock + dt.toDouble) s.world.players.keys hs.embodied hs.bound
  have hsteered : (s.passTime dt).steer.world =
      (s.world.steer s.tuning (s.clock + dt.toDouble)).1 := rfl
  have hkept : (s.passTime dt).steer.tuning = s.tuning := rfl
  rw [hsteered, hkept] at hbirth
  -- what the steering passes have done is forgotten, but for the three facts that are known of it
  generalize (s.world.steer s.tuning (s.clock + dt.toDouble)).1 = steered at hev hsteer hbirth
  have he : steered.Embodied := hev.embodied hs.embodied
  refine ⟨swept, place, hswept, ?_, htuning.trans htuning', ?_⟩
  · rw [hwave, hgenerator]
    exact hadvance
  · have hembodied : swept.world.Embodied := by
      rw [hbirth]
      cases place with
      | none => exact he
      | some y => exact he.summon (complete_enemy s.tuning y)
    have hrest : swept.world.arrivals s'.world = [] := by
      rw [hworld]
      exact arrivals_of_enemy fun k => enemy_of_rest hembodied hmove
    -- if the wave sends somebody, that is the only enemy who is new
    rw [hrest, List.append_nil, hbirth]
    cases place with
    | none => exact arrivals_of_enemy hsteer
    | some y => exact arrivals_of_birth hs.embodied hev hsteer s.tuning y

/-- **The phases in a run are those of the wave alone.** -/
theorem Settled.wavePhases_eq {steps : List Step} : ∀ {s : Simulation} {o : Outcome}, Settled s →
    s.run steps = .ok o →
      s.wavePhases [] steps =
        Wave.phases s.tuning s.wave s.generator (steps.filterMap Step.span?) := by
  -- on the steps; only a step of time moves the machine on, so events are dropped on the other side
  induction steps with
  | nil => exact fun _ _ => rfl
  | cons x rest ih =>
    intro s o hs h
    obtain ⟨next, sent, o', hx, hrest, -⟩ := run_cons h
    cases x with
    | event e =>
      obtain ⟨rfl, rfl⟩ := Prod.mk.inj (Except.ok.inj hx)
      obtain ⟨_, _, _, hkeeps⟩ := s.handle_keeps e
      -- an event brings no enemy, so the phase of the next step of time begins with nobody
      have hnobody : s.world.arrivals (s.handle e).world = [] :=
        arrivals_of_enemy fun k => hs.enemy_of_handle e
      have hmore := ih (hs.handle e) hrest
      rw [wavePhases, hnobody, List.append_nil, hmore, hkeeps]
      rfl
    | tick dt =>
      obtain ⟨swept, place, hswept, hadvance, htuning, harrivals⟩ := hs.arrivals_tick hx
      have hmore := ih (hs.tick hx) hrest
      have hspans : (Step.tick dt :: rest).filterMap Step.span? =
          dt :: rest.filterMap Step.span? := rfl
      have hx : s.tick dt = .ok (next, sent) := hx
      rw [hspans]
      simp only [wavePhases, hswept, hx, Wave.phases, hadvance]
      rw [List.nil_append, harrivals, hmore, htuning]

/-- **Players make no difference to the wave.** Take two new games with the same settings, which
name a seed, and a run of each in which time passes by the same spans; what the players do may be
anything. Then the phases are the same: after every step of time the wave stands the same and the
random source has got equally far, the same number of enemies has come in the step, and each enemy
of the one run has come at the same place as the corresponding enemy of the other, with the same
velocity, shape and health. -/
theorem run_wavePhases {settings : Settings} {seed : UInt64} {entropy entropy' : Generator}
    {steps steps' : List Step} {o o' : Outcome} (hseed : settings.game.seed = some seed)
    (h : (start settings entropy).run steps = .ok o)
    (h' : (start settings entropy').run steps' = .ok o')
    (htime : steps'.filterMap Step.span? = steps.filterMap Step.span?) :
    (start settings entropy').wavePhases [] steps' = (start settings entropy).wavePhases [] steps := by
  have hgenerator : (start settings entropy').generator = (start settings entropy).generator := by
    simp only [start, hseed]
  rw [(sound_start settings entropy).toSettled.wavePhases_eq h,
    (sound_start settings entropy').toSettled.wavePhases_eq h', htime, hgenerator]
  rfl

/-- Six seconds go by in a field without players. -/
def ticksOnly : List Step := [.tick ⟨0x3f800000⟩, .tick ⟨0x40a00000⟩]

/-- The same six seconds with players who come, fire and go. -/
def ticksWithPlayers : List Step := [
  .event (.connected 1 "ace"),
  .event (.udpReady 1 ⟨.v4 (.replicate 4 10), 7001⟩),
  .event (.input 1 ⟨0, 1, Wire.shootButton, 1, 0⟩),
  .tick ⟨0x3f800000⟩,
  .event (.connected 2 "bo"),
  .event (.input 2 ⟨0, 2, Wire.shootButton, 0, 1⟩),
  .event (.disconnected 1),
  .tick ⟨0x40a00000⟩]

theorem run_wavePhases_of_ticksWithPlayers : ∃ o o',
    (Settings.default.reseeded (some 7)).game.seed = some 7 ∧
    (start (Settings.default.reseeded (some 7)) (.ofSeed 0)).run ticksOnly = .ok o ∧
    (start (Settings.default.reseeded (some 7)) (.ofSeed 1)).run ticksWithPlayers = .ok o' ∧
    ticksWithPlayers.filterMap Step.span? = ticksOnly.filterMap Step.span? ∧
    ((start (Settings.default.reseeded (some 7)) (.ofSeed 0)).wavePhases [] ticksOnly).map
      (·.arrivals.length) = [0, 1] ∧
    (start (Settings.default.reseeded (some 7)) (.ofSeed 1)).wavePhases [] ticksWithPlayers =
      (start (Settings.default.reseeded (some 7)) (.ofSeed 0)).wavePhases [] ticksOnly := by
  obtain ⟨o, h, -⟩ : ∃ o, (start (Settings.default.reseeded (some 7)) (.ofSeed 0)).run
      ticksOnly = .ok o ∧ o.ids = 1 := exists_outcome (by decide +kernel)
  obtain ⟨o', h', -⟩ : ∃ o', (start (Settings.default.reseeded (some 7)) (.ofSeed 1)).run
      ticksWithPlayers = .ok o' ∧ o'.ids = 5 := exists_outcome (by decide +kernel)
  have htime : ticksWithPlayers.filterMap Step.span? = ticksOnly.filterMap Step.span? := by
    decide +kernel
  have hcome :
      ((start (Settings.default.reseeded (some 7)) (.ofSeed 0)).wavePhases [] ticksOnly).map
      (·.arrivals.length) = [0, 1] := by
    -- the machine says who comes without any world to look at
    rw [(sound_start _ _).toSettled.wavePhases_eq h]
    decide +kernel
  exact ⟨o, o', rfl, h, h', htime, hcome, run_wavePhases rfl h h' htime⟩

end Simulation

end Skirmish
