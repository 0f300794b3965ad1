import Skirmish.Proofs.Arrivals
/-!
# A step up to the collisions

Before collisions are settled, a step of time obeys the players, lets the wave go on, and moves and ages
everything (`Simulation.approach`); nobody ends before that. So whoever is there when the step begins meets
the collisions, and so do those who are born on the way: bullets, and at most one enemy.

The frame lemmas say what happens on the way to those who were there: nothing, but for velocities,
positions and lifetimes.
-/

namespace Skirmish

open World

namespace World

variable {w w' : World} {c : ComponentType} {h : Handle}

/-! ## Those who are there -/

/-- While one player is obeyed, nothing happens to anybody but for velocities. -/
theorem get?_steerPlayer_of_alive (he : w.Embodied) (hb : w.Bound none) (t : Tuning) (now : Double)
    (endpoints : List Endpoint) (id : UInt8) (hc : ComponentType.velocity ≠ c)
    (ha : w.registry.isAlive h = true) :
    (w.steerPlayer t now endpoints id).1.registry.get? c h = w.registry.get? c h := by
  rcases steerPlayer_cases he hb t now endpoints id with
    ⟨-, heq⟩ | ⟨slot, i, avatar, origin, -, -, -, hkind, -, heq⟩
  · rw [heq]
  · have hturn : (w.turned id avatar (steeredVelocity t i)).registry.get? c h =
        w.registry.get? c h := Registry.get?_insert_of_ne _ _ (.inl hc)
    have hvel := (he.isSome_iff hkind .velocity).mpr (by simp [EntityKind.anatomy])
    have hq := w.quiet_turned id hvel (steeredVelocity t i)
    rw [heq]
    split
    · have hq' := hq.trans ((w.turned id avatar (steeredVelocity t i)).quiet_reloading now id)
      rw [fire_fst, get?_summon_of_ne _ c, ← hturn]
      · rfl
      · rintro rfl
        rw [← hq'.kept.isAlive, Registry.isAlive_spawn_fst (he.of_kept hq'.kept).pool] at ha
        cases ha
    · exact hturn

theorem get?_steerPlayers_of_alive (t : Tuning) (now : Double) (hc : ComponentType.velocity ≠ c)
    (ids : List UInt8) : ∀ {w : World}, w.Embodied → w.Bound none → w.registry.isAlive h = true →
      (steerPlayers t now w.endpoints ids w).1.registry.get? c h = w.registry.get? c h := by
  induction ids with
  | nil => exact fun _ _ _ => rfl
  | cons id rest ih =>
    intro w he hb ha
    have hfirst := steerPlayer_evolves he hb t now id
    have hmore := ih (hfirst.embodied he) (hfirst.bound he hb) (hfirst.keeps (q := 0) he ha).1
    rw [endpoints_congr hfirst.roll, get?_steerPlayer_of_alive he hb t now _ id hc ha] at hmore
    exact hmore

/-- While the players are obeyed, nothing happens to those who are there but for velocities. -/
theorem get?_steer_of_alive (he : w.Embodied) (hb : w.Bound none) (t : Tuning) (now : Double)
    (hc : ComponentType.velocity ≠ c) (ha : w.registry.isAlive h = true) :
    (w.steer t now).1.registry.get? c h = w.registry.get? c h :=
  get?_steerPlayers_of_alive t now hc _ he hb ha

/-- As a world evolves, those who are there stay who they are. -/
theorem Evolves.identity_of_alive {out : List Dispatch} {n : Nat} (hev : Evolves w out n w')
    (he : w.Embodied) (ha : w.registry.isAlive h = true) :
    w'.registry.get? .kind h = w.registry.get? .kind h ∧
      w'.registry.get? .networkId h = w.registry.get? .networkId h := by
  induction hev with
  | refl => exact ⟨rfl, rfl⟩
  | quiet _ hq ih => exact ⟨(hq.kept.kind h).trans ih.1, (hq.kept.networkId h).trans ih.2⟩
  | birth hev hp _ ih =>
    have ha' := (hev.keeps (q := 0) he ha).1
    obtain ⟨k, hk, -⟩ := (hev.embodied he).of_alive ha'
    obtain ⟨_, _, n, -, -, hn⟩ := (hev.embodied he).identity_of_alive ha'
    rw [(hev.embodied he).get?_summon_of_some hk, (hev.embodied he).get?_summon_of_some hn,
      ← ih.1, ← ih.2]
    exact ⟨hk.symm, hn.symm⟩

theorem get?_move_of_ne {t : Tuning} {dt : Single} (hmove : w.move? t dt = some w')
    (hc : ComponentType.position ≠ c) (h : Handle) :
    w'.registry.get? c h = w.registry.get? c h := by
  obtain ⟨positions, -, rfl⟩ := Option.map_eq_some_iff.mp hmove
  exact Registry.get?_setColumn_of_ne hc _ _

theorem get?_age_of_ne (w : World) (dt : Single) (hc : ComponentType.lifetime ≠ c) (h : Handle) :
    (w.age dt).registry.get? c h = w.registry.get? c h :=
  Registry.get?_setColumn_of_ne hc _ _

/-- An enemy who is there after the wave was there before, or has come at its best. -/
theorem enemy_of_sendWave (he : w.Embodied) {wave wave' : Wave} {t : Tuning} {g g' : Generator}
    {dt : Single} {out : List Dispatch} (hwave : w.sendWave wave t g dt = .ok ((w', out), wave', g'))
    {x : Health} (hkind : w'.registry.get? .kind h = some .enemy)
    (hx : w'.registry.get? .health h = some x) :
    x = .full t.enemy.health ∨
      w.registry.get? .kind h = some .enemy ∧ w.registry.get? .health h = some x := by
  rcases sendWave_cases hwave with ⟨-, rfl, -⟩ | ⟨y, -, rfl, -⟩
  · exact .inr ⟨hkind, hx⟩
  · rcases get?_summon_cases hx with rfl | ⟨hne, hold⟩
    · rw [he.get?_newborn] at hx
      exact .inl (Option.some.inj hx).symm
    · rw [get?_summon_of_ne _ _ hne] at hkind
      exact .inr ⟨hkind, hold⟩

end World

namespace Simulation

variable {s m : Simulation} {dt : Single}

/-! ## The way -/

/-- On the way, births and changes in place are all that happens. -/
theorem Settled.approach_evolves (hs : Settled s) (h : s.approach dt = .ok m) :
    ∃ out n, s.world.Evolves out n m.world := by
  obtain ⟨w₁, w₂, out, wave, g, hwave, hmove, hworld, -⟩ := approach_stages h
  have hsteer := steer_evolves hs.embodied hs.bound s.tuning (s.clock + dt.toDouble)
  rw [hworld]
  exact ⟨_, _, (hsteer.trans (sendWave_evolves hwave)).quiet
    ((move_quiet hmove).trans (w₂.age_quiet dt))⟩

/-- The bullets that come on the way come when the players are obeyed. -/
theorem Settled.length_newBullets_approach (hs : Settled s) (h : s.approach dt = .ok m)
    (p : UInt8) : (s.world.newBullets m.world p).length =
      if (s.world.profile? p).any (Profile.fires s.tuning (s.clock + dt.toDouble)) = true
        then 1 else 0 := by
  obtain ⟨w₁, w₂, out, wave, g, hwave, hmove, hworld, -⟩ := approach_stages h
  have hsteer := steer_evolves hs.embodied hs.bound s.tuning (s.clock + dt.toDouble)
  have he := hsteer.embodied hs.embodied
  have hsent := sendWave_evolves hwave
  have hrest := (move_quiet hmove).trans (w₂.age_quiet dt)
  have hsteered : (s.world.newBullets (s.world.steer s.tuning (s.clock + dt.toDouble)).1 p).length =
      _ := hs.length_newBullets_steer dt
  -- the wave brings an enemy or nobody
  have hnone : ((s.world.steer s.tuning (s.clock + dt.toDouble)).1.newBullets w₁ p).length = 0 := by
    rcases sendWave_cases hwave with ⟨-, rfl, -⟩ | ⟨y, -, rfl, -⟩
    · rw [newBullets_of_quiet he (.refl _)]
      rfl
    · rw [length_newBullets_summon he (complete_enemy s.tuning y) fun _ => rfl]
      rfl
  -- the bullets of a step are those of its passes, one after the other
  rw [hworld, length_newBullets_trans hs.embodied hsteer (hsent.quiet hrest), hsteered,
    length_newBullets_trans he hsent (.of_quiet hrest), hnone,
    newBullets_of_quiet (hsent.embodied he) hrest]
  rfl

/-- No enemy is hurt on the way, and one who comes is at its best. -/
theorem Settled.enemy_of_approach (hs : Settled s) (h : s.approach dt = .ok m) {k : Handle}
    {x : Health} (hkind : m.world.registry.get? .kind k = some .enemy)
    (hx : m.world.registry.get? .health k = some x) :
    x = .full s.tuning.enemy.health ∨
      s.world.registry.get? .kind k = some .enemy ∧ s.world.registry.get? .health k = some x := by
  obtain ⟨w₁, w₂, out, wave, g, hwave, hmove, hworld, -⟩ := approach_stages h
  rw [hworld, get?_age_of_ne _ _ (by decide), get?_move_of_ne hmove (by decide)] at hkind hx
  have hsteer := steer_evolves hs.embodied hs.bound s.tuning (s.clock + dt.toDouble)
  refine (enemy_of_sendWave (hsteer.embodied hs.embodied) hwave hkind hx).imp_right ?_
  rintro ⟨hkind, hx⟩
  have hold : s.world.registry.get? .kind k = some .enemy :=
    enemy_of_steerPlayers s.tuning _ s.world.players.keys hs.embodied hs.bound hkind
  rw [get?_steer_of_alive hs.embodied hs.bound _ _ (by decide)
    (hs.embodied.isAlive_of_get? hold)] at hx
  exact ⟨hold, hx⟩

end Simulation

end Skirmish
