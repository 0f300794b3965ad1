import Skirmish.Proofs.Order
/-!
# A player among others

What a player is and does is decided by the player's own events and by time. `Profile` is everything
of a game that belongs to one player: what is known of the player, and how the avatar is. A machine of
its own (`Solo`) takes the steps that concern the player and knows of nobody else, and after any run
the player's part of the game is what this machine makes of it (`Simulation.Settled.solo_run`). Other
players, enemies, the random source and the handles and network ids that entities happen to get have
no place in that machine, so they make no difference.

Each part of a step is shown to do to a profile what the machine does. What others do leaves a profile
alone because it happens to other entities: an avatar belongs to one player (`World.Bound`), and whoever
is born has a handle that nobody has.
-/

namespace Skirmish

open World

/-! ## One player -/

/-- A slot apart from the entity in it. -/
def Slot.own (s : Slot) : Slot := { s with entity := none }

/-- What belongs to one player: the slot, apart from the entity in it, and how that entity is. -/
structure Profile where
  slot : Slot
  position : Option Vector2
  velocity : Option Vector2
  health : Option Health
  drawable : Option Drawable
deriving DecidableEq

namespace Profile

/-- A player who has just come. -/
def fresh (t : Tuning) (id : UInt8) (username : String) : Profile where
  slot := ⟨username, none, none, none, none⟩
  position := some (playerStart t.player id)
  velocity := some .zero
  health := some (.full t.player.health)
  drawable := some ⟨t.player.width, t.player.height, playerColor id⟩

/-- The player fires as soon as the input is obeyed. -/
def fires (t : Tuning) (now : Double) (f : Profile) : Bool :=
  f.slot.pending.any Wire.Input.shoots && isReady t now f.slot

/-- The player's input is obeyed. -/
def steered (t : Tuning) (now : Double) (f : Profile) : Profile :=
  match f.slot.pending with
  | none => f
  | some i =>
    { f with
      slot := { f.slot with
        pending := none
        lastShot := if f.fires t now then some now else f.slot.lastShot }
      velocity := some (steeredVelocity t i) }

theorem steered_of_none {t : Tuning} {now : Double} {f : Profile} (h : f.slot.pending = none) :
    f.steered t now = f := by
  rw [steered, h]

theorem steered_of_some {t : Tuning} {now : Double} {f : Profile} {i : Wire.Input}
    (h : f.slot.pending = some i) : f.steered t now =
      { f with
        slot := { f.slot with
          pending := none
          lastShot := if i.shoots && isReady t now f.slot then some now else f.slot.lastShot }
        velocity := some (steeredVelocity t i) } := by
  rw [steered, h, fires, h, Option.any_some]

/-- The avatar moves for `dt` seconds, within the field. -/
def moved (t : Tuning) (dt : Single) (f : Profile) : Profile :=
  { f with
    position := f.position.bind fun position =>
      match f.velocity with
      | none => some position
      | some velocity => (field t).clamp? (World.moved position velocity dt) }

end Profile

/-- The player's part of the game, with the time that it is. -/
structure Solo where
  clock : Double
  profile : Option Profile
deriving DecidableEq

namespace Solo

/-- What an event of the player does. -/
def hear (t : Tuning) (f : Option Profile) : Event → Option Profile
  | .connected id username => some (.fresh t id username)
  | .udpReady _ endpoint | .endpointChanged _ endpoint =>
    f.map fun f => { f with slot := { f.slot with endpoint := some endpoint } }
  | .disconnected _ => none
  | .input _ i => f.map fun f => { f with slot := { f.slot with pending := some i } }

/-- What a step that concerns the player does. -/
def step (t : Tuning) (v : Solo) : Step → Solo
  | .event e => { v with profile := hear t v.profile e }
  | .tick dt =>
    let now := v.clock + dt.toDouble
    ⟨now, v.profile.map fun f => (f.steered t now).moved t dt⟩

end Solo

/-- Steps of time concern everyone, an event the player whom it is about. -/
def Step.concerns (p : UInt8) : Step → Bool
  | .event e => e.player = p
  | .tick _ => true

namespace World

variable {w w' : World} {p : UInt8} {vacant : Option UInt8}

/-- What belongs to a player, if the player has a slot. -/
def profile? (w : World) (p : UInt8) : Option Profile :=
  (w.players.get? p).map fun slot => {
    slot := slot.own
    position := slot.entity.bind (w.registry.get? .position)
    velocity := slot.entity.bind (w.registry.get? .velocity)
    health := slot.entity.bind (w.registry.get? .health)
    drawable := slot.entity.bind (w.registry.get? .drawable) }

theorem profile?_of_slot {slot : Slot} {h : Handle} (hslot : w.players.get? p = some slot)
    (hent : slot.entity = some h) : w.profile? p =
      some ⟨slot.own, w.registry.get? .position h, w.registry.get? .velocity h,
        w.registry.get? .health h, w.registry.get? .drawable h⟩ := by
  rw [profile?, hslot, Option.map_some, hent]
  rfl

theorem profile?_of_none (hslot : w.players.get? p = none) : w.profile? p = none := by
  rw [profile?, hslot]
  rfl

/-- The components of an avatar that a profile has. -/
def appearance : List ComponentType := [.position, .velocity, .health, .drawable]

/-- A player is who the player was if the slot is the same and nothing has happened to the avatar. -/
theorem Bound.profile?_congr (hb : w.Bound vacant) (hv : vacant ≠ some p)
    (hslot : w'.players.get? p = w.players.get? p)
    (havatar : ∀ {h}, w.registry.get? .kind h = some .player → w.registry.get? .owner h = some p →
      ∀ c ∈ appearance, w'.registry.get? c h = w.registry.get? c h) :
    w'.profile? p = w.profile? p := by
  cases hp : w.players.get? p with
  | none => rw [profile?_of_none hp, profile?_of_none (hslot.trans hp)]
  | some slot =>
    obtain ⟨h, hent, hkind, howner⟩ := hb.of_slot hp hv
    have hsame := havatar hkind howner
    rw [profile?_of_slot hp hent, profile?_of_slot (hslot.trans hp) hent,
      hsame .position (by simp [appearance]), hsame .velocity (by simp [appearance]),
      hsame .health (by simp [appearance]), hsame .drawable (by simp [appearance])]

/-! ## What others do -/

/-- Something happens to the slot of somebody else. -/
theorem profile?_modifySlot_of_ne {id : UInt8} (hne : id ≠ p) (f : Slot → Slot) :
    (w.modifySlot id f).profile? p = w.profile? p := by
  rw [profile?, get?_players_modifySlot, if_neg hne]
  rfl

/-- Somebody is born. -/
theorem Bound.profile?_summon (hb : w.Bound vacant) (hv : vacant ≠ some p) (he : w.Embodied)
    (parts : List Part) : (w.summon parts).2.profile? p = w.profile? p := by
  refine hb.profile?_congr hv rfl fun {h} hkind _ c _ => get?_summon_of_ne parts c ?_
  rintro rfl
  rw [he.get?_spawn_fst] at hkind
  cases hkind

/-- Time passes for what has a lifetime. -/
theorem Bound.profile?_age (hb : w.Bound vacant) (hv : vacant ≠ some p) (dt : Single) :
    (w.age dt).profile? p = w.profile? p := by
  refine hb.profile?_congr hv rfl fun {h} _ _ c hc => Registry.get?_setColumn_of_ne ?_ _ _
  rintro rfl
  simp [appearance] at hc

/-- Whoever is not struck is not hurt. -/
theorem get?_foldl_hit (c : ComponentType) {h : Handle} {hits : List Hit}
    (hnone : ∀ hit ∈ hits, hit.target.handle ≠ h) (r : Registry ComponentType.Value) :
    (hits.foldl (fun r hit =>
      r.modify .health hit.target.handle fun health => health.hit hit.shot.damage) r).get? c h =
        r.get? c h := by
  induction hits generalizing r with
  | nil => rfl
  | cons hit rest ih =>
    rw [List.foldl_cons, ih fun x hx => hnone x (List.mem_cons_of_mem _ hx),
      Registry.get?_modify_of_ne _ (.inr (hnone hit List.mem_cons_self))]

/-- Bullets strike enemies. -/
theorem Bound.profile?_collide (hb : w.Bound vacant) (hv : vacant ≠ some p) (t : Tuning) :
    (w.collide t).1.profile? p = w.profile? p := by
  refine hb.profile?_congr hv rfl fun {h} hkind _ c _ => get?_foldl_hit c ?_ _
  rintro hit hhit rfl
  obtain ⟨target, htarget, heq⟩ := List.mem_map.mp (mem_volley hhit).2
  rw [← heq, kind_of_mem_targets htarget] at hkind
  cases hkind

/-- Some are reaped who are no avatars. -/
theorem Bound.profile?_reap (hb : w.Bound none) (he : w.Embodied) {condemned : HandleSet}
    (hspares : w.SparesAvatars condemned) : (w.reap condemned).1.profile? p = w.profile? p := by
  refine hb.profile?_congr (by simp) (by rw [players_reap hb hspares]) fun {h} hkind _ c _ => ?_
  rw [he.get?_reap, if_neg fun hc => hspares h hc hkind]

/-- The wave brings somebody or nobody. -/
theorem Bound.profile?_sendWave (hb : w.Bound none) (he : w.Embodied) {wave wave' : Wave}
    {t : Tuning} {g g' : Generator} {dt : Single} {out : List Dispatch}
    (h : w.sendWave wave t g dt = .ok ((w', out), wave', g')) :
    w'.profile? p = w.profile? p := by
  rcases sendWave_cases h with ⟨-, hw, -⟩ | ⟨y, -, hw, -⟩
  · rw [hw]
  · rw [hw]
    exact hb.profile?_summon (by simp) he _

/-! ## What the player does -/

/-- Something happens to the player's slot, but not to the entity in it. -/
theorem profile?_modifySlot_self {f : Slot → Slot} (hent : ∀ s, (f s).entity = s.entity)
    (hown : ∀ s, (f s).own = f s.own) :
    (w.modifySlot p f).profile? p = (w.profile? p).map fun g => { g with slot := f g.slot } := by
  rw [profile?, get?_players_modifySlot, if_pos rfl, profile?, Option.map_map, Option.map_map]
  congr 1
  funext slot
  simp only [Function.comp, hent, hown]
  rfl

/-- The player's input is taken and the avatar turns. -/
theorem Embodied.profile?_turned_self (he : w.Embodied) {slot : Slot} {h : Handle}
    (hslot : w.players.get? p = some slot) (hent : slot.entity = some h)
    (hkind : w.registry.get? .kind h = some .player) (v : Vector2) :
    (w.turned p h v).profile? p = some ⟨{ slot.own with pending := none },
      w.registry.get? .position h, some v, w.registry.get? .health h,
      w.registry.get? .drawable h⟩ := by
  have hother : ∀ c, ComponentType.velocity ≠ c →
      (w.turned p h v).registry.get? c h = w.registry.get? c h :=
    fun c hc => Registry.get?_insert_of_ne _ _ (.inl hc)
  have hself : (w.turned p h v).registry.get? .velocity h = some v :=
    Registry.get?_insert_self (he.isAlive_of_get? hkind) _ _
  have hslot' : (w.turned p h v).players.get? p = some { slot with pending := none } := by
    show (w.players.modify p _).get? p = _
    rw [SortedMap.get?_modify, if_pos rfl, hslot, Option.map_some]
  rw [profile?_of_slot hslot' hent, hself, hother .position (by decide),
    hother .health (by decide), hother .drawable (by decide)]
  rfl

/-- The avatar of another player is another entity. -/
theorem Bound.profile?_turned_of_ne (hb : w.Bound none) {id : UInt8} {h : Handle}
    (howner : w.registry.get? .owner h = some id) (hne : id ≠ p) (v : Vector2) :
    (w.turned id h v).profile? p = w.profile? p := by
  refine hb.profile?_congr (by simp) ?_ fun {k} _ hown c _ =>
    Registry.get?_insert_of_ne _ _ (.inr ?_)
  · exact (SortedMap.get?_modify _ _ _ _).trans (if_neg hne)
  · rintro rfl
    rw [howner, Option.some.injEq] at hown
    exact hne hown

theorem isReady_own (t : Tuning) (now : Double) (s : Slot) :
    isReady t now s.own = isReady t now s := rfl

theorem profile?_reloading_self (now : Double) : (w.reloading now p).profile? p =
    (w.profile? p).map fun g => { g with slot := { g.slot with lastShot := some now } } :=
  profile?_modifySlot_self (f := fun s => { s with lastShot := some now }) (fun _ => rfl)
    fun _ => rfl

theorem profile?_fire (hb : w.Bound none) (he : w.Embodied) (t : Tuning) (now : Double)
    (endpoints : List Endpoint) (id : UInt8) (origin : Vector2) :
    (w.fire t now endpoints id origin).1.profile? p = (w.reloading now id).profile? p := by
  have hq := w.quiet_reloading now id
  rw [fire_fst, (hb.of_quiet hq).profile?_summon (by simp) (he.of_kept hq.kept)]

/-- A player who is steered does what the input says, and nobody else does anything. -/
theorem profile?_steerPlayer (he : w.Embodied) (hb : w.Bound none) (t : Tuning) (now : Double)
    (endpoints : List Endpoint) (id : UInt8) :
    (w.steerPlayer t now endpoints id).1.profile? p =
      if id = p then (w.profile? p).map (Profile.steered t now) else w.profile? p := by
  -- either the player has no input waiting, or a slot with an avatar and an input to obey
  rcases steerPlayer_cases he hb t now endpoints id with
    ⟨hnone, heq⟩ | ⟨slot, i, h, origin, hslot, hpend, hent, hkind, -, heq⟩
  · rw [heq]
    split
    · rename_i hid
      subst hid
      cases hslot : w.players.get? id with
      | none =>
        rw [profile?_of_none hslot]
        rfl
      | some slot =>
        obtain ⟨h, hent, -⟩ := hb.of_slot hslot (by simp)
        rw [hslot, Option.bind_some] at hnone
        rw [profile?_of_slot hslot hent, Option.map_some, Profile.steered_of_none hnone]
    · rfl
  · -- the input is taken, the avatar turns, and perhaps there is a shot
    have hvel := (he.isSome_iff hkind .velocity).mpr (by simp [EntityKind.anatomy])
    have hq := w.quiet_turned id hvel (steeredVelocity t i)
    have hfired : ((w.turned id h (steeredVelocity t i)).fire t now endpoints id origin).1.profile? p =
        ((w.turned id h (steeredVelocity t i)).reloading now id).profile? p :=
      profile?_fire (hb.of_quiet hq) (he.of_kept hq.kept) t now endpoints id origin
    -- an input is obeyed by the avatar of the player it is from, and no other profile is touched
    by_cases hid : id = p
    · subst hid
      have hturn := he.profile?_turned_self hslot hent hkind (steeredVelocity t i)
      rw [if_pos rfl, profile?_of_slot hslot hent, Option.map_some, heq,
        Profile.steered_of_some hpend, isReady_own]
      split
      · rw [hfired, profile?_reloading_self, hturn]
        rfl
      · rw [hturn]
    · obtain ⟨k, hk, -, howner⟩ := hb.of_slot hslot (by simp)
      -- an avatar has one owner, so this one is not the avatar of `p`
      obtain rfl : h = k := Option.some.inj (hent.symm.trans hk)
      have hturn := hb.profile?_turned_of_ne howner hid (steeredVelocity t i)
      rw [if_neg hid, heq]
      split
      · rw [hfired, reloading, profile?_modifySlot_of_ne hid, hturn]
      · exact hturn

theorem profile?_steerPlayers (t : Tuning) (now : Double) {ids : List UInt8} (hnd : ids.Nodup) :
    ∀ {w : World}, w.Embodied → w.Bound none →
      (steerPlayers t now w.endpoints ids w).1.profile? p =
        if p ∈ ids then (w.profile? p).map (Profile.steered t now) else w.profile? p := by
  induction ids with
  | nil => exact fun _ _ => rfl
  | cons id rest ih =>
    intro w he hb
    obtain ⟨hid, hnd'⟩ := List.nodup_cons.mp hnd
    have hfirst := steerPlayer_evolves he hb t now id
    have hmore := ih hnd' (hfirst.embodied he) (hfirst.bound he hb)
    rw [endpoints_congr hfirst.roll, profile?_steerPlayer he hb] at hmore
    refine hmore.trans ?_
    by_cases hp : id = p
    · subst hp
      rw [if_neg hid, if_pos rfl, if_pos List.mem_cons_self]
    · simp only [List.mem_cons, Ne.symm hp, if_neg hp, false_or]

/-- All players are steered, and each does what the own input says. -/
theorem profile?_steer (he : w.Embodied) (hb : w.Bound none) (t : Tuning) (now : Double) :
    (w.steer t now).1.profile? p = (w.profile? p).map (Profile.steered t now) := by
  rw [steer, profile?_steerPlayers t now w.players.keys_nodup he hb]
  split
  · rfl
  · rename_i hp
    -- whoever is not among the players has no profile
    cases hslot : w.players.get? p with
    | none =>
      rw [profile?_of_none hslot]
      rfl
    | some slot =>
      exact absurd (List.mem_map_of_mem (SortedMap.get?_eq_some_iff.mp hslot)) hp

/-- The avatar moves on its own. -/
theorem profile?_move (hb : w.Bound none) {t : Tuning} {dt : Single}
    (h : w.move? t dt = some w') : w'.profile? p = (w.profile? p).map (Profile.moved t dt) := by
  obtain ⟨positions, hpositions, hw⟩ := Option.map_eq_some_iff.mp h
  have hplayers : w'.players = w.players := by rw [← hw]
  cases hslot : w.players.get? p with
  | none => rw [profile?_of_none hslot, profile?_of_none (hplayers ▸ hslot), Option.map_none]
  | some slot =>
    obtain ⟨k, hent, hkind, -⟩ := hb.of_slot hslot (by simp)
    have hposition : w'.registry.get? .position k =
        (w.registry.get? .position k).bind (w.nextPosition t dt k) := by
      rw [← hw, Registry.get?_setColumn_self, Column.get?_of_change? hpositions]
      rfl
    -- a movement pass writes positions alone, and one entity at a time
    have hother : ∀ c, ComponentType.position ≠ c →
        w'.registry.get? c k = w.registry.get? c k := by
      intro c hc
      rw [← hw]
      exact Registry.get?_setColumn_of_ne hc _ _
    rw [profile?_of_slot hslot hent, profile?_of_slot (hplayers ▸ hslot) hent, Option.map_some,
      hposition, hother .velocity (by decide), hother .health (by decide),
      hother .drawable (by decide)]
    cases hvelocity : w.registry.get? .velocity k with
    | none =>
      have hnext : w.nextPosition t dt k = some := by
        funext position
        rw [nextPosition, hvelocity]
      rw [hnext]
      rfl
    | some velocity =>
      -- an avatar is kept in the field
      have hnext : w.nextPosition t dt k = fun position =>
          (field t).clamp? (World.moved position velocity dt) := by
        funext position
        rw [nextPosition, hvelocity, hkind]
        rfl
      rw [hnext]
      rfl

end World

namespace Simulation

variable {s s' : Simulation} {p : UInt8}

/-! ## Steps -/

/-- The player's part of the game. -/
def solo (s : Simulation) (p : UInt8) : Solo := ⟨s.clock, s.world.profile? p⟩

/-- Somebody else's avatar ends. -/
theorem Settled.profile?_evict (hs : Settled s) {id : UInt8} {slot : Slot} {h : Handle}
    (hslot : s.world.players.get? id = some slot) (hent : slot.entity = some h)
    {ps : SortedMap UInt8 Slot} (hps : ∀ q, q ≠ id → ps.get? q = s.world.players.get? q)
    (hne : id ≠ p) : (s.world.evict ps h).1.profile? p = s.world.profile? p := by
  refine hs.bound.profile?_congr (by simp)
    (hs.get?_players_evict hslot hent hps (Ne.symm hne)) fun {k} _ hown c _ => ?_
  obtain ⟨h', hent', -, howner⟩ := hs.bound.of_slot hslot (by simp)
  obtain rfl : h = h' := Option.some.inj (hent.symm.trans hent')
  rw [hs.embodied.get?_evict, if_neg]
  rintro rfl
  rw [howner, Option.some.injEq] at hown
  exact hne hown

/-- A player who comes is a new one, whatever there was before. -/
theorem profile?_spawnPlayer_self {w : World} (he : w.Embodied) (t : Tuning) (username : String) :
    (w.spawnPlayer t p username).2.profile? p = some (.fresh t p username) := by
  have hslot : (w.spawnPlayer t p username).2.players.get? p =
      some ⟨username, some w.registry.spawn.1, none, none, none⟩ := by
    rw [get?_players_spawnPlayer, if_pos rfl]
  rw [profile?_of_slot hslot rfl, registry_spawnPlayer, he.get?_newborn, he.get?_newborn,
    he.get?_newborn, he.get?_newborn]
  rfl

/-- Somebody else comes. -/
theorem profile?_spawnPlayer_of_ne {w : World} {id : UInt8} (he : w.Embodied)
    (hb : w.Bound (some id)) (hne : id ≠ p) (t : Tuning) (username : String) :
    (w.spawnPlayer t id username).2.profile? p = w.profile? p := by
  have hv : some id ≠ some p := fun e => hne (Option.some.inj e)
  refine hb.profile?_congr hv (by rw [get?_players_spawnPlayer, if_neg hne])
    fun {h} hkind _ c _ => ?_
  rw [registry_spawnPlayer]
  refine get?_summon_of_ne _ c ?_
  rintro rfl
  rw [he.get?_spawn_fst] at hkind
  cases hkind

theorem Settled.profile?_connect (hs : Settled s) (id : UInt8) (username : String) :
    (s.connect id username).world.profile? p =
      if id = p then some (.fresh s.tuning id username) else s.world.profile? p := by
  rcases connect_cases hs.embodied hs.bound hs.condemned id username with
    ⟨hslot, heq⟩ | ⟨slot, h, hslot, hent, heq⟩
  · -- an older avatar of the player is gone before the new profile is there
    rw [heq]
    split
    · rename_i hid
      subst hid
      exact profile?_spawnPlayer_self hs.embodied _ _
    · rename_i hid
      exact profile?_spawnPlayer_of_ne hs.embodied (hs.bound.vacant_of_none hslot) hid _ _
  · obtain ⟨he, hb⟩ := hs.evict hslot hent fun _ _ => rfl
    rw [heq]
    split
    · rename_i hid
      subst hid
      exact profile?_spawnPlayer_self he _ _
    · rename_i hid
      exact (profile?_spawnPlayer_of_ne he hb hid _ _).trans
        (hs.profile?_evict hslot hent (fun _ _ => rfl) hid)

theorem Settled.profile?_disconnect (hs : Settled s) (id : UInt8) :
    (s.disconnect id).world.profile? p = if id = p then none else s.world.profile? p := by
  rcases disconnect_cases hs.bound hs.condemned id with ⟨hslot, heq⟩ | ⟨slot, h, hslot, hent, heq⟩
  · rw [heq]
    split
    · rename_i hid
      rw [← hid, profile?_of_none hslot]
    · rfl
  · rw [heq]
    split
    · rename_i hid
      subst hid
      refine profile?_of_none (get?_players_evict_eq_none.mpr ?_)
      rw [SortedMap.get?_erase, if_pos rfl]
    · rename_i hid
      exact hs.profile?_evict hslot hent (fun _ => SortedMap.get?_erase_of_ne _) hid

/-- An endpoint becomes known, of this player or of another. -/
theorem profile?_reached (id : UInt8) (endpoint : Endpoint) :
    (s.reached id endpoint).profile? p =
      if id = p then
        (s.world.profile? p).map fun f =>
          { f with slot := { f.slot with endpoint := some endpoint } }
      else s.world.profile? p := by
  split
  · rename_i hid
    subst hid
    exact profile?_modifySlot_self (f := fun slot => { slot with endpoint := some endpoint })
      (fun _ => rfl) fun _ => rfl
  · rename_i hid
    exact profile?_modifySlot_of_ne hid _

theorem profile?_welcome (id : UInt8) (endpoint : Endpoint) :
    (s.welcome id endpoint).world.profile? p = (s.reached id endpoint).profile? p := by
  cases hslot : s.world.players.get? id with
  | some slot => rw [welcome_of_some hslot, say]
  | none =>
    -- there is no slot to change either
    rw [welcome_of_none hslot, profile?_reached]
    split
    · rename_i hid
      rw [← hid, profile?_of_none hslot]
      rfl
    · rfl

/-- An event does to the profile of its player what the player's own machine does, and nothing to the
profiles of others. -/
theorem Settled.profile?_handle (hs : Settled s) (e : Event) :
    (s.handle e).world.profile? p =
      if e.player = p then Solo.hear s.tuning (s.world.profile? p) e else s.world.profile? p := by
  cases e with
  | connected id username => exact hs.profile?_connect id username
  | udpReady id endpoint => exact (profile?_welcome id endpoint).trans (profile?_reached id endpoint)
  | endpointChanged id endpoint => exact profile?_reached id endpoint
  | disconnected id => exact hs.profile?_disconnect id
  | input id i =>
    show (s.world.modifySlot id _).profile? p = _
    split
    · rename_i hid
      obtain rfl : id = p := hid
      exact profile?_modifySlot_self (f := fun slot => { slot with pending := some i })
        (fun _ => rfl) fun _ => rfl
    · rename_i hid
      exact profile?_modifySlot_of_ne hid _

/-- An event changes the world and what is to be said, and nothing else. -/
theorem handle_keeps (s : Simulation) (e : Event) : ∃ world condemned outbox,
    s.handle e = { s with world, condemned, outbox } := by
  cases e with
  | connected id username =>
    show ∃ _ _ _, s.connect id username = _
    unfold connect
    split <;> exact ⟨_, _, _, rfl⟩
  | udpReady id endpoint =>
    show ∃ _ _ _, s.welcome id endpoint = _
    unfold welcome
    split <;> exact ⟨_, _, _, rfl⟩
  | disconnected id =>
    show ∃ _ _ _, s.disconnect id = _
    unfold disconnect
    split
    · exact ⟨_, _, _, rfl⟩
    · dsimp only
      split <;> exact ⟨_, _, _, rfl⟩
  | endpointChanged id endpoint => exact ⟨_, _, _, rfl⟩
  | input id i => exact ⟨_, _, _, rfl⟩

/-- A step of time does to a profile what the player's own machine does. -/
theorem Settled.solo_tick (hs : Settled s) {dt : Single} {sent : List Dispatch}
    (h : s.tick dt = .ok (s', sent)) :
    s'.solo p = (s.solo p).step s.tuning (.tick dt) ∧ s'.tuning = s.tuning := by
  obtain ⟨w₁, w₂, out, wave, g, hwave, hmove, ⟨hworld, -⟩, htuning, hclock, -, -⟩ := tick_stages h
  -- at every stage the world is in order
  have hsteer := steer_evolves hs.embodied hs.bound s.tuning (s.clock + dt.toDouble)
  have he := hsteer.embodied hs.embodied
  have hb := hsteer.bound hs.embodied hs.bound
  have hb₁ := (sendWave_evolves hwave).bound he hb
  have he₁ := (sendWave_evolves hwave).embodied he
  have hb₂ := hb₁.of_quiet (move_quiet hmove)
  have he₂ := he₁.of_kept (move_quiet hmove).kept
  have hb₃ := hb₂.of_quiet (w₂.age_quiet dt)
  have he₃ := he₂.of_kept (w₂.age_quiet dt).kept
  have hcollide := (w₂.age dt).collide_quiet s.tuning
  refine ⟨?_, htuning⟩
  rw [hs.condemned] at hworld
  -- pass after pass, from the last to the first: only steering and moving change a profile
  have hprofile : s'.world.profile? p = (s.world.profile? p).map fun f =>
      (f.steered s.tuning (s.clock + dt.toDouble)).moved s.tuning dt := by
    rw [hworld, (hb₃.of_quiet hcollide).profile?_reap (he₃.of_kept hcollide.kept)
        (sparesAvatars_condemned he₃ s.tuning),
      hb₃.profile?_collide (by simp), hb₂.profile?_age (by simp), profile?_move hb₁ hmove,
      hb.profile?_sendWave he hwave, profile?_steer hs.embodied hs.bound, Option.map_map]
    rfl
  rw [solo, hclock, hprofile]
  rfl

/-- **One step.** A step that concerns the player does what the player's own machine does, any other
leaves the player's part of the game as it was. -/
theorem Settled.solo_step (hs : Settled s) {x : Step} {sent : List Dispatch}
    (h : s.step x = .ok (s', sent)) :
    s'.solo p = (if x.concerns p then (s.solo p).step s.tuning x else s.solo p) ∧
      s'.tuning = s.tuning := by
  cases x with
  | tick dt => exact hs.solo_tick h
  | event e =>
    cases h
    obtain ⟨_, _, _, hkeeps⟩ := s.handle_keeps e
    have hclock : (s.handle e).clock = s.clock := by rw [hkeeps]
    refine ⟨?_, by rw [hkeeps]⟩
    rw [solo, hclock, hs.profile?_handle]
    by_cases hp : e.player = p
    · have hconcerns : Step.concerns p (.event e) = true := decide_eq_true hp
      rw [if_pos hp, if_pos hconcerns]
      rfl
    · have hconcerns : ¬ Step.concerns p (.event e) = true := by simpa [Step.concerns] using hp
      rw [if_neg hp, if_neg hconcerns]
      rfl

/-- **A run.** What becomes of a player is what the player's own machine makes of the steps that
concern the player. -/
theorem Settled.solo_run {steps : List Step} : ∀ {s : Simulation} {o : Outcome}, Settled s →
    s.run steps = .ok o →
      Settled o.simulation ∧ o.simulation.tuning = s.tuning ∧
      o.simulation.solo p =
        (steps.filter (Step.concerns p)).foldl (Solo.step s.tuning) (s.solo p) := by
  -- on the steps; a step that does not concern the player leaves the profile as it is
  induction steps with
  | nil =>
    intro s o hs h
    cases h
    exact ⟨hs, rfl, rfl⟩
  | cons x rest ih =>
    intro s o hs h
    obtain ⟨next, sent, o', hx, hrest, rfl⟩ := run_cons h
    obtain ⟨hsolo, htuning⟩ := hs.solo_step (p := p) hx
    obtain ⟨hs', htuning', hsolo'⟩ := ih (hs.step hx) hrest
    refine ⟨hs', htuning'.trans htuning, hsolo'.trans ?_⟩
    rw [htuning, hsolo, List.filter_cons]
    split
    · rfl
    · rfl

end Simulation

/-! ## Shots -/

namespace World

variable {w w' : World} {q : UInt8} {h : Handle}

/-- The entity is a bullet of the player. -/
def IsBulletOf (w : World) (q : UInt8) (h : Handle) : Prop :=
  w.registry.get? .kind h = some .playerBullet ∧ w.registry.get? .owner h = some q

/-- Whoever is there stays, and stays what it is. -/
theorem Evolves.keeps {out : List Dispatch} {n : Nat} (hev : Evolves w out n w')
    (he : w.Embodied) (ha : w.registry.isAlive h = true) :
    w'.registry.isAlive h = true ∧ (w'.IsBulletOf q h ↔ w.IsBulletOf q h) := by
  induction hev with
  | refl => exact ⟨ha, .rfl⟩
  | quiet _ hq ih =>
    obtain ⟨ha', hsame⟩ := ih
    refine ⟨by rw [hq.kept.isAlive, ha'], ?_⟩
    rw [← hsame, IsBulletOf, IsBulletOf, hq.kept.kind, hq.kept.owner]
  | @birth w₁ _ _ _ parts hev hp _ ih =>
    obtain ⟨ha', hsame⟩ := ih
    have he' := hev.embodied he
    have hne : w₁.registry.spawn.1 ≠ h := by
      rintro rfl
      rw [Registry.isAlive_spawn_fst he'.pool] at ha'
      cases ha'
    refine ⟨by rw [isAlive_summon he'.pool, if_neg hne, ha'], ?_⟩
    rw [← hsame, IsBulletOf, IsBulletOf, get?_summon_of_ne parts _ hne,
      get?_summon_of_ne parts _ hne]

/-- Between two worlds the player has fired: there is a bullet of the player that was not there. -/
def HasShot (w w' : World) (q : UInt8) : Prop :=
  ∃ h, w.registry.isAlive h = false ∧ w'.IsBulletOf q h

/-- The bullets of a player that are new in the second world, ascending by handle. -/
def newBullets (w w' : World) (q : UInt8) : List Handle :=
  (w'.ofKind .playerBullet).filter fun h =>
    w'.registry.get? .owner h = some q && !w.registry.isAlive h

theorem mem_newBullets : h ∈ w.newBullets w' q ↔
    w.registry.isAlive h = false ∧ w'.IsBulletOf q h := by
  rw [newBullets, List.mem_filter, mem_ofKind, Bool.and_eq_true, decide_eq_true_eq,
    Bool.not_eq_true', IsBulletOf, and_comm, and_comm (a := _ = some q), and_assoc,
    and_comm (a := _ = some q)]

theorem newBullets_nodup : (w.newBullets w' q).Nodup :=
  (w'.ofKind_nodup _).sublist List.filter_sublist

theorem hasShot_iff : w.HasShot w' q ↔ 0 < (w.newBullets w' q).length := by
  rw [HasShot, List.length_pos_iff_exists_mem]
  simp only [mem_newBullets]

/-- Nobody comes, and no bullet either. -/
theorem newBullets_of_quiet (he : w.Embodied) (hq : w.Quiet w') : w.newBullets w' q = [] := by
  rw [List.eq_nil_iff_forall_not_mem]
  intro h hh
  obtain ⟨hdead, hkind, -⟩ := mem_newBullets.mp hh
  rw [hq.kept.kind, he.of_dead hdead] at hkind
  cases hkind

/-- Of two stages each has bullets of its own. -/
theorem length_newBullets_trans {w'' : World} {out out' : List Dispatch} {n n' : Nat}
    (he : w.Embodied) (hev : Evolves w out n w') (hev' : Evolves w' out' n' w'') :
    (w.newBullets w'' q).length = (w.newBullets w' q).length + (w'.newBullets w'' q).length := by
  have he' : w'.Embodied := hev.embodied he
  have hperm : (w.newBullets w'' q).Perm (w.newBullets w' q ++ w'.newBullets w'' q) := by
    refine (List.perm_ext_iff_of_nodup newBullets_nodup (List.nodup_append.mpr
      ⟨newBullets_nodup, newBullets_nodup, ?_⟩)).mpr fun h => ?_
    · -- a handle is new in one of the two halves only, since whoever comes stays in the second
      rintro h hh _ hh' rfl
      have ha := he'.isAlive_of_get? (mem_newBullets.mp hh).2.1
      rw [(mem_newBullets.mp hh').1] at ha
      cases ha
    · rw [List.mem_append, mem_newBullets, mem_newBullets, mem_newBullets]
      constructor
      · rintro ⟨hdead, hbullet⟩
        -- which half a bullet is new in is whether it was alive in between
        cases ha : w'.registry.isAlive h with
        | true => exact .inl ⟨hdead, (hev'.keeps he' ha).2.mp hbullet⟩
        | false => exact .inr ⟨rfl, hbullet⟩
      · rintro (⟨hdead, hbullet⟩ | ⟨hdead, hbullet⟩)
        · exact ⟨hdead, (hev'.keeps he' (he'.isAlive_of_get? hbullet.1)).2.mpr hbullet⟩
        · refine ⟨?_, hbullet⟩
          rw [← Bool.not_eq_true]
          intro ha
          rw [(hev.keeps (q := q) he ha).1] at hdead
          cases hdead
  rw [hperm.length_eq, List.length_append]

/-- Somebody is born. -/
theorem length_newBullets_summon (he : w.Embodied) {k : EntityKind} {parts : List Part}
    (hp : Complete k parts) {owner : UInt8}
    (howner : ∀ n, partOf? .owner (⟨.networkId, n⟩ :: parts) = some owner) :
    (w.newBullets (w.summon parts).2 q).length =
      if k = .playerBullet ∧ owner = q then 1 else 0 := by
  have hmem : ∀ h, h ∈ w.newBullets (w.summon parts).2 q ↔
      h = w.registry.spawn.1 ∧ k = .playerBullet ∧ owner = q := by
    intro h
    rw [mem_newBullets, IsBulletOf]
    constructor
    · -- a bullet that was there before is not new, so it is the newborn
      rintro ⟨hdead, hkind, hown⟩
      rcases get?_summon_cases hkind with rfl | ⟨-, hold⟩
      · rw [he.get?_newborn, hp.kind, Option.some.injEq] at hkind
        rw [he.get?_newborn, howner, Option.some.injEq] at hown
        exact ⟨rfl, hkind, hown⟩
      · rw [he.of_dead hdead] at hold
        cases hold
    · rintro ⟨rfl, hk, hown⟩
      rw [he.get?_newborn, he.get?_newborn, hp.kind, howner, hk, hown]
      exact ⟨Registry.isAlive_spawn_fst he.pool, rfl, rfl⟩
  split
  · rename_i hone
    refine ((List.perm_ext_iff_of_nodup newBullets_nodup (by simp)).mpr fun h => ?_ :
      (w.newBullets (w.summon parts).2 q).Perm [w.registry.spawn.1]).length_eq
    rw [hmem, List.mem_singleton]
    exact and_iff_left hone
  · rename_i hnone
    rw [List.length_eq_zero_iff, List.eq_nil_iff_forall_not_mem]
    exact fun h hh => hnone ((hmem h).mp hh).2

/-- Whoever is steered fires once or does not fire, nobody else does. -/
theorem length_newBullets_steerPlayer (he : w.Embodied) (hb : w.Bound none) (t : Tuning)
    (now : Double) (endpoints : List Endpoint) (id : UInt8) :
    (w.newBullets (w.steerPlayer t now endpoints id).1 q).length =
      if id = q ∧ w.fires t now id = true then 1 else 0 := by
  rw [fires_eq he hb]
  rcases steerPlayer_cases he hb t now endpoints id with
    ⟨hnone, heq⟩ | ⟨slot, i, h, origin, hslot, hpend, -, hkind, -, heq⟩
  · -- with no input the world stays as it is, and with none nobody fires
    rw [heq, newBullets_of_quiet he (.refl w), if_neg]
    · rfl
    rintro ⟨-, hfires⟩
    cases hslot : w.players.get? id with
    | none =>
      rw [hslot] at hfires
      cases hfires
    | some slot =>
      rw [hslot, Option.bind_some] at hnone
      simp [hslot, hnone] at hfires
  · have hvel := (he.isSome_iff hkind .velocity).mpr (by simp [EntityKind.anatomy])
    have hq := w.quiet_turned id hvel (steeredVelocity t i)
    rw [heq, hslot, Option.any_some, hpend, Option.any_some]
    by_cases hfire : (i.shoots && isReady t now slot) = true
    · -- the world in which the bullet is born
      have hq' := hq.trans ((w.turned id h (steeredVelocity t i)).quiet_reloading now id)
      have hborn := length_newBullets_trans (q := q) he (.of_quiet hq')
        ((Evolves.refl _).birth (complete_bullet t id origin) (by simp))
      rw [if_pos hfire, fire_fst, hborn, newBullets_of_quiet he hq',
        length_newBullets_summon (he.of_kept hq'.kept) (complete_bullet t id origin) fun _ => rfl]
      simp [hfire]
    · rw [if_neg hfire, newBullets_of_quiet he hq, if_neg fun hf => hfire hf.2]
      rfl

theorem length_newBullets_steerPlayers (t : Tuning) (now : Double) {ids : List UInt8}
    (hnd : ids.Nodup) : ∀ {w : World}, w.Embodied → w.Bound none →
      (w.newBullets (steerPlayers t now w.endpoints ids w).1 q).length =
        if q ∈ ids ∧ w.fires t now q = true then 1 else 0 := by
  induction ids with
  | nil =>
    intro w he _
    rw [steerPlayers, newBullets_of_quiet he (.refl w)]
    rfl
  | cons id rest ih =>
    intro w he hb
    obtain ⟨hid, hnd'⟩ := List.nodup_cons.mp hnd
    have hfirst := steerPlayer_evolves he hb t now id
    let w₁ := (w.steerPlayer t now w.endpoints id).1
    have he₁ : w₁.Embodied := hfirst.embodied he
    have hb₁ : w₁.Bound none := hfirst.bound he hb
    have hmore := ih hnd' he₁ hb₁
    have hlater := steerPlayers_evolves t now hnd' he₁ hb₁
    rw [show w₁.endpoints = w.endpoints from endpoints_congr hfirst.roll] at hmore hlater
    -- whether a player fires is not changed by what others do before it is their turn
    have hfires : id ≠ q → w₁.fires t now q = w.fires t now q := by
      intro hne
      rw [fires_eq he₁ hb₁, fires_eq he hb, get?_players_steerPlayer t now _ hne]
    show (w.newBullets (steerPlayers t now w.endpoints rest w₁).1 q).length = _
    rw [length_newBullets_trans he hfirst hlater, hmore,
      length_newBullets_steerPlayer he hb t now w.endpoints id]
    -- every player has one turn, so the bullets of one come in one turn
    by_cases hq : id = q
    · subst hq
      simp [hid]
    · rw [hfires hq]
      simp [hq, Ne.symm hq]

/-- Who fires is a matter of the profile. -/
theorem fires_eq_profile? (he : w.Embodied) (hb : w.Bound none) (t : Tuning) (now : Double) :
    w.fires t now q = (w.profile? q).any (Profile.fires t now) := by
  rw [fires_eq he hb, profile?, Option.any_map]
  rfl

end World

namespace Simulation

variable {s : Simulation} {p : UInt8}

/-- The player fires in a step of `dt` seconds: once the players have been obeyed, there is a bullet of
the player that was not there before. -/
def Shoots (s : Simulation) (dt : Single) (p : UInt8) : Prop :=
  s.world.HasShot (s.passTime dt).steer.world p

/-- How many bullets of the player come when the players are obeyed is a matter of the profile. -/
theorem Settled.length_newBullets_steer (hs : Settled s) (dt : Single) :
    (s.world.newBullets (s.passTime dt).steer.world p).length =
      if (s.world.profile? p).any (Profile.fires s.tuning (s.clock + dt.toDouble)) = true
        then 1 else 0 := by
  -- whoever fires has a slot
  have hslot : s.world.fires s.tuning (s.clock + dt.toDouble) p = true →
      p ∈ s.world.players.keys := by
    intro hfires
    rw [fires_eq hs.embodied hs.bound] at hfires
    cases hslot : s.world.players.get? p with
    | none =>
      rw [hslot] at hfires
      cases hfires
    | some slot => exact List.mem_map_of_mem (SortedMap.get?_eq_some_iff.mp hslot)
  have hcount : (s.world.newBullets (s.passTime dt).steer.world p).length = _ :=
    length_newBullets_steerPlayers s.tuning (s.clock + dt.toDouble)
      s.world.players.keys_nodup hs.embodied hs.bound
  rw [hcount, ← fires_eq_profile? hs.embodied hs.bound]
  simp only [and_iff_right_of_imp hslot]

theorem Settled.shoots_iff (hs : Settled s) (dt : Single) :
    s.Shoots dt p ↔ ((s.solo p).profile.any
      (Profile.fires s.tuning ((s.solo p).clock + dt.toDouble))) = true := by
  show s.Shoots dt p ↔
    (s.world.profile? p).any (Profile.fires s.tuning (s.clock + dt.toDouble)) = true
  rw [Shoots, hasShot_iff, hs.length_newBullets_steer]
  split <;> simp [*]

end Simulation

/-! ## Two games -/

/-- The same settings but for the seed of the random numbers. -/
def Settings.reseeded (s : Settings) (seed : Option UInt64) : Settings :=
  { s with game := { s.game with seed } }

/-- A player's own machine has no use for random numbers. -/
theorem Solo.step_reseeded (s : Settings) (seed : Option UInt64) :
    Solo.step (s.reseeded seed).game = Solo.step s.game := by
  funext v x
  cases x with
  | tick dt => rfl
  | event e => cases e <;> rfl

namespace Simulation

/-- **Others make no difference to a player.** Take two games with the same settings, except perhaps for
the seed, and a run of each. If the steps of time and the player's own events are the same in both, in
the same order, then the player has a slot in both or in neither, with the same name, endpoint, last
shot and pending input, the avatar is at the same place with the same velocity, health and shape, and
the player fires in the coming step of either or of neither. The events of others may be anything and
come in between anywhere. Every point of a run is the end of a run, so this says that the games agree
about the player at all corresponding points. -/
theorem run_isolated {settings : Settings} {seed : Option UInt64} {entropy entropy' : Generator}
    {steps steps' : List Step} {o o' : Outcome} {p : UInt8}
    (h : (start settings entropy).run steps = .ok o)
    (h' : (start (settings.reseeded seed) entropy').run steps' = .ok o')
    (hsame : steps'.filter (Step.concerns p) = steps.filter (Step.concerns p)) :
    o'.simulation.world.profile? p = o.simulation.world.profile? p ∧
      ∀ dt, o'.simulation.Shoots dt p ↔ o.simulation.Shoots dt p := by
  obtain ⟨hs, htuning, hsolo⟩ := (sound_start settings entropy).toSettled.solo_run (p := p) h
  obtain ⟨hs', htuning', hsolo'⟩ :=
    (sound_start (settings.reseeded seed) entropy').toSettled.solo_run (p := p) h'
  have hmachine : o'.simulation.solo p = o.simulation.solo p := by
    rw [hsolo, hsolo', hsame]
    exact congrArg (fun step => List.foldl step _ _) (Solo.step_reseeded settings seed)
  refine ⟨congrArg Solo.profile hmachine, fun dt => ?_⟩
  rw [hs.shoots_iff, hs'.shoots_iff, hmachine, htuning, htuning']
  exact .rfl

/-- A player comes, fires and fires again, and waits to be obeyed. -/
def withoutOthers : List Step := [
  .event (.connected 1 "ace"),
  .event (.udpReady 1 ⟨.v4 (.replicate 4 10), 7001⟩),
  .event (.input 1 ⟨0, 1, Wire.shootButton, 1, 0⟩),
  .tick ⟨0x3e99999a⟩,
  .event (.input 1 ⟨1, 1, Wire.shootButton, 0, 1⟩)]

/-- The same while another player comes first, fires and goes. -/
def withOthers : List Step := [
  .event (.connected 2 "bo"),
  .event (.connected 1 "ace"),
  .event (.input 2 ⟨0, 1, Wire.shootButton, -1, 0⟩),
  .event (.udpReady 1 ⟨.v4 (.replicate 4 10), 7001⟩),
  .event (.input 1 ⟨0, 1, Wire.shootButton, 1, 0⟩),
  .tick ⟨0x3e99999a⟩,
  .event (.disconnected 2),
  .event (.input 1 ⟨1, 1, Wire.shootButton, 0, 1⟩)]

theorem run_isolated_of_withOthers : ∃ o o',
    (start .default (.ofSeed 0)).run withoutOthers = .ok o ∧
    (start (Settings.default.reseeded (some 7)) (.ofSeed 0)).run withOthers = .ok o' ∧
    withOthers.filter (Step.concerns 1) = withoutOthers.filter (Step.concerns 1) ∧
    (o.simulation.world.profile? 1).isSome ∧
    o'.simulation.world.profile? 1 = o.simulation.world.profile? 1 ∧
    ∀ dt, o'.simulation.Shoots dt 1 ↔ o.simulation.Shoots dt 1 := by
  obtain ⟨o, h, -⟩ : ∃ o, (start .default (.ofSeed 0)).run withoutOthers = .ok o ∧ o.ids = 2 :=
    exists_outcome (by decide +kernel)
  obtain ⟨o', h', -⟩ : ∃ o', (start (Settings.default.reseeded (some 7)) (.ofSeed 0)).run
      withOthers = .ok o' ∧ o'.ids = 4 := exists_outcome (by decide +kernel)
  have hsome : ((start .default (.ofSeed 0)).run withoutOthers).toOption.all
      (fun o => (o.simulation.world.profile? 1).isSome) = true := by decide +kernel
  rw [h] at hsome
  have hsame : withOthers.filter (Step.concerns 1) = withoutOthers.filter (Step.concerns 1) := by
    decide +kernel
  exact ⟨o, o', h, h', hsame, hsome, run_isolated h h' hsame⟩

end Simulation

end Skirmish
