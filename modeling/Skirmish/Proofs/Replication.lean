import Skirmish.Proofs.Unintroduced
/-!
# Replication

A player who can be reached sees the world as it is. From the moment on at which the player's endpoint
becomes known, a replica that is made of nothing but the datagrams to that endpoint has the live
entities of the world, each as who it is (`Replica.Mirrors`). One sort of entity is missing by
design: the avatar of a player who has come since and cannot be reached yet is introduced only then.

The invariant is `Serves`. Every event keeps it and every step of time does, as long as the player is
undisturbed and nobody else has the endpoint. Without the latter everything would be heard twice.
-/

namespace Skirmish

open Wire World

namespace Simulation

/-! ## Who has not been introduced -/

/-- The player has come during these steps and has not been reachable since. -/
def Unintroduced (steps : List Step) (q : UInt8) : Prop :=
  ∃ before name rest, steps = before ++ .event (.connected q name) :: rest ∧
    ∀ x ∈ rest, (∀ name', x ≠ .event (.connected q name')) ∧
      ∀ endpoint, x ≠ .event (.udpReady q endpoint)

theorem not_unintroduced_nil (q : UInt8) : ¬ Unintroduced [] q := by
  intro hex
  obtain ⟨before, name, rest, h, -⟩ := hex
  simp at h

/-- The last step makes a stranger of who comes, and none of who can be reached. -/
theorem unintroduced_concat (steps : List Step) (x : Step) (q : UInt8) :
    Unintroduced (steps ++ [x]) q ↔ (∃ name, x = .event (.connected q name)) ∨
      Unintroduced steps q ∧ ∀ endpoint, x ≠ .event (.udpReady q endpoint) := by
  constructor
  · intro hex
    obtain ⟨before, name, rest, h, hrest⟩ := hex
    -- the step is at the end, so it is the one that brings the player or comes after that one
    rcases List.eq_nil_or_concat rest with rfl | ⟨rest', y, rfl⟩
    · have hx := List.append_inj_right' h rfl
      exact .inl ⟨name, (List.cons.inj hx).1⟩
    · rw [List.concat_eq_append, ← List.cons_append, ← List.append_assoc] at h
      have hx := (List.cons.inj (List.append_inj_right' h rfl)).1
      have hsteps := List.append_inj_left' h rfl
      refine .inr ⟨⟨before, name, rest', hsteps, fun z hz => hrest z ?_⟩, ?_⟩
      · rw [List.concat_eq_append]
        exact List.mem_append_left _ hz
      · rw [hx]
        refine (hrest y ?_).2
        rw [List.concat_eq_append]
        exact List.mem_append_right _ List.mem_cons_self
  · by_cases hx : ∃ name, x = .event (.connected q name)
    · obtain ⟨name, rfl⟩ := hx
      exact fun _ => ⟨steps, name, [], rfl, fun z hz => absurd hz (by simp)⟩
    · intro hor
      -- a player who was a stranger before still is, as long as it is not made ready
      rcases hor with h | ⟨⟨before, name, rest, rfl, hrest⟩, hready⟩
      · exact absurd h hx
      · refine ⟨before, name, rest ++ [x], by simp, fun z hz => ?_⟩
        rcases List.mem_append.mp hz with hz | hz
        · exact hrest z hz
        · rw [List.mem_singleton] at hz
          subst hz
          exact ⟨fun name' e => hx ⟨name', e⟩, hready⟩

/-! ## The invariant -/

variable {s : Simulation} {p : UInt8} {endpoint : Endpoint} {steps : List Step} {m : Replica}
  {n : Nat}

/-- Nobody but this player has the endpoint. -/
def Alone (s : Simulation) (p : UInt8) (endpoint : Endpoint) : Prop :=
  ∀ q slot, q ≠ p → s.world.players.get? q = some slot → slot.endpoint ≠ some endpoint

instance (s : Simulation) (p : UInt8) (endpoint : Endpoint) : Decidable (s.Alone p endpoint) :=
  decidable_of_iff (∀ e ∈ s.world.players.toList, e.1 ≠ p → e.2.endpoint ≠ some endpoint)
    ⟨fun h q slot hq hslot => h (q, slot) (SortedMap.get?_eq_some_iff.mp hslot) hq,
      fun h e he hq => h e.1 e.2 hq (SortedMap.get?_eq_some_iff.mpr he)⟩

/-- The player can be reached, and the replica has been told of everyone. -/
structure Serves (s : Simulation) (p : UInt8) (endpoint : Endpoint) (steps : List Step)
    (m : Replica) : Prop where
  slot : ∃ slot, s.world.players.get? p = some slot ∧ slot.endpoint = some endpoint
  mirrored : s.world.Mirrored (Unintroduced steps) m

theorem Serves.reaches (hv : s.Serves p endpoint steps m) (ha : s.Alone p endpoint) :
    s.world.Reaches endpoint := by
  obtain ⟨slot, hslot, hend⟩ := hv.slot
  exact reaches_of_slot hslot hend ha

/-- A step that is about nobody's coming leaves the strangers as they are. -/
theorem Serves.mirrored_of_silent (hv : s.Serves p endpoint steps m) {x : Step}
    (hcame : ∀ q name, x ≠ .event (.connected q name))
    (hready : ∀ q e, x ≠ .event (.udpReady q e)) :
    s.world.Mirrored (Unintroduced (steps ++ [x])) m := by
  refine hv.mirrored.of_strangers fun {k r} _ _ => ?_
  rw [unintroduced_concat]
  constructor
  · intro hor
    rcases hor with ⟨name, rfl⟩ | ⟨h, -⟩
    · exact absurd rfl (hcame r name)
    · exact h
  · exact fun h => .inr ⟨h, hready r⟩

/-! ## Events -/

/-- Another player's slot changes, but not the name in it. -/
theorem Serves.modifySlot (hv : s.Serves p endpoint steps m) {x : Step}
    (hcame : ∀ q name, x ≠ .event (.connected q name))
    (hready : ∀ q e, x ≠ .event (.udpReady q e)) {q : UInt8} {f : Slot → Slot}
    (hname : ∀ slot, (f slot).username = slot.username)
    (hend : q = p → ∀ slot, (f slot).endpoint = slot.endpoint) :
    Serves { s with world := s.world.modifySlot q f } p endpoint (steps ++ [x]) m where
  slot := by
    obtain ⟨slot, hslot, he⟩ := hv.slot
    show ∃ slot, (s.world.modifySlot q f).players.get? p = some slot ∧ _
    rw [get?_players_modifySlot, hslot]
    by_cases hq : q = p
    · rw [if_pos hq]
      exact ⟨f slot, rfl, (hend hq slot).trans he⟩
    · rw [if_neg hq]
      exact ⟨slot, rfl, he⟩
  mirrored := (hv.mirrored_of_silent hcame hready).modifySlot q hname

theorem Serves.connect (hs : Sound n s) (hv : s.Serves p endpoint steps m) (ha : s.Alone p endpoint)
    {q : UInt8} (hq : q ≠ p) (name : String) : ∃ out,
      (s.connect q name).outbox = s.outbox ++ out ∧
      (s.connect q name).Serves p endpoint (steps ++ [.event (.connected q name)])
        (m.after endpoint out) := by
  obtain ⟨slot, hslot, hend⟩ := hv.slot
  -- the player who comes is the one more stranger
  have hstr : ∀ r, Unintroduced (steps ++ [.event (.connected q name)]) r ↔
      r = q ∨ Unintroduced steps r := by
    intro r
    rw [unintroduced_concat]
    simp [eq_comm]
  rcases connect_cases hs.embodied hs.bound hs.condemned q name with
    ⟨hnone, heq⟩ | ⟨slot', h, hslot', hent, heq⟩
  · refine ⟨[], by rw [heq, List.append_nil], ?_, ?_⟩
    · rw [heq]
      exact ⟨slot, by rw [get?_players_spawnPlayer, if_neg hq, hslot], hend⟩
    · rw [heq]
      exact hv.mirrored.spawnPlayer hs.embodied (hs.bound.vacant_of_none hnone) _ _ hstr
  · -- an older avatar of the player who comes is gone first, and the replica hears of that
    obtain ⟨he, hb⟩ := hs.toSettled.evict hslot' hent fun _ _ => rfl
    have hplayers : (s.world.evict s.world.players h).1.players.get? p = some slot := by
      rw [hs.toSettled.get?_players_evict hslot' hent (fun _ _ => rfl) (Ne.symm hq), hslot]
    have hm := hv.mirrored.evict hs.embodied hs.numbered hs.bound hslot' hent (fun _ _ => rfl)
      (hv.reaches ha)
    refine ⟨(s.world.evict s.world.players h).2, by rw [heq], ?_, ?_⟩
    · rw [heq]
      exact ⟨slot, by rw [get?_players_spawnPlayer, if_neg hq, hplayers], hend⟩
    · rw [heq]
      exact hm.spawnPlayer he hb _ _ hstr

theorem Serves.disconnect (hs : Sound n s) (hv : s.Serves p endpoint steps m)
    (ha : s.Alone p endpoint) {q : UInt8} (hq : q ≠ p) : ∃ out,
      (s.disconnect q).outbox = s.outbox ++ out ∧
      (s.disconnect q).Serves p endpoint (steps ++ [.event (.disconnected q)])
        (m.after endpoint out) := by
  have hm := hv.mirrored_of_silent (x := .event (.disconnected q)) (by simp) (by simp)
  -- nobody was there, or the end of an avatar is announced
  rcases disconnect_cases hs.bound hs.condemned q with ⟨-, heq⟩ | ⟨slot', h, hslot', hent, heq⟩
  · refine ⟨[], by rw [heq, List.append_nil], ?_, ?_⟩
    · rw [heq]
      exact hv.slot
    · rw [heq]
      exact hm
  · obtain ⟨slot, hslot, hend⟩ := hv.slot
    have hps : ∀ r, r ≠ q → (s.world.players.erase q).get? r = s.world.players.get? r :=
      fun _ => SortedMap.get?_erase_of_ne _
    have hplayers : (s.world.evict (s.world.players.erase q) h).1.players.get? p = some slot := by
      rw [hs.toSettled.get?_players_evict hslot' hent hps (Ne.symm hq), hslot]
    -- the player is reached although another slot is gone already
    have hreach : ({ s.world with players := s.world.players.erase q } : World).Reaches
        endpoint := by
      refine reaches_of_slot (p := p) (by rw [hps p (Ne.symm hq), hslot]) hend ?_
      intro r slot'' hr hslot''
      rw [SortedMap.get?_erase] at hslot''
      split at hslot''
      · cases hslot''
      · exact ha r slot'' hr hslot''
    refine ⟨(s.world.evict (s.world.players.erase q) h).2, by rw [heq], ?_, ?_⟩
    · rw [heq]
      exact ⟨slot, hplayers, hend⟩
    · rw [heq]
      exact hm.evict hs.embodied hs.numbered hs.bound hslot' hent hps hreach

/-- Another player can be reached, and is no stranger any more. -/
theorem Serves.welcome (hs : Sound n s) (hv : s.Serves p endpoint steps m) {q : UInt8}
    (hq : q ≠ p) (e : Endpoint) (ha : (s.welcome q e).Alone p endpoint) : ∃ out,
      (s.welcome q e).outbox = s.outbox ++ out ∧
      (s.welcome q e).Serves p endpoint (steps ++ [.event (.udpReady q e)])
        (m.after endpoint out) := by
  -- whoever is made ready is a stranger no more, and is announced with it
  have hstr : ∀ r, Unintroduced (steps ++ [.event (.udpReady q e)]) r ↔
      Unintroduced steps r ∧ r ≠ q := by
    intro r
    rw [unintroduced_concat]
    simp [eq_comm]
  cases hslot : s.world.players.get? q with
  | none =>
    rw [welcome_of_none hslot]
    refine ⟨[], (List.append_nil _).symm, hv.slot, ?_⟩
    · -- nobody has an avatar of a player without a slot
      refine hv.mirrored.of_strangers fun {k r} hkind hown => ?_
      obtain ⟨r', slot, hr', -, hslot', -⟩ := hs.bound.of_avatar hkind
      rw [hown, Option.some.injEq] at hr'
      subst hr'
      rw [hstr]
      refine and_iff_left ?_
      intro heq
      subst heq
      rw [hslot] at hslot'
      cases hslot'
  | some slot' =>
    rw [welcome_of_some hslot] at ha ⊢
    let w := s.reached q e
    have hslotq : w.players.get? q = some { slot' with endpoint := some e } := by
      rw [get?_players_reached, if_pos rfl, hslot, Option.map_some]
    obtain ⟨slot, hslotp, hend⟩ := hv.slot
    have hslotp : w.players.get? p = some slot := by
      rw [get?_players_reached, if_neg hq, hslotp]
    -- what the other player is told goes elsewhere
    have hne : e ≠ endpoint := fun h => ha q _ hq hslotq (by rw [← h])
    refine ⟨catchUp w slot'.entity e ++ introduction w slot'.entity, rfl, ⟨slot, hslotp, hend⟩, ?_⟩
    · rw [Replica.after_append, after_catchUp_of_ne w _ hne]
      have hbound : w.Bound none := hs.bound.modifySlot q fun _ => rfl
      have hembodied : w.Embodied := hs.embodied.of_kept (.refl _)
      have hm : w.Mirrored (Unintroduced steps) m := hv.mirrored.modifySlot q fun _ => rfl
      exact (hm.introduce hbound hembodied (reaches_of_slot hslotp hend ha) hslotq).of_strangers
        fun {k r} _ _ => hstr r

/-- **Every event keeps the player informed.** -/
theorem Serves.handle (hs : Sound n s) (hv : s.Serves p endpoint steps m) {e : Event}
    (hp : e.player = p → ∃ i, e = .input p i) (ha : s.Alone p endpoint)
    (ha' : (s.handle e).Alone p endpoint) : ∃ out,
      (s.handle e).outbox = s.outbox ++ out ∧
      (s.handle e).Serves p endpoint (steps ++ [.event e]) (m.after endpoint out) := by
  -- what the player itself does is input alone; everybody else may do anything
  cases e with
  | connected q name =>
    refine hv.connect hs ha (fun h => ?_) name
    obtain ⟨i, hi⟩ := hp h
    cases hi
  | udpReady q e =>
    refine hv.welcome hs (fun h => ?_) e ha'
    obtain ⟨i, hi⟩ := hp h
    cases hi
  | endpointChanged q e =>
    have hq : q ≠ p := by
      intro h
      obtain ⟨i, hi⟩ := hp h
      cases hi
    refine ⟨[], (List.append_nil _).symm, ?_⟩
    exact hv.modifySlot (by simp) (by simp) (fun _ => rfl) fun h => absurd h hq
  | disconnected q =>
    refine hv.disconnect hs ha fun h => ?_
    obtain ⟨i, hi⟩ := hp h
    cases hi
  | input q i =>
    refine ⟨[], (List.append_nil _).symm, ?_⟩
    exact hv.modifySlot (by simp) (by simp) (fun _ => rfl) fun _ _ => rfl

/-! ## Steps of time -/

/-- **Every step of time keeps the player informed**, and a snapshot shows everything where it is. -/
theorem Serves.tick (hs : Sound n s) (hv : s.Serves p endpoint steps m) (ha : s.Alone p endpoint)
    {dt : Single} (hroom : n + s.births (.tick dt) < 0xffffffff) {s' : Simulation}
    {sent : List Dispatch} (h : s.tick dt = .ok (s', sent)) : ∃ out,
      sent ++ s'.outbox = s.outbox ++ out ∧
      s'.Serves p endpoint (steps ++ [.tick dt]) (m.after endpoint out) ∧
      (s.isDue dt = true → s'.world.IsCurrent (m.after endpoint out)) := by
  obtain ⟨w, out, condemned, hev, hspares, hworld, -, hout, hsent⟩ :=
    tick_cases hs.embodied hs.bound hs.condemned h
  have hs' := hs.tick hroom h
  have he := hev.embodied hs.embodied
  have hb := hev.bound hs.embodied hs.bound
  have hnext := hs.nextNetworkId
  obtain ⟨hn, -⟩ := hev.numbered hs.embodied hs.numbered (by omega) (by omega)
  have hreach : w.Reaches endpoint := (hv.reaches ha).congr (endpoints_congr hev.roll)
  have hm := hv.mirrored_of_silent (x := .tick dt) (by simp) (by simp)
  -- births and changes, then ends, then perhaps a snapshot
  have hm₁ := hm.evolves hev hs.embodied (hv.reaches ha)
  have hm₂ : (w.reap condemned).1.Mirrored (Unintroduced (steps ++ [.tick dt]))
      ((m.after endpoint out).after endpoint (w.reap condemned).2) :=
    hm₁.reap he hn hreach condemned fun _ _ _ => rfl
  have hroll : s'.world.roll = s.world.roll := by
    rw [hworld, World.roll, players_reap hb hspares, ← World.roll, hev.roll]
  have hreach' : s'.world.Reaches endpoint := (hv.reaches ha).congr (endpoints_congr hroll)
  have hslot : ∃ slot, s'.world.players.get? p = some slot ∧ slot.endpoint = some endpoint := by
    obtain ⟨slot, hslot, hend⟩ := hv.slot
    obtain ⟨slot', hslot', -, -, he'⟩ := slot_of_roll hroll.symm hslot
    exact ⟨slot', hslot', he' ▸ hend⟩
  refine ⟨out ++ (w.reap condemned).2 ++ s'.edition (s.isDue dt), ?_, ⟨hslot, ?_⟩, ?_⟩
  · rw [hout, List.append_nil, hsent, List.append_assoc, List.append_assoc, List.append_assoc]
  · rw [Replica.after_append, Replica.after_append, edition]
    rw [← hworld] at hm₂
    split
    · exact hm₂.snapshot hreach'
    · exact hm₂
  · intro hdue
    rw [hdue, edition, if_pos rfl, Replica.after_append]
    exact isCurrent_snapshot hs'.embodied hs'.numbered hreach' _

/-! ## Runs -/

/-- All that happens to the player is that inputs come. -/
def Undisturbed (p : UInt8) (steps : List Step) : Prop :=
  ∀ e, .event e ∈ steps → e.player = p → ∃ i, e = .input p i

theorem Serves.step (hs : Sound n s) (hv : s.Serves p endpoint steps m) (ha : s.Alone p endpoint)
    {x : Step} (hp : Undisturbed p [x]) (hroom : n + s.births x < 0xffffffff) {s' : Simulation}
    {sent : List Dispatch} (h : s.step x = .ok (s', sent)) (ha' : s'.Alone p endpoint) : ∃ out,
      sent ++ s'.outbox = s.outbox ++ out ∧
      s'.Serves p endpoint (steps ++ [x]) (m.after endpoint out) := by
  cases x with
  | event e =>
    cases h
    exact hv.handle hs (hp e List.mem_cons_self) ha ha'
  | tick dt =>
    obtain ⟨out, hsaid, hv', -⟩ := hv.tick hs ha hroom h
    exact ⟨out, hsaid, hv'⟩

/-- However the game goes on, the player is kept informed. -/
theorem Serves.run {after : List Step} : ∀ {n : Nat} {s : Simulation} {steps : List Step}
    {m : Replica} {o : Outcome}, Sound n s → s.Serves p endpoint steps m → n + o.ids < 0xffffffff →
      Undisturbed p after →
      (∀ k o', s.run (after.take k) = .ok o' → o'.simulation.Alone p endpoint) →
      s.run after = .ok o → ∃ out,
        o.said = s.outbox ++ out ∧
        o.simulation.Serves p endpoint (steps ++ after) (m.after endpoint out) := by
  -- on the steps, with those before them in front, since who is a stranger depends on all of them
  induction after with
  | nil =>
    intro n s steps m o _ hv _ _ _ h
    cases h
    exact ⟨[], by rw [Outcome.said, List.nil_append, List.append_nil],
      by rw [List.append_nil, Replica.after_nil]; exact hv⟩
  | cons x rest ih =>
    intro n s steps m o hs hv hroom hp ha h
    obtain ⟨next, sent, o', hx, hrest, rfl⟩ := run_cons h
    have hsum : n + (s.births x + o'.ids) < 0xffffffff := hroom
    -- the player has the endpoint alone both before the step and after it
    have ha₀ : s.Alone p endpoint := ha 0 _ (run_nil s)
    have ha₁ : next.Alone p endpoint := ha 1 _ (run_cons_of_step hx (run_nil next))
    have hpx : Undisturbed p [x] := by
      intro e he
      rw [List.mem_singleton] at he
      exact hp e (he ▸ List.mem_cons_self)
    obtain ⟨out, hsaid, hv'⟩ := hv.step hs ha₀ hpx (by omega) hx ha₁
    have hs' := hs.step (by omega) hx
    obtain ⟨out', hsaid', hv''⟩ := ih hs' hv' (by omega)
      (fun e he => hp e (List.mem_cons_of_mem _ he))
      (fun k o₁ h₁ => ha (k + 1) ⟨o₁.simulation, sent ++ o₁.sent, s.births x + o₁.ids⟩
        (run_cons_of_step hx h₁)) hrest
    refine ⟨out ++ out', ?_, ?_⟩
    · have hnext : o'.sent ++ o'.simulation.outbox = next.outbox ++ out' := hsaid'
      rw [Outcome.said, List.append_assoc, hnext, ← List.append_assoc, hsaid, List.append_assoc]
    · rw [Replica.after_append, List.append_cons]
      exact hv''

/-- A player who has a slot is told of everyone as soon as there is an endpoint. -/
theorem Sound.serves_welcome (hs : Sound n s) {slot : Slot}
    (hslot : s.world.players.get? p = some slot) (ha : (s.welcome p endpoint).Alone p endpoint) :
    ∃ out, (s.welcome p endpoint).outbox = s.outbox ++ out ∧
      (s.welcome p endpoint).Serves p endpoint [] (Replica.empty.after endpoint out) := by
  rw [welcome_of_some hslot] at ha ⊢
  let w := s.reached p endpoint
  have hslotp : w.players.get? p = some { slot with endpoint := some endpoint } := by
    rw [get?_players_reached, if_pos rfl, hslot, Option.map_some]
  have hbound : w.Bound none := hs.bound.modifySlot p fun _ => rfl
  have hembodied : w.Embodied := hs.embodied.of_kept (.refl _)
  have hm := mirrored_welcome hbound hembodied (reaches_of_slot hslotp rfl ha) hslotp
  refine ⟨_, rfl, ⟨_, hslotp, rfl⟩, hm.of_strangers fun {k r} _ _ => ?_⟩
  exact iff_of_false (not_unintroduced_nil r) id

/-- After a step of time with a snapshot everyone is seen where they are. -/
theorem Serves.isCurrent {rest : List Step} {dt : Single} {o o' : Outcome} {out : List Dispatch}
    (hs : Sound n s) (hv : s.Serves p endpoint steps m) (hroom : n + o.ids < 0xffffffff)
    (hp : Undisturbed p (rest ++ [.tick dt]))
    (ha : ∀ k o', s.run (List.take k (rest ++ [.tick dt])) = .ok o' →
      o'.simulation.Alone p endpoint)
    (h' : s.run rest = .ok o') (h : s.run (rest ++ [.tick dt]) = .ok o)
    (hdue : o'.simulation.isDue dt = true) (hsaid : o.said = s.outbox ++ out) :
    o.simulation.world.IsCurrent (m.after endpoint out) := by
  obtain ⟨o₁, o₂, h₁, h₂, rfl⟩ := run_append h
  rw [h', Except.ok.injEq] at h₁
  subst h₁
  obtain ⟨s', sent, o₃, hx, h₃, rfl⟩ := run_cons h₂
  rw [run_nil, Except.ok.injEq] at h₃
  subst h₃
  have hids : n + (o'.ids + (o'.simulation.births (Step.tick dt) + 0)) < 0xffffffff :=
    hroom
  -- the prefixes of the rest are prefixes of the whole
  have ha' : ∀ k o', s.run (rest.take k) = .ok o' → o'.simulation.Alone p endpoint := by
    intro k o₁ h₁
    refine ha (min k rest.length) o₁ ?_
    rw [List.take_append_of_le_length (Nat.min_le_right _ _), ← List.take_eq_take_min, h₁]
  have hlast : o'.simulation.Alone p endpoint := by
    refine ha' rest.length o' ?_
    rw [List.take_length, h']
  obtain ⟨out₁, hsaid₁, hv₁⟩ := hv.run hs (by omega)
    (fun e he => hp e (List.mem_append_left _ he)) ha' h'
  have hs₁ := hs.run (by omega) h'
  obtain ⟨out₂, hsaid₂, -, hcurrent⟩ := hv₁.tick hs₁ hlast (by omega) hx
  -- what was said in all is what was said before the step and in it
  have hout : out = out₁ ++ out₂ := by
    have hall : o'.sent ++ (sent ++ []) ++ s'.outbox = s.outbox ++ out := hsaid
    have hfirst : o'.sent ++ o'.simulation.outbox = s.outbox ++ out₁ := hsaid₁
    rw [List.append_nil, List.append_assoc, hsaid₂, ← List.append_assoc, hfirst,
      List.append_assoc] at hall
    exact (List.append_cancel_left hall).symm
  rw [hout, Replica.after_append]
  exact hcurrent hdue

/-- **A player sees the world as it is.** In any game, take a player with a slot whose endpoint
becomes known, to whom nothing but inputs happens afterwards, and whose endpoint nobody else has. All
datagrams to this endpoint from then on can be read, and an empty replica that they are applied to in
order has exactly the live entities of the world, but for the avatars of players who have come since
and have not been introduced. If the last step has sent a snapshot, they are all where they are in the
world. -/
theorem run_mirrors {settings : Settings} {entropy : Generator} {before after : List Step}
    {p : UInt8} {endpoint : Endpoint} {o₀ o : Outcome} {slot : Slot}
    (h₀ : (start settings entropy).run before = .ok o₀)
    (hslot : o₀.simulation.world.players.get? p = some slot)
    (h : (start settings entropy).run (before ++ .event (.udpReady p endpoint) :: after) = .ok o)
    (hids : o.ids < 0xffffffff) (hp : Undisturbed p after)
    (halone : ∀ k o', (start settings entropy).run
      (before ++ .event (.udpReady p endpoint) :: after.take k) = .ok o' →
        o'.simulation.Alone p endpoint) :
    ∃ news m, o.said = o₀.said ++ news ∧
      Replica.empty.hearAll (bytesFor endpoint news) = .ok m ∧
      m.Mirrors o.simulation.world (Unintroduced after) ∧
      ∀ rest dt o', after = rest ++ [.tick dt] →
        (start settings entropy).run (before ++ .event (.udpReady p endpoint) :: rest) = .ok o' →
        o'.simulation.isDue dt = true → o.simulation.world.IsCurrent m := by
  -- everything rests on the run that begins with the event
  obtain ⟨o₃, h₃, rfl⟩ := run_after_event h₀ h
  have hsum : o₀.ids + (0 + o₃.ids) < 0xffffffff := hids
  have hgoOn : ∀ {steps : List Step} {o' : Outcome},
      (o₀.simulation.welcome p endpoint).run steps = .ok o' →
      (start settings entropy).run (before ++ .event (.udpReady p endpoint) :: steps) =
        .ok ⟨o'.simulation, o₀.sent ++ ([] ++ o'.sent), o₀.ids + (0 + o'.ids)⟩ :=
    fun h' => run_append_of_run h₀ (run_cons_of_step rfl h')
  have ha : ∀ k o', (o₀.simulation.welcome p endpoint).run (after.take k) = .ok o' →
      o'.simulation.Alone p endpoint := by
    intro k o' h'
    have := halone k _ (hgoOn h')
    exact this
  have hs₀ : Sound (0 + o₀.ids) o₀.simulation := (sound_start settings entropy).run (by omega) h₀
  have hs := hs₀.welcome p endpoint
  obtain ⟨out₀, hsaid₀, hv₀⟩ := hs₀.serves_welcome hslot (ha 0 _ (run_nil _))
  obtain ⟨out, hsaid, hv⟩ := hv₀.run hs (by omega) hp ha h₃
  have hend := hs.run (by omega) h₃
  refine ⟨out₀ ++ out, _, ?_, Replica.hearAll_bytesFor _ _ _, ?_, ?_⟩
  · have hnext : o₃.sent ++ o₃.simulation.outbox =
        (o₀.simulation.welcome p endpoint).outbox ++ out := hsaid
    show o₀.sent ++ o₃.sent ++ o₃.simulation.outbox =
      o₀.sent ++ o₀.simulation.outbox ++ (out₀ ++ out)
    rw [List.append_assoc, hnext, hsaid₀]
    simp only [List.append_assoc]
  · rw [Replica.after_append]
    exact hv.mirrored.mirrors hend.embodied hend.numbered hend.bound
  · intro rest dt o' hafter h' hdue
    subst hafter
    obtain ⟨o₄, h₄, rfl⟩ := run_after_event h₀ h'
    rw [Replica.after_append]
    have hcurrent := hv₀.isCurrent hs (by omega) hp ha h₄ h₃ hdue hsaid
    exact hcurrent

/-- Two players come, and the second can be reached. -/
def beforeReady : List Step := [
  .event (.connected 1 "ace"),
  .event (.connected 2 "a captain with a long name"),
  .event (.udpReady 2 ⟨.v4 (.replicate 4 10), 7002⟩)]

/-- A third comes, the first fires, the third can be reached and the second goes. -/
def afterReady : List Step := [
  .event (.connected 3 "bo"),
  .event (.input 1 ⟨0, 1, shootButton, 1, 0⟩),
  .tick ⟨0x3d4ccccd⟩,
  .event (.udpReady 3 ⟨.v4 (.replicate 4 10), 7003⟩),
  .event (.disconnected 2),
  .tick ⟨0x3d4ccccd⟩]

theorem run_mirrors_of_afterReady : ∃ o₀ o slot,
    (start .default (.ofSeed 0)).run beforeReady = .ok o₀ ∧
    o₀.simulation.world.players.get? 1 = some slot ∧
    (start .default (.ofSeed 0)).run
      (beforeReady ++ .event (.udpReady 1 ⟨.v4 (.replicate 4 10), 7001⟩) :: afterReady) = .ok o ∧
    o.ids < 0xffffffff ∧
    ∃ news m, o.said = o₀.said ++ news ∧
      Replica.empty.hearAll (bytesFor ⟨.v4 (.replicate 4 10), 7001⟩ news) = .ok m ∧
      m.Mirrors o.simulation.world (Unintroduced afterReady) ∧
      ∀ rest dt o', afterReady = rest ++ [.tick dt] →
        (start .default (.ofSeed 0)).run
          (beforeReady ++ .event (.udpReady 1 ⟨.v4 (.replicate 4 10), 7001⟩) :: rest) = .ok o' →
        o'.simulation.isDue dt = true → o.simulation.world.IsCurrent m := by
  obtain ⟨o₀, h₀, -⟩ : ∃ o₀, (start .default (.ofSeed 0)).run beforeReady = .ok o₀ ∧ o₀.ids = 2 :=
    exists_outcome (by decide +kernel)
  obtain ⟨o, h, hids⟩ : ∃ o, (start .default (.ofSeed 0)).run
      (beforeReady ++ .event (.udpReady 1 ⟨.v4 (.replicate 4 10), 7001⟩) :: afterReady) = .ok o ∧
        o.ids = 4 :=
    exists_outcome (by decide +kernel)
  have hsome : ((start .default (.ofSeed 0)).run beforeReady).toOption.all
      (fun o => (o.simulation.world.players.get? 1).isSome) = true := by decide +kernel
  obtain ⟨slot, hslot⟩ : ∃ slot, o₀.simulation.world.players.get? 1 = some slot := by
    rw [h₀] at hsome
    exact Option.isSome_iff_exists.mp hsome
  have hp : Undisturbed 1 afterReady := by
    intro e he hplayer
    simp only [afterReady, List.mem_cons, Step.event.injEq, List.not_mem_nil, reduceCtorEq,
      or_false, false_or] at he
    rcases he with rfl | rfl | rfl | rfl
    · exact absurd hplayer (by decide)
    · exact ⟨_, rfl⟩
    · exact absurd hplayer (by decide)
    · exact absurd hplayer (by decide)
  have hcheck : ∀ k < 7, ((start .default (.ofSeed 0)).run
      (beforeReady ++ .event (.udpReady 1 ⟨.v4 (.replicate 4 10), 7001⟩) ::
        afterReady.take k)).toOption.all
      (fun o => decide (o.simulation.Alone 1 ⟨.v4 (.replicate 4 10), 7001⟩)) = true := by
    decide +kernel
  have halone : ∀ k o', (start .default (.ofSeed 0)).run
      (beforeReady ++ .event (.udpReady 1 ⟨.v4 (.replicate 4 10), 7001⟩) ::
        afterReady.take k) = .ok o' →
        o'.simulation.Alone 1 ⟨.v4 (.replicate 4 10), 7001⟩ := by
    intro k o' h'
    have hk := hcheck (min k 6) (by omega)
    rw [← show afterReady.length = 6 from rfl, ← List.take_eq_take_min, h'] at hk
    exact of_decide_eq_true hk
  have hlt : o.ids < 0xffffffff := by omega
  exact ⟨o₀, o, slot, h₀, hslot, h, hlt, run_mirrors h₀ hslot h hlt hp halone⟩

end Simulation

end Skirmish
