import Skirmish.Proofs.Mirror
/-!
# Everyone but strangers

A replica of a player shows all entities but the avatars of strangers, who are players that have come
and cannot be reached yet (`World.Mirrored`). A stranger's avatar is born without a word, and the
introduction makes up for it.

Each thing that happens to a world has its lemma here: births that are announced and changes in place
(`Mirrored.evolves`), reaping (`Mirrored.reap`), snapshots, introductions, and players who come and
go. A newcomer starts with nothing and is told of everyone (`mirrored_welcome`).
-/

namespace Skirmish

open Wire

namespace World

variable {w : World} {m : Replica} {endpoint : Endpoint} {strangers strangers' : UInt8 → Prop}

/-! ## Strangers -/

/-- The avatar of one of these players. -/
def IsAvatarOf (w : World) (who : UInt8 → Prop) (h : Handle) : Prop :=
  w.registry.get? .kind h = some .player ∧ ∃ q, w.registry.get? .owner h = some q ∧ who q

/-- The replica shows everything but the avatars of strangers. -/
def Mirrored (w : World) (strangers : UInt8 → Prop) (m : Replica) : Prop :=
  w.Shows (fun h => ¬ w.IsAvatarOf strangers h) m

/-- Players without an avatar may be strangers or not. -/
theorem Mirrored.of_strangers (hm : w.Mirrored strangers m)
    (h : ∀ {k r}, w.registry.get? .kind k = some .player → w.registry.get? .owner k = some r →
      (strangers' r ↔ strangers r)) : w.Mirrored strangers' m := by
  refine Shows.of_iff hm fun {k n} _ => not_congr ⟨?_, ?_⟩
  · intro hex
    obtain ⟨hk, r, ho, hr⟩ := hex
    exact ⟨hk, r, ho, (h hk ho).mp hr⟩
  · intro hex
    obtain ⟨hk, r, ho, hr⟩ := hex
    exact ⟨hk, r, ho, (h hk ho).mpr hr⟩

/-- Nobody comes or goes, and everyone is still who they were. -/
theorem Mirrored.of_kept {w' : World} (hm : w.Mirrored strangers m)
    (hk : w.registry.Kept w'.registry)
    (hnames : ∀ q, (w'.players.get? q).map Slot.username = (w.players.get? q).map Slot.username) :
    w'.Mirrored strangers m := by
  have havatar : ∀ h, w'.IsAvatarOf strangers h ↔ w.IsAvatarOf strangers h := by
    intro h
    rw [IsAvatarOf, IsAvatarOf, hk.kind, hk.owner]
  refine Shows.of_same hm ?_ ?_ fun _ => rfl
  · intro h n hid hsh
    exact ⟨by rw [← hk.networkId, hid], fun ha => hsh ((havatar h).mpr ha)⟩
  · intro h n hid hsh
    refine ⟨by rw [hk.networkId, hid], fun ha => hsh ((havatar h).mp ha), ?_⟩
    exact identity?_congr (hk.networkId h) (hk.kind h) (hk.owner h) fun _ q _ => hnames q

theorem Mirrored.modifySlot (hm : w.Mirrored strangers m) (id : UInt8) {f : Slot → Slot}
    (hf : ∀ slot, (f slot).username = slot.username) : (w.modifySlot id f).Mirrored strangers m := by
  refine hm.of_kept (.refl _) fun q => ?_
  rw [get?_players_modifySlot]
  split
  · rw [Option.map_map]
    congr 1
    exact funext hf
  · rfl

/-! ## Steps of time -/

/-- Births that are announced and changes in place. -/
theorem Mirrored.evolves {w' : World} {out : List Dispatch} {n : Nat} (h : w.Evolves out n w')
    (he : w.Embodied) (hr : w.Reaches endpoint) (hm : w.Mirrored strangers m) :
    w'.Mirrored strangers (m.after endpoint out) := by
  induction h with
  | refl => exact hm
  -- the name is in the roll, which everything quiet leaves alone
  | @quiet v v' out n h hq ih =>
    have hname : ∀ (u : World) (q : UInt8),
        (u.players.get? q).map Slot.username = (u.roll.get? q).map Slot.username := by
      intro u q
      rw [get?_roll, Option.map_map]
      rfl
    refine ih.of_kept hq.kept fun q => ?_
    rw [hname, hname, hq.roll]
  | @birth v out n k parts h hp hk ih =>
    have hv : v.Embodied := h.embodied he
    let newborn := v.registry.spawn.1
    have hnone : v.registry.get? .networkId newborn = none := hv.get?_spawn_fst _
    have hborn : (v.summon parts).2.Shows
        (fun h => newborn ≠ h ∧ ¬ v.IsAvatarOf strangers h) (m.after endpoint out) :=
      Shows.birth ih hnone (fun c _ hne => get?_summon_of_ne parts c hne)
        fun _ _ => by rw [players_summon]
    have hr' : (v.summon parts).2.Reaches endpoint :=
      hr.congr (by rw [endpoints_summon, endpoints_congr h.roll])
    have hid : (v.summon parts).2.registry.get? .networkId newborn = some v.nextNetworkId := by
      rw [hv.get?_newborn, hp.networkId]
    rw [Replica.after_append]
    refine (hborn.after_announce hr' hid).of_iff fun {h n} hn => ?_
    -- the newborn is no avatar, everyone else is who they were
    by_cases hne : newborn = h
    · subst hne
      refine iff_of_true ?_ (.inr rfl)
      intro hex
      obtain ⟨hkind, -⟩ := hex
      rw [hv.get?_newborn, hp.kind, Option.some.injEq] at hkind
      exact hk hkind
    · rw [IsAvatarOf, get?_summon_of_ne parts _ hne, get?_summon_of_ne parts _ hne, ← IsAvatarOf]
      exact ⟨fun h => .inl ⟨hne, h⟩, fun h => (h.resolve_right (Ne.symm hne)).2⟩

/-- Some are reaped, when the players are these. -/
theorem Mirrored.reap (hm : w.Mirrored strangers m) (he : w.Embodied) (hn : w.Numbered)
    {ps : SortedMap UInt8 Slot} (hr : ({ w with players := ps } : World).Reaches endpoint)
    (condemned : HandleSet)
    (hnames : ∀ {h q}, h ∉ condemned → w.registry.get? .kind h = some .player →
      (w.registry.get? .owner h).getD serverOwner = q →
        (ps.get? q).map Slot.username = (w.players.get? q).map Slot.username) :
    (({ w with players := ps } : World).reap condemned).1.Mirrored strangers
      (m.after endpoint (({ w with players := ps } : World).reap condemned).2) := by
  have hv := he.withPlayers ps
  refine (Shows.reap hm he hn hr condemned hnames).of_iff fun {h n} hid => not_congr ?_
  have hc : h ∉ condemned := by
    intro hc
    rw [hv.get?_reap, if_pos hc] at hid
    cases hid
  rw [IsAvatarOf, hv.get?_reap, hv.get?_reap, if_neg hc, if_neg hc]
  exact Iff.rfl

theorem Mirrored.snapshot (hm : w.Mirrored strangers m) (hr : w.Reaches endpoint) :
    w.Mirrored strangers (m.after endpoint w.snapshot) :=
  Shows.of_same hm (fun hid hsh => ⟨hid, hsh⟩) (fun hid hsh => ⟨hid, hsh, rfl⟩)
    (hr.identity_after_snapshot m)

/-! ## Introductions -/

/-- A player's avatar is introduced, and the player is no stranger any more. -/
theorem Mirrored.introduce (hm : w.Mirrored strangers m) (hb : w.Bound none) (he : w.Embodied)
    (hr : w.Reaches endpoint) {q : UInt8} {slot : Slot} (hslot : w.players.get? q = some slot) :
    w.Mirrored (fun r => strangers r ∧ r ≠ q)
      (m.after endpoint (Simulation.introduction w slot.entity)) := by
  obtain ⟨h, hent, hkind, howner⟩ := hb.of_slot hslot (by simp)
  obtain ⟨n, hid⟩ := he.get?_of_mem hkind (c := .networkId) (by simp [EntityKind.anatomy])
  -- who is introduced is the avatar of the player, and this is the one avatar it has
  have hintro : Simulation.introduction w slot.entity = w.announce h := by
    rw [hent]
    rfl
  rw [hintro]
  refine (Shows.after_announce hm hr hid).of_iff fun {k _} _ => ?_
  constructor
  · intro hk
    by_cases hkh : k = h
    · exact .inr hkh
    · refine .inl ?_
      intro hex
      obtain ⟨hkind', r, hr', hstr⟩ := hex
      refine hk ⟨hkind', r, hr', hstr, ?_⟩
      intro heq
      subst heq
      exact hkh (hb.avatar_unique hslot hent hkind' hr')
  · rintro (hk | rfl) ⟨hkind', r, hr', hstr, hne⟩
    · exact hk ⟨hkind', r, hr', hstr⟩
    · rw [howner, Option.some.injEq] at hr'
      exact hne hr'.symm

/-- What a newcomer is told is told to nobody else. -/
theorem after_catchUp_of_ne (w : World) (own : Option Handle) {endpoint' : Endpoint}
    (hne : endpoint' ≠ endpoint) (m : Replica) :
    m.after endpoint (Simulation.catchUp w own endpoint') = m := by
  refine Replica.after_of_elsewhere m fun d hd => ?_
  obtain ⟨⟨n, h⟩, -, hd⟩ := List.mem_filterMap.mp hd
  dsimp only at hd
  split at hd
  · cases hd
  · obtain ⟨message, -, rfl⟩ := Option.map_eq_some_iff.mp hd
    exact hne

/-- A newcomer is told of everyone but the newcomer. -/
theorem shows_catchUp (w : World) (own : Option Handle) (endpoint : Endpoint) :
    w.Shows (fun k => some k ≠ own)
      (Replica.empty.after endpoint (Simulation.catchUp w own endpoint)) := by
  -- for any list of those who are told of, so that it may be one shorter in each step
  have key : ∀ (told : List (UInt32 × Handle)) {shown : Handle → Prop} {m : Replica},
      (∀ e ∈ told, w.registry.get? .networkId e.2 = some e.1) → w.Shows shown m →
      w.Shows (fun k => shown k ∨ some k ≠ own ∧ ∃ n, (n, k) ∈ told)
        (m.after endpoint (told.filterMap fun e => if some e.2 = own then none
          else (w.spawnMessage? e.2).map fun message => ⟨endpoint, .spawn message⟩)) := by
    intro told
    induction told with
    | nil =>
      intro shown m _ hs
      exact hs.of_iff fun _ => by simp
    | cons e rest ih =>
      intro shown m hids hs
      obtain ⟨n, h⟩ := e
      have hid : w.registry.get? .networkId h = some n := hids (n, h) List.mem_cons_self
      have hrest := fun e he => hids e (List.mem_cons_of_mem _ he)
      -- the newcomer is left out of the list
      by_cases hown : some h = own
      · rw [List.filterMap_cons_none (by simp [hown])]
        refine (ih hrest hs).of_iff fun {k _} _ => or_congr_right (and_congr_right fun hk => ?_)
        have hkh : k ≠ h := fun e => hk (e ▸ hown)
        simp [hkh]
      · obtain ⟨message, hmsg⟩ : ∃ message, w.spawnMessage? h = some message := by
          rw [spawnMessage?, hid]
          exact ⟨_, rfl⟩
        rw [List.filterMap_cons_some (b := ⟨endpoint, .spawn message⟩) (by simp [hown, hmsg])]
        have hheard : ∀ said, m.after endpoint (⟨endpoint, .spawn message⟩ :: said) =
            (m.apply (Payload.spawn message).arrived).after endpoint said := by
          intro said
          simp [Replica.after]
        rw [hheard]
        refine (ih hrest (hs.apply_spawn hmsg)).of_iff fun {k _} _ => ?_
        by_cases hkh : k = h
        · subst hkh
          exact iff_of_true (.inr ⟨hown, n, List.mem_cons_self⟩) (.inl (.inr rfl))
        · simp [hkh]
  refine (key w.networked (fun e he => mem_networked.mp he) w.shows_empty).of_iff ?_
  intro k n hid
  constructor
  · exact fun hk => .inr ⟨hk, n, mem_networked.mpr hid⟩
  · exact fun hk => (hk.resolve_left id).1

/-- A newcomer is told of everyone, the newcomer last. -/
theorem mirrored_welcome (hb : w.Bound none) (he : w.Embodied) (hr : w.Reaches endpoint) {p : UInt8}
    {slot : Slot} (hslot : w.players.get? p = some slot) :
    w.Mirrored (fun _ => False) (Replica.empty.after endpoint
      (Simulation.catchUp w slot.entity endpoint ++
        Simulation.introduction w slot.entity)) := by
  obtain ⟨h, hent, hkind, -⟩ := hb.of_slot hslot (by simp)
  obtain ⟨n, hid⟩ := he.get?_of_mem hkind (c := .networkId) (by simp [EntityKind.anatomy])
  have hintro : Simulation.introduction w slot.entity = w.announce h := by
    rw [hent]
    rfl
  rw [Replica.after_append, hintro]
  refine ((w.shows_catchUp slot.entity endpoint).after_announce hr hid).of_iff fun {k _} _ => ?_
  refine iff_of_true (fun ha => ?_) ?_
  · obtain ⟨-, _, -, hfalse⟩ := ha
    exact hfalse
  · by_cases hk : k = h
    · exact .inr hk
    · refine .inl fun e => hk ?_
      rw [hent, Option.some.injEq] at e
      exact e

/-! ## Players who come and go -/

/-- When the avatar of a player ends, the players of all others have their names. -/
theorem Bound.username_of_others (hb : w.Bound none) {q : UInt8} {slot : Slot} {h : Handle}
    (hslot : w.players.get? q = some slot) (hent : slot.entity = some h)
    {ps : SortedMap UInt8 Slot} (hps : ∀ r, r ≠ q → ps.get? r = w.players.get? r) {k : Handle}
    {r : UInt8} (hk : k ∉ condemnedAlone h) (hkind : w.registry.get? .kind k = some .player)
    (hown : (w.registry.get? .owner k).getD serverOwner = r) :
    (ps.get? r).map Slot.username = (w.players.get? r).map Slot.username := by
  have hne : r ≠ q := by
    intro heq
    subst heq
    refine hk (mem_condemnedAlone.mpr (hb.avatar_unique hslot hent hkind ?_))
    obtain ⟨r', _, hr', -, -⟩ := hb.of_avatar hkind
    rw [hr', Option.getD_some] at hown
    rw [hr', hown]
  rw [hps r hne]

/-- The avatar of a player ends. -/
theorem Mirrored.evict (hm : w.Mirrored strangers m) (he : w.Embodied) (hn : w.Numbered)
    (hb : w.Bound none) {q : UInt8} {slot : Slot} {h : Handle}
    (hslot : w.players.get? q = some slot) (hent : slot.entity = some h)
    {ps : SortedMap UInt8 Slot} (hps : ∀ r, r ≠ q → ps.get? r = w.players.get? r)
    (hr : ({ w with players := ps } : World).Reaches endpoint) :
    (w.evict ps h).1.Mirrored strangers (m.after endpoint (w.evict ps h).2) :=
  hm.reap he hn hr _ fun hk hkind hown => hb.username_of_others hslot hent hps hk hkind hown

/-- While the slot of a player is vacant, avatars are those of others. -/
theorem Bound.owner_ne {q : UInt8} (hb : w.Bound (some q)) {h : Handle} {r : UInt8}
    (hkind : w.registry.get? .kind h = some .player)
    (hown : w.registry.get? .owner h = some r) : r ≠ q := by
  obtain ⟨r', _, hr', hv, -⟩ := hb.of_avatar hkind
  rw [hown, Option.some.injEq] at hr'
  intro heq
  exact hv (by rw [← hr', heq])

/-- When a new avatar fills a vacancy, the players of all others have their names. -/
theorem Bound.username_spawnPlayer {q : UInt8} (hb : w.Bound (some q)) (t : Tuning)
    (username : String) {h : Handle} {r : UInt8}
    (hkind : w.registry.get? .kind h = some .player)
    (hown : (w.registry.get? .owner h).getD serverOwner = r) :
    ((w.spawnPlayer t q username).2.players.get? r).map Slot.username =
      (w.players.get? r).map Slot.username := by
  obtain ⟨r', _, hr', -⟩ := hb.of_avatar hkind
  rw [hr', Option.getD_some] at hown
  subst hown
  rw [get?_players_spawnPlayer, if_neg (hb.owner_ne hkind hr').symm]

/-- A new avatar fills a vacancy. Nobody is told, so the player is a stranger. -/
theorem Mirrored.spawnPlayer {q : UInt8} (hm : w.Mirrored strangers m) (he : w.Embodied)
    (hb : w.Bound (some q)) (t : Tuning) (username : String)
    (hstr : ∀ r, strangers' r ↔ r = q ∨ strangers r) :
    (w.spawnPlayer t q username).2.Mirrored strangers' m := by
  let w' := (w.spawnPlayer t q username).2
  let newborn := w.registry.spawn.1
  have hget : ∀ (c : ComponentType) {h : Handle}, newborn ≠ h →
      w'.registry.get? c h = w.registry.get? c h := by
    intro c h hne
    rw [registry_spawnPlayer, get?_summon_of_ne _ c hne]
  -- the new avatar is not shown, for it is not announced
  have hborn : w'.Shows (fun h => newborn ≠ h ∧ ¬ w.IsAvatarOf strangers h) m :=
    Shows.birth hm (he.get?_spawn_fst _) hget fun hkind hown =>
      hb.username_spawnPlayer t username hkind hown
  refine hborn.of_iff fun {h n} hid => ?_
  by_cases hne : newborn = h
  · subst hne
    refine iff_of_false (fun ha => ha ⟨?_, q, ?_, (hstr q).mpr (.inl rfl)⟩) (fun ha => ha.1 rfl)
    · rw [registry_spawnPlayer, he.get?_newborn, (complete_avatar t q).kind]
    · rw [registry_spawnPlayer, he.get?_newborn, owner_avatarParts]
  · rw [IsAvatarOf, hget _ hne, hget _ hne]
    constructor
    · refine fun ha => ⟨hne, ?_⟩
      intro hex
      obtain ⟨hkind, r, hown, hr⟩ := hex
      exact ha ⟨hkind, r, hown, (hstr r).mpr (.inr hr)⟩
    · rintro ⟨-, ha⟩ ⟨hkind, r, hown, hr⟩
      rcases (hstr r).mp hr with rfl | hr
      · exact hb.owner_ne hkind hown rfl
      · exact ha ⟨hkind, r, hown, hr⟩

end World

/-! ## What is to be seen -/

/-- The replica has the live entities of a world but for the avatars of some players. Each has its
kind and owner, and avatars have the names of their players, as far as a datagram can hold them. -/
structure Replica.Mirrors (m : Replica) (w : World) (but : UInt8 → Prop) : Prop where
  isSome_iff : ∀ n, (m.get? n).isSome ↔ ∃ h, w.registry.isAlive h = true ∧
    w.registry.get? .networkId h = some n ∧ ¬ w.IsAvatarOf but h
  networkId : ∀ n e, m.get? n = some e → e.networkId = n
  kind : ∀ n e h, m.get? n = some e → w.registry.get? .networkId h = some n →
    w.registry.get? .kind h = some e.kind
  owner : ∀ n e h, m.get? n = some e → w.registry.get? .networkId h = some n →
    w.registry.get? .owner h = some e.owner
  username : ∀ n e h, m.get? n = some e → w.registry.get? .networkId h = some n →
    w.registry.get? .kind h = some .player →
      ∃ slot, w.players.get? e.owner = some slot ∧ e.username = NameField.kept slot.username

theorem World.Mirrored.mirrors {w : World} {m : Replica} {strangers : UInt8 → Prop}
    (hm : w.Mirrored strangers m) (he : w.Embodied) (hn : w.Numbered) (hb : w.Bound none) :
    m.Mirrors w strangers := by
  -- the identity of an entity, part by part
  have hparts : ∀ {n e h}, m.get? n = some e → w.registry.get? .networkId h = some n →
      e.networkId = n ∧ w.registry.get? .kind h = some e.kind ∧
        w.registry.get? .owner h = some e.owner ∧
        (e.kind = .player → e.username =
          NameField.kept (((w.players.get? e.owner).map Slot.username).getD "")) := by
    intro n e h hme hid
    obtain ⟨h', hid', -, hident⟩ := hm.of_seen hme
    obtain rfl := hn.inj hid' hid
    obtain ⟨k, q, n', hk, hq, -⟩ := he.identity_of_alive (he.isAlive_of_get? hid)
    rw [World.identity?_eq, hid, hk, hq] at hident
    have heq := Option.some.inj hident
    simp only [Sighting.identity, Option.getD_some, Prod.mk.injEq] at heq
    obtain ⟨h₁, h₂, h₃, h₄⟩ := heq
    refine ⟨h₁.symm, by rw [hk, h₂], by rw [hq, h₃], fun hp => ?_⟩
    rw [← h₄, if_pos (h₂.trans hp), h₃]
  refine ⟨fun n => ⟨fun hsome => ?_, ?_⟩, fun n e hme => ?_, fun n e h hme hid => (hparts hme hid).2.1,
    fun n e h hme hid => (hparts hme hid).2.2.1, fun n e h hme hid hkind => ?_⟩
  · obtain ⟨e, hme⟩ := Option.isSome_iff_exists.mp hsome
    obtain ⟨h, hid, hsh, -⟩ := hm.of_seen hme
    exact ⟨h, he.isAlive_of_get? hid, hid, hsh⟩
  · intro hex
    obtain ⟨h, -, hid, hsh⟩ := hex
    exact hm.of_live hid hsh
  · obtain ⟨h, hid, -⟩ := hm.of_seen hme
    exact (hparts hme hid).1
  · obtain ⟨-, hk, ho, hname⟩ := hparts hme hid
    obtain ⟨q, slot, hq, -, hslot, -⟩ := hb.of_avatar hkind
    rw [hq, Option.some.injEq] at ho
    subst ho
    rw [hk, Option.some.injEq] at hkind
    refine ⟨slot, hslot, ?_⟩
    rw [hname hkind, hslot]
    rfl

end Skirmish
