import Skirmish.Proofs.Truncation
import Skirmish.Proofs.Replay
import Skirmish.Proofs.Identity
import Skirmish.Proofs.News
/-!
# Under which name a player is seen

A name that may be had takes up to sixteen characters, which can be sixty-four bytes, and an
announcement has room for fifteen. What is announced is the longest prefix that has room
(`isLongestFit_kept_of_isValidUsername`). So a player goes by the whole name in the notices of the
gateway and by that prefix in the datagrams of the simulation, and no two players have the same name but
two may be seen under the same one.

A session is opened in a step that admits its player, and the others are told the whole name
(`Gateway.OpensSession`). That the simulation has the avatar of the player under this name is a
matter of what it has heard of the ledger (`Roster.name?_hearAll`). And what a client shows of an id
was announced of it once (`Replica.HeardSpawnsOf.exists_spawn`), so it is true of the avatar that
has the id (`Simulation.run_identifies`), however late it has come.
-/

namespace Skirmish

open Wire

/-! ## Names that may be had -/

theorem nul_not_mem_of_isValidUsername {name : String}
    (h : Control.isValidUsername name = true) : '\x00' ∉ name.toList := by
  intro hmem
  simp only [Control.isValidUsername, Bool.and_eq_true, Bool.not_eq_true', List.any_eq_false] at h
  exact absurd rfl (h.2 _ hmem)

/-- What can be seen of a name is the longest prefix that an announcement has room for. -/
theorem isLongestFit_kept_of_isValidUsername {name : String}
    (h : Control.isValidUsername name = true) :
    IsLongestFit 15 name.toList (NameField.kept name).toList := by
  have hnul := nul_not_mem_of_isValidUsername h
  have hfit := isLongestFit_fitting 15 name.toList
  have hall : ∀ c ∈ Utf8.fitting 15 name.toList, decide (c ≠ '\x00') = true := by
    intro c hc
    rw [decide_eq_true_eq]
    intro heq
    exact hnul (heq ▸ hfit.isPrefix.subset hc)
  have hkept : (NameField.kept name).toList = Utf8.fitting 15 name.toList := by
    rw [NameField.kept_eq, String.toList_ofList, ← List.append_nil (Utf8.fitting 15 name.toList),
      List.takeWhile_append_of_pos hall, List.takeWhile_nil]
  rw [hkept]
  exact hfit

/-- All of a name can be seen exactly if an announcement has room for it. -/
theorem kept_eq_iff_of_isValidUsername {name : String}
    (h : Control.isValidUsername name = true) :
    NameField.kept name = name ↔ (Utf8.encode name.toList).length ≤ 15 :=
  (NameField.kept_eq_iff name).trans (and_iff_left (nul_not_mem_of_isValidUsername h))

/-! ## Admissions -/

namespace Gateway

variable {g g' : Gateway} {a : Action} {actions : List Action} {p : UInt8} {username : String}

/-- A step of a connection opens a session, and everyone else who keeps notices keeps one that says
who has come. -/
structure OpensSession (g : Gateway) (n : Nat) (s : Session) (g' : Gateway) : Prop where
  admits : g.sessions.Admits s.username s
  sessions : ∀ t, g'.sessions.get? t = if s.token = t then some s else g.sessions.get? t
  others : ∀ k, k ≠ n →
    g'.connections.get? k = (g.connections.get? k).map fun c => c.post (joinNotice s)

/-- If there is to tell that somebody comes, then the step admits somebody. -/
theorem Tidy.opensSession (hg : g.Tidy) (h : g.step? a = some g')
    (hmem : .connected p username ∈ g.sessions.changesTo g'.sessions) :
    ∃ n version s, a = .hear n (.connect username version) ∧ g.OpensSession n s g' ∧ s.playerId = p ∧
      s.username = username := by
  cases hn : a.connection? with
  | none =>
    -- there is no news of what no connection does
    obtain ⟨told, he⟩ := hg.effects h
    rw [← hg.changesTo_of_change he.change] at hmem
    have hsilent := List.filterMap_eq_nil_iff.mp (he.change.silent hn) _
      (List.mem_filter.mp hmem).1
    cases hsilent
  | some n =>
    cases hc : g.connections.get? n with
    | none =>
      obtain ⟨-, rfl⟩ := accept_of_step? hn hc h
      rw [show (g.setConnection n .fresh).sessions = g.sessions from rfl,
        SessionTable.changesTo_self] at hmem
      cases hmem
    | some c =>
      obtain ⟨c', told, sessions, hstepEffect, hm⟩ := hg.acts hn hc h
      rw [← hg.changesTo_of_change (hstepEffect.change hm hc)] at hmem
      have htold := (List.mem_filter.mp hmem).1
      cases hstepEffect with
      | @admitted _ version s _ _ _ hjoin =>
        obtain ⟨hadmits, htable⟩ := SessionTable.join_ok hjoin
        obtain ⟨rfl, rfl⟩ := Event.connected.inj (List.mem_singleton.mp htold)
        refine ⟨n, version, s, by rw [hadmits.named], ⟨?_, fun t => ?_, fun k hk => ?_⟩, rfl, rfl⟩
        · rw [hadmits.named]
          exact hadmits
        · rw [hm.sessions, htable, SessionTable.get?_insert]
        · rw [hm.get?, if_neg (Ne.symm hk)]
          rfl
      | departed _ => cases List.mem_singleton.mp htold
      | greeted | skipped | relayed | answered | passed | ended => cases htold

/-- One of these steps admits a player under a name, and tells the others the name. -/
def AnnouncesName (g : Gateway) (p : UInt8) (username : String) (actions : List Action) : Prop :=
  ∃ before n version after g₁ g₂ s, actions = before ++ .hear n (.connect username version) :: after ∧
    g.run? before = some g₁ ∧ g₁.step? (.hear n (.connect username version)) = some g₂ ∧
    g₁.OpensSession n s g₂ ∧ s.playerId = p ∧ s.username = username

/-- Whoever comes according to the ledger has been admitted. -/
theorem Orderly.announcesName (hg : g.Orderly) (hopen : .shutDown ∉ actions)
    (h : g.run? actions = some g') (hmem : .connected p username ∈ g.history actions) :
    g.AnnouncesName p username actions := by
  induction actions generalizing g with
  | nil => cases hmem
  | cons a rest ih =>
    obtain ⟨g₁, ha, hrest⟩ := run?_cons h
    rw [List.mem_cons, not_or] at hopen
    rw [history_cons ha] at hmem
    rcases List.mem_append.mp hmem with hmem | hmem
    · have hchange : .connected p username ∈ g.sessions.changesTo g₁.sessions := by
        rw [← hg.told_changes (Ne.symm hopen.1) ha]
        exact List.mem_filter.mpr ⟨hmem, rfl⟩
      obtain ⟨n, version, s, rfl, hopensSession, hid, hname⟩ := hg.toTidy.opensSession ha hchange
      exact ⟨[], n, version, rest, g, g₁, s, rfl, rfl, ha, hopensSession, hid, hname⟩
    · obtain ⟨before, n, version, after, g₂, g₃, s, rfl, hbefore, hstep, hothers⟩ :=
        ih (hg.step (Ne.symm hopen.1) ha) hopen.2 hrest hmem
      refine ⟨a :: before, n, version, after, g₂, g₃, s, rfl, ?_, hstep, hothers⟩
      rw [run?, ha]
      exact hbefore

theorem AnnouncesName.isValidUsername (h : g.AnnouncesName p username actions) :
    Control.isValidUsername username = true := by
  obtain ⟨_, _, _, _, _, _, s, -, -, -, hopensSession, -, rfl⟩ := h
  exact hopensSession.admits.valid

/-! ## The names of sessions -/

/-- No two sessions have the same name. -/
def Named (g : Gateway) : Prop :=
  ∀ {t t' s s'}, g.sessions.get? t = some s → g.sessions.get? t' = some s' →
    s.username = s'.username → t = t'

/-- A session after a step was there before, under the same name, or the step has opened it. -/
theorem Tidy.named_cases (hg : g.Tidy) (h : g.step? a = some g') {t : UInt32} {s : Session}
    (hs : g'.sessions.get? t = some s) :
    (∃ s₀, g.sessions.get? t = some s₀ ∧ s₀.username = s.username) ∨ ∃ n, g.OpensSession n s g' := by
  obtain ⟨told, he⟩ := hg.effects h
  rcases hg.has_before he.change ⟨s, hs, rfl, rfl⟩ with ⟨⟨s₀, hs₀, -, hname⟩, -⟩ | ⟨hnone, htold⟩
  · exact .inl ⟨s₀, hs₀, hname⟩
  · have hmem : .connected s.playerId s.username ∈ g.sessions.changesTo g'.sessions := by
      rw [← hg.changesTo_of_change he.change, htold]
      exact List.mem_cons_self
    obtain ⟨n, -, new, -, hopensSession, -⟩ := hg.opensSession h hmem
    rw [hopensSession.sessions] at hs
    split at hs
    · obtain rfl := Option.some.inj hs
      exact .inr ⟨n, hopensSession⟩
    · rw [hnone] at hs
      cases hs

theorem Named.step (hn : g.Named) (hg : g.Tidy) (h : g.step? a = some g') : g'.Named := by
  -- a name that is given to somebody was nobody's
  have hnew : ∀ {n t t' s s'}, g.OpensSession n s g' → g'.sessions.get? t = some s →
      g'.sessions.get? t' = some s' → s.username = s'.username → t = t' := by
    intro n t t' s s' hopensSession hs hs' hname
    have holder : ∀ {k s₀}, g'.sessions.get? k = some s₀ → s₀.username = s.username →
        s.token = k := by
      intro k s₀ hk hname₀
      rw [hopensSession.sessions] at hk
      split at hk
      · assumption
      · exact absurd hname₀ (hopensSession.admits.free_name hk)
    rw [← holder hs rfl, ← holder hs' hname.symm]
  intro t t' s s' hs hs' hname
  rcases hg.named_cases h hs with ⟨s₀, hs₀, hname₀⟩ | ⟨n, hopensSession⟩
  · rcases hg.named_cases h hs' with ⟨s₁, hs₁, hname₁⟩ | ⟨n, hopensSession⟩
    · exact hn hs₀ hs₁ (by rw [hname₀, hname, hname₁])
    · exact (hnew hopensSession hs' hs hname.symm).symm
  · exact hnew hopensSession hs hs' hname

theorem Named.run (hn : g.Named) (hg : g.Tidy) (h : g.run? actions = some g') : g'.Named := by
  induction actions generalizing g with
  | nil =>
    obtain rfl := Option.some.inj h
    exact hn
  | cons a rest ih =>
    obtain ⟨g₁, ha, hrest⟩ := run?_cons h
    exact ih (hn.step hg ha) (hg.step ha) hrest

/-- The last that the ledger says of the player of a session is that the player comes. -/
theorem lastComes_history {maxPlayers : UInt8} {capacity : Nat} {udpPort : UInt16}
    {r : Generator} (hopen : .shutDown ∉ actions)
    (h : (start maxPlayers capacity udpPort r).run? actions = some g) {t : UInt32} {s : Session}
    (hs : g.sessions.get? t = some s) :
    LastComes ((start maxPlayers capacity udpPort r).history actions) s.playerId s.username := by
  rcases (orderly_start maxPlayers capacity udpPort r).opens_of_has hopen h ⟨s, hs, rfl, rfl⟩ with
    hlasts | ⟨before, a, after, g₁, g₂, rfl, hbefore, -, ha, htold, hlasts⟩
  · -- nobody has a session in the beginning
    obtain ⟨_, hnone, -⟩ := hlasts.now
    cases hnone
  · rw [history_append hbefore, history_cons ha, htold]
    exact ⟨_, _, rfl, hlasts.unmarked⟩

end Gateway

/-! ## The names of slots -/

/-- The name of a player on a roster. -/
def Roster.name? (r : Roster) (p : UInt8) : Option String := (r.get? p).map Prod.fst

/-- Whoever has come last has a name on the roster, and whoever had it before and of whom nothing has
been heard. -/
theorem Roster.name?_hearAll (events : List Event) (r : Roster) (p : UInt8) (username : String) :
    (r.hearAll events).name? p = some username ↔
      LastComes events p username ∨ r.name? p = some username ∧ ∀ e ∈ events, ¬ e.Marks p := by
  -- on the events: the last one that marks the player decides, so the roster is left open
  induction events generalizing r with
  | nil => simp [not_lastComes_nil, hearAll]
  | cons e rest ih =>
    rw [lastComes_cons, List.forall_mem_cons]
    refine (ih _).trans ?_
    cases e with
    | connected q name =>
      rw [hear, name?, SortedMap.get?_insert]
      by_cases hq : q = p
      · subst hq
        simp [Event.Marks, or_comm]
      · simp [Event.Marks, hq, name?]
    | disconnected q =>
      rw [hear, name?, SortedMap.get?_erase]
      by_cases hq : q = p
      · subst hq
        simp [Event.Marks]
      · simp [Event.Marks, hq, name?]
    | udpReady q | endpointChanged q =>
      -- an endpoint is no matter of the name
      have hsame : ∀ endpoint : Endpoint,
          Roster.name? (r.modify q fun c => (c.1, some endpoint)) p = r.name? p := by
        intro endpoint
        rw [name?, SortedMap.get?_modify, name?]
        split
        · rw [Option.map_map]
          rfl
        · rfl
      rw [hear, hsame]
      simp [Event.Marks]
    | input =>
      rw [hear]
      simp [Event.Marks]

theorem World.name?_roster (w : World) (p : UInt8) :
    w.roster.name? p = (w.players.get? p).map Slot.username := by
  rw [Roster.name?, get?_roster, Option.map_map]
  rfl

/-! ## What a client shows -/

namespace Replica

/-- A replica of datagrams that have come in any order. Some may be lost, and some may come more than
once. Whatever announces an entity is the server's; all others may be anybody's. -/
def HeardSpawnsOf (m : Replica) (said : List Dispatch) : Prop :=
  ∃ heard, empty.hearAll heard = .ok m ∧ ∀ bytes ∈ heard, ∀ token x,
    Packet.decode bytes = .ok ⟨token, .spawn x⟩ → ∃ d ∈ said, d.datagram.bytes = bytes

/-- So a replica of all that is sent to an endpoint. -/
theorem heardSpawnsOf_of_hearAll_bytesFor {endpoint : Endpoint} {said : List Dispatch} {m : Replica}
    (h : empty.hearAll (bytesFor endpoint said) = .ok m) : m.HeardSpawnsOf said := by
  refine ⟨_, h, fun bytes hbytes _ _ _ => ?_⟩
  obtain ⟨datagram, hdatagram, rfl⟩ := List.mem_map.mp hbytes
  obtain ⟨d, hd, rfl⟩ := List.mem_map.mp (List.mem_filter.mp hdatagram).1
  exact ⟨d, hd, rfl⟩

/-- Datagrams that can be read are the messages in them. -/
theorem exists_foldl_of_hearAll {heard : List (List UInt8)} {m m' : Replica}
    (h : m.hearAll heard = .ok m') : ∃ payloads : List Payload, m' = payloads.foldl apply m ∧
      ∀ p ∈ payloads, ∃ bytes ∈ heard, ∃ token, Packet.decode bytes = .ok ⟨token, p⟩ := by
  induction heard generalizing m with
  | nil =>
    cases h
    exact ⟨[], rfl, fun _ hp => absurd hp (by simp)⟩
  | cons bytes rest ih =>
    rw [hearAll, List.foldlM_cons, hear] at h
    cases hdecode : Packet.decode bytes with
    | error e =>
      rw [hdecode] at h
      cases h
    | ok packet =>
      rw [hdecode] at h
      obtain ⟨payloads, rfl, hrest⟩ := ih h
      refine ⟨packet.payload :: payloads, rfl, List.forall_mem_cons.mpr ⟨?_, fun p hp => ?_⟩⟩
      · exact ⟨bytes, List.mem_cons_self, packet.token, hdecode⟩
      · obtain ⟨bytes', hmem, hbytes'⟩ := hrest p hp
        exact ⟨bytes', List.mem_cons_of_mem _ hmem, hbytes'⟩

/-- Whatever a replica shows was announced like that by the server. -/
theorem HeardSpawnsOf.exists_spawn {m : Replica} {said : List Dispatch} (h : m.HeardSpawnsOf said)
    {n : UInt32}    {e : Sighting} (he : m.get? n = some e) : ∃ d ∈ said, ∃ x, d.Reads (.spawn x) ∧
      x.networkId = n ∧ x.kind = e.kind ∧ x.owner = e.owner ∧ x.username = e.username := by
  obtain ⟨heard, hheard, hserver⟩ := h
  obtain ⟨payloads, rfl, hread⟩ := exists_foldl_of_hearAll hheard
  obtain ⟨x, since, hlast, htold⟩ := (reflects_replay payloads).seen he
  obtain ⟨earlier, hsplit⟩ := hlast.split
  obtain ⟨bytes, hbytes, token, hdecode⟩ := hread (.spawn x) (by rw [hsplit]; simp)
  obtain ⟨d, hd, rfl⟩ := hserver bytes hbytes token x hdecode
  have hpacket : Packet.decode d.datagram.bytes = .ok ⟨0, d.payload.arrived⟩ :=
    Packet.decode_encode_arrived d.packet
  rw [hpacket, Except.ok.injEq, Packet.mk.injEq] at hdecode
  exact ⟨d, hd, x, Dispatch.reads_iff.mpr hdecode.2, hlast.id_eq, htold.kind.symm,
    htold.owner.symm, htold.username.symm⟩

end Replica

/-! ## Avatars -/

/-- The network id of a player's avatar. -/
def World.avatarId? (w : World) (p : UInt8) : Option UInt32 :=
  (w.playerEntity? p).bind (w.registry.get? .networkId)

/-- A player's avatar goes by what can be seen of the name in the slot. -/
theorem World.Embodied.identity?_avatar {w : World} (he : w.Embodied) (hb : w.Bound none)
    {p : UInt8} {slot : Slot} (hslot : w.players.get? p = some slot) :
    ∃ avatar n, w.playerEntity? p = some avatar ∧ w.registry.get? .networkId avatar = some n ∧
      w.identity? avatar = some (n, .player, p, NameField.kept slot.username) := by
  obtain ⟨avatar, hent, havatar, hkind⟩ := World.playerEntity?_of_slot he hb hslot
  obtain ⟨avatar', hent', -, howner⟩ := hb.of_slot hslot (by simp)
  obtain rfl := Option.some.inj (hent.symm.trans hent')
  obtain ⟨n, hid⟩ := he.get?_of_mem hkind (c := .networkId) (by simp [EntityKind.anatomy])
  refine ⟨avatar, n, havatar, hid, ?_⟩
  rw [World.identity?_eq, hid, hkind, howner]
  simp [hslot]

namespace Simulation

/-- Whatever has been announced under a network id is the avatar of a player under a name, and
whoever shows the id shows that. -/
structure Outcome.Shows (o : Outcome) (n : UInt32) (p : UInt8) (name : String) : Prop where
  announced : ∀ d ∈ o.said, ∀ x, d.Reads (.spawn x) → x.networkId = n →
    x.kind = .player ∧ x.owner = p ∧ x.username = name
  mirrored : ∀ m : Replica, m.HeardSpawnsOf o.said → ∀ e, m.get? n = some e →
    e.kind = .player ∧ e.owner = p ∧ e.username = name

variable {settings : Settings} {entropy : Generator} {steps : List Step} {o : Outcome}

/-- Whoever has a slot has come last under the name in it. -/
theorem run_lastComes (h : (start settings entropy).run steps = .ok o) {p : UInt8} {slot : Slot}
    (hslot : o.simulation.world.players.get? p = some slot) :
    LastComes (steps.filterMap Step.event?) p slot.username := by
  have hname : o.simulation.world.roster.name? p = some slot.username := by
    rw [World.name?_roster, hslot]
    rfl
  rw [(sound_start settings entropy).toSettled.roster_run h, Roster.name?_hearAll] at hname
  rcases hname with hlast | ⟨hnone, -⟩
  · exact hlast
  · cases hnone

/-- **Under which name a player is seen.** The avatar of a player is announced and shown under what an
announcement has room for of the name in the slot. -/
theorem run_shows (h : (start settings entropy).run steps = .ok o) (hids : o.ids < 0xffffffff)
    {p : UInt8} {slot : Slot} (hslot : o.simulation.world.players.get? p = some slot) :
    ∃ n, o.simulation.world.avatarId? p = some n ∧ o.Shows n p (NameField.kept slot.username) := by
  have hs := (sound_start settings entropy).run (by omega) h
  obtain ⟨avatar, n, havatar, hid, hidentity⟩ := hs.embodied.identity?_avatar hs.bound hslot
  have hannounced : ∀ d ∈ o.said, ∀ x, d.Reads (.spawn x) → x.networkId = n →
      x.kind = .player ∧ x.owner = p ∧ x.username = NameField.kept slot.username := by
    intro d hd x hx hn
    have htrue := run_identifies h hids hd hx (hn ▸ hid)
    rw [hidentity, Option.some.injEq] at htrue
    simp only [Prod.mk.injEq] at htrue
    exact ⟨htrue.2.1.symm, htrue.2.2.1.symm, htrue.2.2.2.symm⟩
  refine ⟨n, ?_, hannounced, fun m hm e he => ?_⟩
  · rw [World.avatarId?, havatar, Option.bind_some, hid]
  · obtain ⟨d, hd, x, hx, hn, hk, ho, hname⟩ := hm.exists_spawn he
    rw [← hk, ← ho, ← hname]
    exact hannounced d hd x hx hn

end Simulation

/-! ## Sessions as they are seen -/

namespace Gateway

/-- Under which names the players of a gateway are announced to the others and seen by them, when the
simulation has not heard yet of the events that wait. -/
structure Namesakes (g₀ : Gateway) (actions : List Action) (g : Gateway) (heard waiting : List Event)
    (o : Simulation.Outcome) : Prop where
  /-- What is kept of a name that may be had is its longest prefix of at most fifteen bytes, and so all
  of it exactly if it takes up no more. -/
  kept : ∀ name, Control.isValidUsername name = true →
    IsLongestFit 15 name.toList (NameField.kept name).toList ∧
      (NameField.kept name = name ↔ (Utf8.encode name.toList).length ≤ 15)
  /-- A player has been admitted under a name that the others were told. Of this name the avatar of the
  player is announced and shown with what is kept. -/
  player : ∀ {p slot}, o.simulation.world.players.get? p = some slot →
    g₀.AnnouncesName p slot.username actions ∧ LastComes heard p slot.username ∧
      ∃ n, o.simulation.world.avatarId? p = some n ∧ o.Shows n p (NameField.kept slot.username)
  /-- The player of a session has that name, unless it waits to be heard that somebody of this number
  comes or goes. -/
  session : ∀ {t s}, g.sessions.get? t = some s → (∀ e ∈ waiting, ¬ e.Marks s.playerId) →
    ∃ slot, o.simulation.world.players.get? s.playerId = some slot ∧ slot.username = s.username
  /-- Sessions have different names. -/
  distinct : ∀ {t t' s s'}, g.sessions.get? t = some s → g.sessions.get? t' = some s' → t ≠ t' →
    s.username ≠ s'.username ∧ s.playerId ≠ s'.playerId
  /-- Whoever shows the avatars of two sessions shows them under the same name exactly if the same is
  kept of their names, and never if there is room for both. -/
  alike : ∀ {t t' s s' n n'}, g.sessions.get? t = some s → g.sessions.get? t' = some s' → t ≠ t' →
    (∀ e ∈ waiting, ¬ e.Marks s.playerId ∧ ¬ e.Marks s'.playerId) →
    o.simulation.world.avatarId? s.playerId = some n →
    o.simulation.world.avatarId? s'.playerId = some n' →
    ∀ m : Replica, m.HeardSpawnsOf o.said → ∀ e e', m.get? n = some e → m.get? n' = some e' →
      (e.username = e'.username ↔ NameField.kept s.username = NameField.kept s'.username) ∧
      ((Utf8.encode s.username.toList).length ≤ 15 →
        (Utf8.encode s'.username.toList).length ≤ 15 → e.username ≠ e'.username)

/-- **A player is seen under as much of the name as there is room for.** The gateway admits players
under different names and tells them to the others in full. The simulation, whatever part of the
ledger it has heard, announces the avatar of each player under the longest prefix of the name that
takes up at most fifteen bytes, and a client that has read announcements of this server only, in
whatever order, shows what they say. So two players are seen under the same name only if these
prefixes are the same, and not if both names take up at most fifteen bytes. All this holds as long
as fewer than 2³² - 1 network ids have been handed out; after that the ids begin again. -/
theorem run_namesakes {maxPlayers : UInt8} {capacity : Nat} {udpPort : UInt16} {r : Generator}
    {actions : List Action} {g : Gateway} {settings : Settings} {entropy : Generator}
    {steps : List Step} {waiting : List Event} {o : Simulation.Outcome}
    (h : (start maxPlayers capacity udpPort r).run? actions = some g)
    (hopen : .shutDown ∉ actions)
    (ho : (Simulation.start settings entropy).run steps = .ok o) (hids : o.ids < 0xffffffff)
    (hheard : steps.filterMap Step.event? ++ waiting =
      (start maxPlayers capacity udpPort r).history actions) :
    (start maxPlayers capacity udpPort r).Namesakes actions g (steps.filterMap Step.event?) waiting o := by
  have hstart := orderly_start maxPlayers capacity udpPort r
  have hnamed : (start maxPlayers capacity udpPort r).Named := fun hs => by cases hs
  -- a session has the name of its player's latest admission, which the simulation has heard of
  have hsession : ∀ {t s}, g.sessions.get? t = some s → (∀ e ∈ waiting, ¬ e.Marks s.playerId) →
      ∃ slot, o.simulation.world.players.get? s.playerId = some slot ∧
        slot.username = s.username := by
    intro t s hs hunmarked
    have hlast := lastComes_history hopen h hs
    rw [← hheard, lastComes_append] at hlast
    rcases hlast with ⟨hlast, -⟩ | ⟨earlier, later, heq, -⟩
    · have hname := (Roster.name?_hearAll _ ∅ _ _).mpr (.inl hlast)
      rw [← show _ = (∅ : Roster).hearAll _ from
        (Simulation.sound_start settings entropy).toSettled.roster_run ho,
        World.name?_roster] at hname
      exact Option.map_eq_some_iff.mp hname
    · exact absurd (.inl ⟨_, rfl⟩) (hunmarked _ (heq ▸ List.mem_append_right _ List.mem_cons_self))
  -- no two sessions are of one name or of one player
  have hdistinct : ∀ {t t' s s'}, g.sessions.get? t = some s → g.sessions.get? t' = some s' →
      t ≠ t' → s.username ≠ s'.username ∧ s.playerId ≠ s'.playerId := by
    intro t t' s s' hs hs' hne
    exact ⟨fun hname => hne (hnamed.run hstart.toTidy h hs hs' hname),
      fun hid => hne ((hstart.toTidy.run h).distinct hs hs' hid)⟩
  have hvalid : ∀ {t s}, g.sessions.get? t = some s →
      Control.isValidUsername s.username = true := by
    intro t s hs
    obtain ⟨earlier, later, heq, -⟩ := lastComes_history hopen h hs
    exact (hstart.announcesName hopen h
      (heq ▸ List.mem_append_right _ List.mem_cons_self)).isValidUsername
  -- the five fields: only the last one puts the name that is told beside the one that is shown
  constructor
  case kept =>
    intro name hname
    exact ⟨isLongestFit_kept_of_isValidUsername hname, kept_eq_iff_of_isValidUsername hname⟩
  case player =>
    intro p slot hslot
    have hlast := Simulation.run_lastComes ho hslot
    refine ⟨hstart.announcesName hopen h ?_, hlast, Simulation.run_shows ho hids hslot⟩
    obtain ⟨earlier, later, heq, -⟩ := hlast
    rw [← hheard, heq]
    simp
  case session => exact hsession
  case distinct => exact hdistinct
  case alike =>
    intro t t' s s' n n' hs hs' hne hunmarked hn hn' m hm e e' he he'
    -- what is shown of a session is what is kept of its name
    have hshown : ∀ {t s n e}, g.sessions.get? t = some s → (∀ e ∈ waiting, ¬ e.Marks s.playerId) →
        o.simulation.world.avatarId? s.playerId = some n → m.get? n = some e →
          e.username = NameField.kept s.username := by
      intro t s n e hs hunmarked hn he
      obtain ⟨slot, hslot, hname⟩ := hsession hs hunmarked
      obtain ⟨n₁, hn₁, hshows⟩ := Simulation.run_shows ho hids hslot
      obtain rfl := Option.some.inj (hn.symm.trans hn₁)
      rw [← hname]
      exact (hshows.mirrored m hm e he).2.2
    rw [hshown hs (fun e he => (hunmarked e he).1) hn he,
      hshown hs' (fun e he => (hunmarked e he).2) hn' he']
    -- two names that fit are kept as they are, and as names they are different
    refine ⟨.rfl, fun hfits hfits' hsame => (hdistinct hs hs' hne).1 ?_⟩
    rw [(kept_eq_iff_of_isValidUsername (hvalid hs)).mpr hfits,
      (kept_eq_iff_of_isValidUsername (hvalid hs')).mpr hfits'] at hsame
    exact hsame

/-- Where the first of two players is reached. -/
def firstEndpoint : Endpoint := ⟨.v4 (.replicate 4 10), 7001⟩

/-- Two players have names that differ in their last characters. -/
def longNames : List Action := [
  .accept 0,
  .hear 0 (.connect "abcdefghijklmnop" "1.0"),
  .greet 0,
  .accept 1,
  .hear 1 (.connect "abcdefghijklmnoq" "1.0"),
  .greet 1,
  .receive firstEndpoint (⟨7, .ping⟩ : Wire.Packet).encode,
  .receive ⟨.v4 (.replicate 4 10), 7002⟩ (⟨9, .ping⟩ : Wire.Packet).encode]

/-- What the simulation has heard of them, when it has not heard yet where the second one is
reached. -/
def longNamesHeard : List Step := [
  .event (.connected 1 "abcdefghijklmnop"),
  .event (.connected 2 "abcdefghijklmnoq"),
  .event (.udpReady 1 firstEndpoint)]

/-- Both names are valid and both players admitted, and the first player sees neither name in full but
both the same. -/
theorem longNames_look_alike :
    Control.isValidUsername "abcdefghijklmnop" = true ∧
    NameField.kept "abcdefghijklmnop" ≠ "abcdefghijklmnop" ∧
    ∃ g o m, (start 4 8 7000 (.cycle [7, 9])).run? longNames = some g ∧
      (g.sessions.get? 7).map Session.username = some "abcdefghijklmnop" ∧
      (g.sessions.get? 9).map Session.username = some "abcdefghijklmnoq" ∧
      (Simulation.start .default (.ofSeed 0)).run longNamesHeard = .ok o ∧
      Replica.empty.hearAll (bytesFor firstEndpoint o.said) = .ok m ∧
      (m.get? 1).map (fun e => (e.owner, e.username)) = some (1, "abcdefghijklmno") ∧
      (m.get? 2).map (fun e => (e.owner, e.username)) = some (2, "abcdefghijklmno") := by
  have hkept : Control.isValidUsername "abcdefghijklmnop" = true ∧
      NameField.kept "abcdefghijklmnop" ≠ "abcdefghijklmnop" := by decide +kernel
  have hadmitted : ((start 4 8 7000 (.cycle [7, 9])).run? longNames).map (fun g =>
      ((g.sessions.get? 7).map Session.username, (g.sessions.get? 9).map Session.username)) =
      some (some "abcdefghijklmnop", some "abcdefghijklmnoq") := by decide +kernel
  obtain ⟨g, hg, hnames⟩ := Option.map_eq_some_iff.mp hadmitted
  obtain ⟨hname, hname'⟩ := Prod.mk.inj hnames
  let s : Simulation := ((Simulation.start .default (.ofSeed 0)).handle
    (.connected 1 "abcdefghijklmnop")).handle (.connected 2 "abcdefghijklmnoq")
  have hrun : (Simulation.start .default (.ofSeed 0)).run longNamesHeard =
      .ok ⟨s.welcome 1 firstEndpoint, [], 2⟩ := rfl
  have hslot : s.world.players.get? 1 =
      some ⟨"abcdefghijklmnop", some ⟨0⟩, none, none, none⟩ := by decide +kernel
  -- the ids ascend already, so that nothing has to be sorted
  have hnetworked : (s.reached 1 firstEndpoint).networked = [(1, ⟨0⟩), (2, ⟨1⟩)] := by
    rw [World.networked, List.mergeSort_of_pairwise (by decide +kernel)]
    decide +kernel
  have hsaid : (⟨s.welcome 1 firstEndpoint, [], 2⟩ : Simulation.Outcome).said =
      Simulation.catchUp (s.reached 1 firstEndpoint) (some ⟨0⟩) firstEndpoint ++
        Simulation.introduction (s.reached 1 firstEndpoint) (some ⟨0⟩) := by
    rw [Simulation.welcome_of_some hslot]
    rfl
  rw [Simulation.catchUp, hnetworked] at hsaid
  refine ⟨hkept.1, hkept.2, g, _, _, hg, hname, hname', hrun, Replica.hearAll_bytesFor _ _ _, ?_, ?_⟩
  · rw [hsaid]
    decide +kernel
  · rw [hsaid]
    decide +kernel

theorem run_namesakes_of_longNames : ∃ g o n n' m,
    (start 4 8 7000 (.cycle [7, 9])).run? longNames = some g ∧ .shutDown ∉ longNames ∧
    (Simulation.start .default (.ofSeed 0)).run longNamesHeard = .ok o ∧ o.ids < 0xffffffff ∧
    longNamesHeard.filterMap Step.event? ++ [.udpReady 2 ⟨.v4 (.replicate 4 10), 7002⟩] =
      (start 4 8 7000 (.cycle [7, 9])).history longNames ∧
    (start 4 8 7000 (.cycle [7, 9])).AnnouncesName 1 "abcdefghijklmnop" longNames ∧
    (start 4 8 7000 (.cycle [7, 9])).AnnouncesName 2 "abcdefghijklmnoq" longNames ∧
    o.simulation.world.avatarId? 1 = some n ∧ o.simulation.world.avatarId? 2 = some n' ∧
    o.Shows n 1 "abcdefghijklmno" ∧ o.Shows n' 2 "abcdefghijklmno" ∧
    Replica.empty.hearAll (bytesFor firstEndpoint o.said) = .ok m ∧
    (∀ e, m.get? n = some e → e.username = "abcdefghijklmno") ∧
    ∀ e, m.get? n' = some e → e.username = "abcdefghijklmno" := by
  have hadmitted : ((start 4 8 7000 (.cycle [7, 9])).run? longNames).map (fun g =>
      (g.sessions.get? 7, g.sessions.get? 9)) =
      some (some ⟨1, 7, "abcdefghijklmnop", some firstEndpoint⟩,
        some ⟨2, 9, "abcdefghijklmnoq", some ⟨.v4 (.replicate 4 10), 7002⟩⟩) := by decide +kernel
  obtain ⟨g, hg, hsessions⟩ := Option.map_eq_some_iff.mp hadmitted
  obtain ⟨hs, hs'⟩ := Prod.mk.inj hsessions
  obtain ⟨o, ho, hids⟩ : ∃ o, (Simulation.start .default (.ofSeed 0)).run longNamesHeard = .ok o ∧
      o.ids = 2 := Simulation.exists_outcome (by decide +kernel)
  have hopen : .shutDown ∉ longNames := by decide +kernel
  have hlt : o.ids < 0xffffffff := by omega
  have hheard : longNamesHeard.filterMap Step.event? ++
      [.udpReady 2 ⟨.v4 (.replicate 4 10), 7002⟩] =
        (start 4 8 7000 (.cycle [7, 9])).history longNames := by decide +kernel
  have hseen := run_namesakes hg hopen ho hlt hheard
  obtain ⟨slot, hslot, hname⟩ := hseen.session hs (by simp [Event.Marks])
  obtain ⟨slot', hslot', hname'⟩ := hseen.session hs' (by simp [Event.Marks])
  obtain ⟨hannounces, -, n, hn, hshows⟩ := hseen.player hslot
  obtain ⟨hannounces', -, n', hn', hshows'⟩ := hseen.player hslot'
  have hkept : NameField.kept "abcdefghijklmnop" = "abcdefghijklmno" ∧
      NameField.kept "abcdefghijklmnoq" = "abcdefghijklmno" := by decide +kernel
  rw [hname] at hannounces hshows
  rw [hname'] at hannounces' hshows'
  -- each of the two is shown under what is kept of the name
  rw [hkept.1] at hshows
  rw [hkept.2] at hshows'
  have hhears := Replica.hearAll_bytesFor .empty firstEndpoint o.said
  have hheardSpawnsOf := Replica.heardSpawnsOf_of_hearAll_bytesFor hhears
  exact ⟨g, o, n, n', _, hg, hopen, ho, hlt, hheard, hannounces, hannounces', hn, hn', hshows,
    hshows', hhears, fun e he => (hshows.mirrored _ hheardSpawnsOf e he).2.2,
    fun e he => (hshows'.mirrored _ hheardSpawnsOf e he).2.2⟩

end Gateway

end Skirmish
