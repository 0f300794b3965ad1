import Skirmish.Proofs.Ledger
import Skirmish.Proofs.Roster
/-!
# The gateway and the simulation keep the same books

The gateway has its sessions and the simulation its slots, and all that passes between them is the
ledger. Nevertheless the two agree at all times (`Gateway.Agrees`): whoever has a session has a
slot once the ledger has been heard, under the same name and with the same endpoint, and nobody else
has. And no input strays: it stands in the ledger between the coming and the going of the player whose
session the datagram belonged to, even if the number of the player is given to others before and after.

The invariant that both rest on is `Orderly`. It says why a number and a token each belong to one
session only, and that a session does not end behind the back of the connection that holds it. This much
(`Tidy`) does not depend on the queue.
-/

namespace Skirmish

/-! ## What tells nothing of who takes part -/

/-- The player comes or goes. -/
def Event.Marks (e : Event) (p : UInt8) : Prop :=
  (∃ username, e = .connected p username) ∨ e = .disconnected p

theorem Roster.hearAll_inputs (r : Roster) {inputs : List Event} {p : UInt8}
    (h : ∀ e ∈ inputs, ∃ i, e = .input p i) : r.hearAll inputs = r := by
  induction inputs with
  | nil => rfl
  | cons e rest ih =>
    obtain ⟨i, rfl⟩ := h e List.mem_cons_self
    exact ih fun e he => h e (List.mem_cons_of_mem _ he)

/-- What a datagram tells of the endpoint is that it is where the datagram came from. -/
theorem Roster.hearAll_endpointEvents {r : Roster} {s : Session} (source : Endpoint)
    (h : r.get? s.playerId = some (s.username, s.endpoint)) :
    r.hearAll (Gateway.endpointEvents s.playerId source (SessionTable.updateOf s source)) =
      r.modify s.playerId fun c => (c.1, some source) := by
  unfold SessionTable.updateOf
  split
  · rfl
  · rename_i previous hprevious
    split
    · rename_i hsame
      -- nothing is told, and nothing has to be
      refine SortedMap.ext_get? fun q => ?_
      rw [SortedMap.get?_modify]
      show r.get? q = _
      split
      · rename_i hq
        rw [← hq, h, hprevious, hsame]
        rfl
      · rfl
    · rfl

namespace Gateway

variable {g g' : Gateway} {a : Action} {told : List Event}

/-! ## The invariant -/

/-- The sessions are in order, and so are the connections that hold them. -/
structure Tidy (g : Gateway) : Prop where
  /-- A player has one session. -/
  distinct : ∀ {t t' s s'}, g.sessions.get? t = some s → g.sessions.get? t' = some s' →
    s.playerId = s'.playerId → t = t'
  /-- What a connection holds is in the table. -/
  held : ∀ {n s}, g.holder? n = some s →
    ∃ s', g.sessions.get? s.token = some s' ∧ s'.playerId = s.playerId
  /-- A session is held by one connection. -/
  sole : ∀ {n n' s s'}, g.holder? n = some s → g.holder? n' = some s' →
    s.token = s'.token → n = n'

/-- All is in order, and the simulation is still there. -/
structure Orderly (g : Gateway) : Prop extends Tidy g where
  isOpen : g.queue.isOpen = true

theorem orderly_start (maxPlayers : UInt8) (capacity : Nat) (udpPort : UInt16) (r : Generator) :
    (start maxPlayers capacity udpPort r).Orderly := by
  refine ⟨⟨fun h => ?_, fun h => ?_, fun h => ?_⟩, rfl⟩
  · cases h
  · cases h
  · cases h

/-- A session is opened, and a connection holds it. -/
theorem Tidy.opened (hg : g.Tidy) {n : Nat} {new : Session}
    (fresh : g.sessions.get? new.token = none)
    (free : ∀ t s', g.sessions.get? t = some s' → s'.playerId ≠ new.playerId)
    (sessions : g'.sessions.byToken = g.sessions.byToken.insert new.token new)
    (holder : ∀ k, g'.holder? k = if n = k then some new else g.holder? k) : g'.Tidy := by
  have hget := get?_opened sessions
  -- whoever else holds a session holds an older one
  have hother : ∀ {k s}, g.holder? k = some s → new.token ≠ s.token := by
    intro k s h e
    obtain ⟨s', hs', -⟩ := hg.held h
    rw [← e, fresh] at hs'
    cases hs'
  refine ⟨?_, ?_, ?_⟩
  · -- the number of the new session was free
    intro t t' s s' h h' hid
    rw [hget] at h h'
    split at h <;> split at h'
    · rename_i ht ht'
      exact ht.symm.trans ht'
    · obtain rfl := Option.some.inj h
      exact absurd hid.symm (free t' s' h')
    · obtain rfl := Option.some.inj h'
      exact absurd hid (free t s h)
    · exact hg.distinct h h' hid
  · intro k s h
    rw [holder] at h
    rw [hget]
    split at h
    · obtain rfl := Option.some.inj h
      exact ⟨new, if_pos rfl, rfl⟩
    · rw [if_neg (hother h)]
      exact hg.held h
  · -- and so was its token
    intro k k' s s' h h' ht
    rw [holder] at h h'
    split at h <;> split at h'
    · rename_i hk hk'
      exact hk.symm.trans hk'
    · obtain rfl := Option.some.inj h
      exact absurd ht (hother h')
    · obtain rfl := Option.some.inj h'
      exact absurd ht.symm (hother h)
    · exact hg.sole h h' ht

/-- The session of a connection ends. -/
theorem Tidy.closed (hg : g.Tidy) {n : Nat} {old : Session} (held : g.holder? n = some old)
    (sessions : g'.sessions = g.sessions.close old.token)
    (holder : ∀ k, g'.holder? k = if n = k then none else g.holder? k) : g'.Tidy := by
  -- there are fewer sessions, each as it was, so whatever told two of them apart still does
  have hget := get?_closed sessions
  refine ⟨?_, ?_, ?_⟩
  · intro t t' s s' h h' hid
    rw [hget] at h h'
    split at h
    · cases h
    · split at h'
      · cases h'
      · exact hg.distinct h h' hid
  · -- what the other connections hold is not what has ended
    intro k s h
    rw [holder] at h
    split at h
    · cases h
    · rename_i hk
      have hne : old.token ≠ s.token := fun ht => hk (hg.sole held h ht)
      rw [hget, if_neg hne]
      exact hg.held h
  · intro k k' s s' h h' ht
    rw [holder] at h h'
    split at h
    · cases h
    · split at h'
      · cases h'
      · exact hg.sole h h' ht

/-- Sessions change, but neither their tokens nor their players. -/
theorem Tidy.of_players (hg : g.Tidy)
    (sessions : ∀ t, (g'.sessions.get? t).map Session.playerId =
      (g.sessions.get? t).map Session.playerId)
    (holder : ∀ k, g'.holder? k = g.holder? k) : g'.Tidy := by
  -- a session afterwards was one before, of the same player
  have hback : ∀ {t s}, g'.sessions.get? t = some s →
      ∃ s₀, g.sessions.get? t = some s₀ ∧ s₀.playerId = s.playerId := by
    intro t s h
    have hmap := sessions t
    rw [h, Option.map_some] at hmap
    exact Option.map_eq_some_iff.mp hmap.symm
  refine ⟨?_, ?_, ?_⟩
  · intro t t' s s' h h' hid
    obtain ⟨s₀, h₀, hid₀⟩ := hback h
    obtain ⟨s₁, h₁, hid₁⟩ := hback h'
    exact hg.distinct h₀ h₁ (by rw [hid₀, hid, hid₁])
  · intro n s h
    rw [holder] at h
    obtain ⟨s', hs', hid⟩ := hg.held h
    have hmap := sessions s.token
    rw [hs', Option.map_some, hid] at hmap
    exact Option.map_eq_some_iff.mp hmap
  · intro n n' s s' h h'
    rw [holder] at h h'
    exact hg.sole h h'

/-- Every change keeps the order. -/
theorem Tidy.change (hg : g.Tidy) (hc : g.Change a told g') : g'.Tidy := by
  cases hc with
  | still sessions holder => exact hg.of_players (fun t => by rw [sessions]) holder
  | opened fresh free _ sessions holder => exact hg.opened fresh free sessions holder
  | closed held sessions holder => exact hg.closed held sessions holder
  | touched _ _ sessions holder _ =>
    refine hg.of_players (fun t => ?_) holder
    rw [get?_touched sessions]
    split
    · rw [Option.map_map]
      rfl
    · rfl

/-- What a step of an orderly gateway is. -/
theorem Orderly.advances (hg : g.Orderly) (ha : a ≠ .shutDown) (h : g.step? a = some g') :
    g.Advances a g' := by
  refine step_advances hg.isOpen ha (fun n s hs => ?_) h
  obtain ⟨s', hs', -⟩ := hg.held hs
  rw [hs']
  rfl

theorem Orderly.step (hg : g.Orderly) (ha : a ≠ .shutDown) (h : g.step? a = some g') :
    g'.Orderly :=
  ⟨hg.change (hg.advances ha h).change, (hg.advances ha h).isOpen⟩

theorem Orderly.run {actions : List Action} (hg : g.Orderly) (hopen : .shutDown ∉ actions)
    (h : g.run? actions = some g') : g'.Orderly := by
  induction actions generalizing g with
  | nil =>
    obtain rfl := Option.some.inj h
    exact hg
  | cons a rest ih =>
    obtain ⟨g₁, ha, hrest⟩ := run?_cons h
    rw [List.mem_cons, not_or] at hopen
    exact ih (hg.step (Ne.symm hopen.1) ha) hopen.2 hrest

/-- What waited, and what is told, is taken or still waits, in the same order. -/
theorem Orderly.queue_run {actions : List Action} (hg : g.Orderly) (hopen : .shutDown ∉ actions)
    (h : g.run? actions = some g') :
    g.queue.events ++ g.history actions = g.taken actions ++ g'.queue.events := by
  induction actions generalizing g with
  | nil =>
    obtain rfl := Option.some.inj h
    exact List.append_nil _
  | cons a rest ih =>
    obtain ⟨g₁, ha, hrest⟩ := run?_cons h
    rw [List.mem_cons, not_or] at hopen
    have hstep := hg.advances (Ne.symm hopen.1) ha
    have htaken : g.taken (a :: rest) =
        (if a = .handOver then g.queue.events.take 1 else []) ++ g₁.taken rest := by
      rw [taken, ha]
    rw [history_cons ha, ← List.append_assoc, hstep.queue, List.append_assoc,
      ih (hg.step (Ne.symm hopen.1) ha) hopen.2 hrest, htaken, List.append_assoc]

/-! ## The same players -/

/-- A roster has whoever has a session, under the same name and with the same endpoint. -/
def RosterMatches (g : Gateway) (r : Roster) : Prop :=
  ∀ p c, r.get? p = some c ↔
    ∃ t s, g.sessions.get? t = some s ∧ s.playerId = p ∧ (s.username, s.endpoint) = c

theorem rosterMatches_start (maxPlayers : UInt8) (capacity : Nat) (udpPort : UInt16) (r : Generator) :
    (start maxPlayers capacity udpPort r).RosterMatches ∅ := by
  intro p c
  refine iff_of_false (fun h => ?_) ?_
  · cases h
  · intro hex
    obtain ⟨t, s, h, -⟩ := hex
    cases h

/-- The table changes under one token and the roster for one player, who is the player of that token
and of no other. -/
theorem RosterMatches.update {r r' : Roster} (ht : g.RosterMatches r) (token : UInt32) (p : UInt8)
    (hoff : ∀ t, t ≠ token → g'.sessions.get? t = g.sessions.get? t)
    (hmine : ∀ s, g.sessions.get? token = some s → s.playerId = p)
    (hmine' : ∀ s, g'.sessions.get? token = some s → s.playerId = p)
    (hothers : ∀ t s, t ≠ token → g.sessions.get? t = some s → s.playerId ≠ p)
    (hroff : ∀ q, q ≠ p → r'.get? q = r.get? q)
    (hr : r'.get? p = (g'.sessions.get? token).map fun s => (s.username, s.endpoint)) :
    g'.RosterMatches r' := by
  intro q c
  -- only the entry of this player and the session under this token may be different
  by_cases hq : q = p
  · subst hq
    rw [hr, Option.map_eq_some_iff]
    constructor
    · intro hex
      obtain ⟨s, hs, hc⟩ := hex
      exact ⟨token, s, hs, hmine' s hs, hc⟩
    · intro hex
      obtain ⟨t, s, hs, hid, hc⟩ := hex
      by_cases htoken : t = token
      · exact ⟨s, htoken ▸ hs, hc⟩
      · -- other tokens are of other players, so this entry is told by the one session alone
        rw [hoff t htoken] at hs
        exact absurd hid (hothers t s htoken hs)
  · rw [hroff q hq, ht q c]
    constructor
    · intro hex
      obtain ⟨t, s, hs, hid, hc⟩ := hex
      -- and the session under this token is of this player, before and afterwards
      have htoken : t ≠ token := by
        intro heq
        subst heq
        exact hq (hid.symm.trans (hmine s hs))
      exact ⟨t, s, by rw [hoff t htoken, hs], hid, hc⟩
    · intro hex
      obtain ⟨t, s, hs, hid, hc⟩ := hex
      have htoken : t ≠ token := by
        intro heq
        subst heq
        exact hq (hid.symm.trans (hmine' s hs))
      rw [hoff t htoken] at hs
      exact ⟨t, s, hs, hid, hc⟩

/-- The table changes and the roster hears what is told. -/
theorem Orderly.rosterMatches_change (hg : g.Orderly) {r : Roster} (ht : g.RosterMatches r)
    (hc : g.Change a told g') : g'.RosterMatches (r.hearAll told) := by
  cases hc with
  | still sessions holder =>
    intro p c
    rw [sessions]
    exact ht p c
  | @opened n _ _ new _ fresh free endpoint sessions holder =>
    have hget := get?_opened sessions
    have hnew : g'.sessions.get? new.token = some new := by
      rw [hget, if_pos rfl]
    show g'.RosterMatches (r.insert new.playerId (new.username, none))
    -- a new session: its token was free, and so was the number of its player
    refine ht.update new.token new.playerId (fun t htoken => ?_) (fun s hs => ?_) (fun s hs => ?_)
      (fun t s _ hs => free t s hs) (fun q hq => ?_) ?_
    · rw [hget, if_neg (Ne.symm htoken)]
    · rw [fresh] at hs
      cases hs
    · rw [hnew, Option.some.injEq] at hs
      rw [← hs]
    · rw [SortedMap.get?_insert, if_neg (Ne.symm hq)]
    · rw [SortedMap.get?_insert_self, hnew, Option.map_some, endpoint]
  | @closed n old _ held sessions holder =>
    have hget := get?_closed sessions
    obtain ⟨s₀, hs₀, hid₀⟩ := hg.held held
    have hgone : g'.sessions.get? old.token = none := by
      rw [hget, if_pos rfl]
    show g'.RosterMatches (r.erase old.playerId)
    -- a session that ends: no other one is of the same player, so the whole entry goes
    refine ht.update old.token old.playerId (fun t htoken => ?_) (fun s hs => ?_) (fun s hs => ?_)
      (fun t s htoken hs hid => ?_) (fun q hq => ?_) ?_
    · rw [hget, if_neg (Ne.symm htoken)]
    · rw [hs₀, Option.some.injEq] at hs
      rw [← hs, hid₀]
    · rw [hgone] at hs
      cases hs
    · exact htoken (hg.distinct hs hs₀ (hid.trans hid₀.symm))
    · exact SortedMap.get?_erase_of_ne _ hq
    · rw [SortedMap.get?_erase, if_pos rfl, hgone, Option.map_none]
  | @touched source _ _ header mine _ _ valid hmine sessions holder inputs_only =>
    have hget := get?_touched sessions
    -- the player is on the roster already, as the session says
    have hcard : r.get? mine.playerId = some (mine.username, mine.endpoint) :=
      (ht _ _).mpr ⟨header.token, mine, hmine, rfl, rfl⟩
    have hnew : g'.sessions.get? header.token = some { mine with endpoint := some source } := by
      rw [hget, if_pos rfl, hmine, Option.map_some]
    rw [Roster.hearAll_append, Roster.hearAll_inputs _ inputs_only,
      Roster.hearAll_endpointEvents source hcard]
    refine ht.update header.token mine.playerId (fun t htoken => ?_) (fun s hs => ?_) (fun s hs => ?_)
      (fun t s htoken hs hid => ?_) (fun q hq => ?_) ?_
    · rw [hget, if_neg (Ne.symm htoken)]
    · rw [hmine, Option.some.injEq] at hs
      rw [← hs]
    · rw [hnew, Option.some.injEq] at hs
      rw [← hs]
    · exact htoken (hg.distinct hs hmine hid)
    · rw [SortedMap.get?_modify, if_neg (Ne.symm hq)]
    · rw [SortedMap.get?_modify, if_pos rfl, hcard, hnew, Option.map_some, Option.map_some]

theorem Orderly.rosterMatches_run {actions : List Action} (hg : g.Orderly) {r : Roster}
    (ht : g.RosterMatches r) (hopen : .shutDown ∉ actions) (h : g.run? actions = some g') :
    g'.RosterMatches (r.hearAll (g.history actions)) := by
  induction actions generalizing g r with
  | nil =>
    obtain rfl := Option.some.inj h
    exact ht
  | cons a rest ih =>
    obtain ⟨g₁, ha, hrest⟩ := run?_cons h
    rw [List.mem_cons, not_or] at hopen
    rw [history_cons ha, Roster.hearAll_append]
    exact ih (hg.step (Ne.symm hopen.1) ha)
      (hg.rosterMatches_change ht (hg.advances (Ne.symm hopen.1) ha).change) hopen.2 hrest

/-- The players of the world are those of the sessions, ascending, with the same names and
endpoints. -/
def Agrees (g : Gateway) (w : World) : Prop :=
  w.players.toList.map (fun e => (e.1, e.2.username, e.2.endpoint)) =
    g.sessions.sessions.map fun s => (s.playerId, s.username, s.endpoint)

/-- The sessions ascend, for no two have the same number. -/
theorem Orderly.ascending_sessions (hg : g.Orderly) :
    Ascending (g.sessions.sessions.map fun s => (s.playerId, s.username, s.endpoint)) := by
  -- the table is ordered by tokens; by players it is strictly ordered since no two have one number
  have hne : g.sessions.byToken.values.Pairwise fun s s' => s.playerId ≠ s'.playerId := by
    rw [SortedMap.values, List.pairwise_map]
    refine g.sessions.byToken.ascending.imp_of_mem fun {e e'} he he' hlt hid => ?_
    have htoken := hg.distinct (SortedMap.get?_eq_some_iff.mpr he)
      (SortedMap.get?_eq_some_iff.mpr he') hid
    rw [htoken] at hlt
    exact Nat.lt_irrefl _ hlt
  have hsorted : g.sessions.sessions.Pairwise fun s s' => s.playerId ≤ s'.playerId := by
    have h : g.sessions.sessions.Pairwise fun s s' => decide (s.playerId ≤ s'.playerId) = true := by
      refine List.pairwise_mergeSort (fun a b c hab hbc => ?_) (fun a b => ?_) _
      · rw [decide_eq_true_eq] at hab hbc ⊢
        exact UInt8.le_trans hab hbc
      · rw [Bool.or_eq_true, decide_eq_true_eq, decide_eq_true_eq]
        exact UInt8.le_total _ _
    exact h.imp fun h => of_decide_eq_true h
  have hne' : g.sessions.sessions.Pairwise fun s s' => s.playerId ≠ s'.playerId :=
    ((List.mergeSort_perm _ _).pairwise_iff fun h => Ne.symm h).mpr hne
  unfold Ascending
  rw [List.pairwise_map]
  refine (hsorted.and hne').imp fun {s s'} h => ?_
  have hle : s.playerId.toNat ≤ s'.playerId.toNat := UInt8.le_iff_toNat_le.mp h.1
  have hne : s.playerId.toNat ≠ s'.playerId.toNat := fun e => h.2 (UInt8.toNat_inj.mp e)
  show s.playerId.toNat < s'.playerId.toNat
  omega

theorem Orderly.agrees (hg : g.Orderly) {w : World} (ht : g.RosterMatches w.roster) : g.Agrees w := by
  have hmem : ∀ s, s ∈ g.sessions.sessions ↔ ∃ t, g.sessions.get? t = some s := by
    intro s
    rw [SessionTable.sessions, List.mem_mergeSort, SortedMap.values, List.mem_map]
    constructor
    · intro hex
      obtain ⟨⟨t, s'⟩, h, rfl⟩ := hex
      exact ⟨t, SortedMap.get?_eq_some_iff.mpr h⟩
    · intro hex
      obtain ⟨t, h⟩ := hex
      exact ⟨(t, s), SortedMap.get?_eq_some_iff.mp h, rfl⟩
  -- both lists are in order of the players, so it is enough that they have the same members
  refine SortedMap.eq_of_ascending_of_mem_iff w.roster.ascending hg.ascending_sessions fun e => ?_
  obtain ⟨p, c⟩ := e
  show (p, c) ∈ w.roster.toList ↔ _
  rw [← SortedMap.get?_eq_some_iff, ht p c, List.mem_map]
  constructor
  · intro hex
    obtain ⟨t, s, hs, rfl, rfl⟩ := hex
    exact ⟨s, (hmem s).mpr ⟨t, hs⟩, rfl⟩
  · intro hex
    obtain ⟨s, hs, heq⟩ := hex
    obtain ⟨t, hs⟩ := (hmem s).mp hs
    obtain ⟨hid, hcard⟩ := Prod.mk.inj heq
    exact ⟨t, s, hs, hid, hcard⟩

/-! ## The life of a session -/

/-- The session of a token is in the table, with this player and name. -/
def Has (g : Gateway) (token : UInt32) (p : UInt8) (username : String) : Prop :=
  ∃ s, g.sessions.get? token = some s ∧ s.playerId = p ∧ s.username = username

/-- The session is in the table during all of these steps, and meanwhile the player neither comes nor
goes. -/
structure Lasts (g : Gateway) (token : UInt32) (p : UInt8) (username : String)
    (actions : List Action) : Prop where
  has : ∀ k g', g.run? (actions.take k) = some g' → g'.Has token p username
  unmarked : ∀ e ∈ g.history actions, ¬ e.Marks p

/-- One of these steps opens the session and tells of the player's coming, and from then on the
session lasts. -/
def Opens (g : Gateway) (token : UInt32) (p : UInt8) (username : String)
    (actions : List Action) : Prop :=
  ∃ before a after g₁ g₂, actions = before ++ a :: after ∧ g.run? before = some g₁ ∧
    g₁.sessions.get? token = none ∧ g₁.step? a = some g₂ ∧
    g₁.told a = [.connected p username] ∧ g₂.Lasts token p username after

/-- The session lasts until one of these steps closes it and tells of the player's going. -/
def Closes (g : Gateway) (token : UInt32) (p : UInt8) (username : String)
    (actions : List Action) : Prop :=
  ∃ before n after g₁ g₂, actions = before ++ .depart n :: after ∧
    g.Lasts token p username before ∧ g.run? before = some g₁ ∧
    g₁.step? (.depart n) = some g₂ ∧ g₁.told (.depart n) = [.disconnected p] ∧
    g₂.sessions.get? token = none

variable {token : UInt32} {p : UInt8} {username : String} {rest : List Action}

theorem lasts_nil (h : g.Has token p username) : g.Lasts token p username [] where
  has k g' h' := by
    rw [List.take_nil] at h'
    obtain rfl := Option.some.inj h'
    exact h
  unmarked e he := absurd he (by simp [history])

/-- A session lasts through a step and the steps that follow. -/
theorem Lasts.cons (h : g'.Lasts token p username rest) (hg : g.Has token p username)
    (ha : g.step? a = some g') (htold : ∀ e ∈ g.told a, ¬ e.Marks p) :
    g.Lasts token p username (a :: rest) where
  has k g₁ h' := by
    cases k with
    | zero =>
      obtain rfl := Option.some.inj h'
      exact hg
    | succ k =>
      obtain ⟨g₂, ha', hrest⟩ := run?_cons h'
      rw [ha, Option.some.injEq] at ha'
      subst ha'
      exact h.has k g₁ hrest
  unmarked e he := by
    rw [history_cons ha] at he
    rcases List.mem_append.mp he with he | he
    · exact htold e he
    · exact h.unmarked e he

theorem Lasts.now (h : g.Lasts token p username rest) : g.Has token p username :=
  h.has 0 g rfl

/-- What is told of a datagram marks nobody. -/
theorem not_marks_of_touched {q : UInt8} {source : Endpoint} {s : Session} {inputs : List Event}
    (hinputs : ∀ e ∈ inputs, ∃ i, e = .input s.playerId i) (e : Event)
    (he : e ∈ endpointEvents s.playerId source (SessionTable.updateOf s source) ++ inputs) :
    ¬ e.Marks q := by
  rcases List.mem_append.mp he with he | he
  · unfold endpointEvents at he
    split at he
    · obtain rfl := List.mem_singleton.mp he
      simp [Event.Marks]
    · obtain rfl := List.mem_singleton.mp he
      simp [Event.Marks]
    · exact absurd he (by simp)
  · obtain ⟨i, rfl⟩ := hinputs e he
    simp [Event.Marks]

/-- A session is there after a step because it was there before, and then the step marks its player in
no way, or because the step has opened it. -/
theorem Tidy.has_before (hg : g.Tidy) (hc : g.Change a told g')
    (h : g'.Has token p username) :
    g.Has token p username ∧ (∀ e ∈ told, ¬ e.Marks p) ∨
      g.sessions.get? token = none ∧ told = [.connected p username] := by
  obtain ⟨s, hs, hid, hname⟩ := h
  -- a session afterwards is an older one or the one that is opened, by the table
  cases hc with
  | still sessions _ =>
    rw [sessions] at hs
    exact .inl ⟨⟨s, hs, hid, hname⟩, by simp⟩
  | @opened n _ _ new _ fresh free _ sessions _ =>
    rw [get?_opened sessions] at hs
    split at hs
    · rename_i htoken
      obtain rfl := Option.some.inj hs
      refine .inr ⟨htoken ▸ fresh, ?_⟩
      rw [hid, hname]
    · -- the news is of the newcomer, who has another number
      have hne : s.playerId ≠ new.playerId := free token s hs
      refine .inl ⟨⟨s, hs, hid, hname⟩, ?_⟩
      intro e he
      obtain rfl := List.mem_singleton.mp he
      intro hor
      rcases hor with ⟨_, heq⟩ | heq
      · obtain ⟨rfl, -⟩ := Event.connected.inj heq
        exact hne hid
      · cases heq
  | @closed n old _ held sessions _ =>
    rw [get?_closed sessions] at hs
    split at hs
    · cases hs
    · rename_i htoken
      -- the news is of whoever leaves, and no other session is of the same player
      obtain ⟨s₀, hs₀, hid₀⟩ := hg.held held
      refine .inl ⟨⟨s, hs, hid, hname⟩, ?_⟩
      intro e he
      obtain rfl := List.mem_singleton.mp he
      intro hor
      rcases hor with ⟨_, heq⟩ | heq
      · cases heq
      · obtain rfl := Event.disconnected.inj heq
        exact htoken (hg.distinct hs₀ hs (hid₀.trans hid.symm))
  | @touched source _ _ header mine _ _ valid hmine sessions _ inputs_only =>
    rw [get?_touched sessions] at hs
    refine .inl ⟨?_, fun e he => not_marks_of_touched inputs_only e he⟩
    split at hs
    · obtain ⟨s₀, hs₀, rfl⟩ := Option.map_eq_some_iff.mp hs
      exact ⟨s₀, hs₀, hid, hname⟩
    · exact ⟨s, hs, hid, hname⟩

/-- A session that is there before a step is there afterwards, or its connection departs. -/
theorem Tidy.has_after (hg : g.Tidy) (hc : g.Change a told g')
    (h : g.Has token p username) :
    g'.Has token p username ∨
      (∃ n, a = .depart n) ∧ told = [.disconnected p] ∧ g'.sessions.get? token = none := by
  obtain ⟨s, hs, hid, hname⟩ := h
  -- a session lasts through every step but the one that closes it
  cases hc with
  | still sessions _ =>
    refine .inl ⟨s, ?_, hid, hname⟩
    rw [sessions, hs]
  | @opened n _ _ new _ fresh free _ sessions _ =>
    -- the new token was free, and this one was not
    have hne : new.token ≠ token := by
      intro heq
      subst heq
      rw [fresh] at hs
      cases hs
    refine .inl ⟨s, ?_, hid, hname⟩
    rw [get?_opened sessions, if_neg hne, hs]
  | @closed n old _ held sessions _ =>
    obtain ⟨s₀, hs₀, hid₀⟩ := hg.held held
    by_cases htoken : old.token = token
    · subst htoken
      rw [hs₀, Option.some.injEq] at hs
      subst hs
      refine .inr ⟨⟨n, rfl⟩, by rw [← hid₀, hid], ?_⟩
      rw [get?_closed sessions, if_pos rfl]
    · refine .inl ⟨s, ?_, hid, hname⟩
      rw [get?_closed sessions, if_neg htoken, hs]
  | @touched source _ _ header mine _ _ valid hmine sessions _ inputs_only =>
    have hget := get?_touched sessions token
    split at hget
    · -- a datagram changes the endpoint of a session and neither its player nor its name
      rw [hs, Option.map_some] at hget
      exact .inl ⟨_, hget, hid, hname⟩
    · exact .inl ⟨s, by rw [hget, hs], hid, hname⟩

/-- A session that is there after some steps was opened by one of them, or has lasted all along. -/
theorem Orderly.opens_of_has {actions : List Action} (hg : g.Orderly)
    (hopen : .shutDown ∉ actions) (h : g.run? actions = some g') (hh : g'.Has token p username) :
    g.Lasts token p username actions ∨ g.Opens token p username actions := by
  induction actions generalizing g with
  | nil =>
    obtain rfl := Option.some.inj h
    exact .inl (lasts_nil hh)
  | cons a rest ih =>
    obtain ⟨g₁, ha, hrest⟩ := run?_cons h
    rw [List.mem_cons, not_or] at hopen
    have hstep := hg.advances (Ne.symm hopen.1) ha
    rcases ih (hg.step (Ne.symm hopen.1) ha) hopen.2 hrest with hlasts | hopens
    · rcases hg.has_before hstep.change hlasts.now with ⟨hbefore, htold⟩ | ⟨hnone, htold⟩
      · exact .inl (hlasts.cons hbefore ha htold)
      · exact .inr ⟨[], a, rest, g, g₁, rfl, rfl, hnone, ha, htold, hlasts⟩
    · obtain ⟨before, b, after, g₂, g₃, rfl, hbefore, hnone, hb, htold, hlasts⟩ := hopens
      refine .inr ⟨a :: before, b, after, g₂, g₃, rfl, ?_, hnone, hb, htold, hlasts⟩
      rw [run?, ha]
      exact hbefore

/-- A session that is there before some steps lasts through all of them, or is closed by one. -/
theorem Orderly.closes_of_has {actions : List Action} (hg : g.Orderly)
    (hopen : .shutDown ∉ actions) (h : g.run? actions = some g') (hh : g.Has token p username) :
    g.Lasts token p username actions ∨ g.Closes token p username actions := by
  -- on the actions: the session lasts through the first one, or that is the one that closes it
  induction actions generalizing g with
  | nil => exact .inl (lasts_nil hh)
  | cons a rest ih =>
    obtain ⟨g₁, ha, hrest⟩ := run?_cons h
    rw [List.mem_cons, not_or] at hopen
    have hstep := hg.advances (Ne.symm hopen.1) ha
    rcases hg.has_after hstep.change hh with hafter | ⟨⟨n, rfl⟩, htold, hnone⟩
    · -- nobody is admitted under the number of a player who has a session
      have hmarks : ∀ e ∈ g.told a, ¬ e.Marks p := by
        rcases hg.has_before hstep.change hafter with ⟨-, htold⟩ | ⟨hnone, -⟩
        · exact htold
        · obtain ⟨s, hs, -⟩ := hh
          rw [hnone] at hs
          cases hs
      rcases ih (hg.step (Ne.symm hopen.1) ha) hopen.2 hrest hafter with hlasts | hcloses
      · exact .inl (hlasts.cons hh ha hmarks)
      · obtain ⟨before, n, after, g₂, g₃, rfl, hlasts, hbefore, hn, htold, hnone⟩ := hcloses
        refine .inr ⟨a :: before, n, after, g₂, g₃, rfl, hlasts.cons hh ha hmarks, ?_, hn, htold,
          hnone⟩
        rw [run?, ha]
        exact hbefore
    · exact .inr ⟨[], n, rest, g, g₁, rfl, lasts_nil hh, rfl, ha, htold, hnone⟩

/-- An input is told of a datagram under the token of its player. -/
theorem Change.of_input {i : Wire.Input} (hc : g.Change a told g') (h : .input p i ∈ told) :
    ∃ source datagram header body username, a = .receive source datagram ∧
      Wire.Header.validate (datagram.take readLimit) = .ok (header, body) ∧
      g.Has header.token p username := by
  cases hc with
  | still _ _ => cases h
  | opened _ _ _ _ _ => cases List.mem_singleton.mp h
  | closed _ _ _ => cases List.mem_singleton.mp h
  | @touched source datagram body header mine _ _ valid hmine sessions _ inputs_only =>
    have hp : mine.playerId = p := by
      rcases List.mem_append.mp h with h | h
      · unfold endpointEvents at h
        split at h
        · cases List.mem_singleton.mp h
        · cases List.mem_singleton.mp h
        · cases h
      · obtain ⟨j, hj⟩ := inputs_only _ h
        exact (Event.input.inj hj).1.symm
    exact ⟨source, datagram, header, body, mine.username, rfl, valid, mine, hmine, hp, rfl⟩

/-! ## The books -/

/-- **The gateway and the simulation keep the same books**, as long as the queue is open. What the
simulation has taken and what still waits is the ledger. Whenever a new game has heard the ledger, no
matter how time passed meanwhile, its players are those of the sessions. And every input of the ledger
stands between the coming of its player and the going, if there is one, that belong to the session whose
token the datagram bore. -/
theorem run_agrees {maxPlayers : UInt8} {capacity : Nat} {udpPort : UInt16} {r : Generator}
    {actions : List Action} {g : Gateway}
    (h : (start maxPlayers capacity udpPort r).run? actions = some g)
    (hopen : .shutDown ∉ actions) :
    (start maxPlayers capacity udpPort r).taken actions ++ g.queue.events =
        (start maxPlayers capacity udpPort r).history actions ∧
      (∀ settings entropy, ∃ o, (Simulation.start settings entropy).run
        (((start maxPlayers capacity udpPort r).history actions).map .event) = .ok o) ∧
      (∀ settings entropy steps o,
        steps.filterMap Step.event? = (start maxPlayers capacity udpPort r).history actions →
          (Simulation.start settings entropy).run steps = .ok o → g.Agrees o.simulation.world) ∧
      ∀ before a after g₁ p i, actions = before ++ a :: after →
        (start maxPlayers capacity udpPort r).run? before = some g₁ → .input p i ∈ g₁.told a →
          ∃ source datagram header body username, a = .receive source datagram ∧
            Wire.Header.validate (datagram.take readLimit) = .ok (header, body) ∧
            (start maxPlayers capacity udpPort r).Opens header.token p username before ∧
            (g₁.Lasts header.token p username (a :: after) ∨
              g₁.Closes header.token p username (a :: after)) := by
  have hstart := orderly_start maxPlayers capacity udpPort r
  refine ⟨?_, ?_, ?_, ?_⟩
  · exact (hstart.queue_run hopen h).symm
  · intro settings entropy
    obtain ⟨o, ho, -⟩ := Simulation.run_events
      ((start maxPlayers capacity udpPort r).history actions) (.start settings entropy)
    exact ⟨o, ho⟩
  · intro settings entropy steps o hsteps ho
    -- the simulation has the roster that it has heard of, and so has the table
    have hroster := (Simulation.sound_start settings entropy).toSettled.roster_run ho
    have hrosterMatches := hstart.rosterMatches_run (rosterMatches_start _ _ _ _) hopen h
    rw [← hsteps] at hrosterMatches
    refine (hstart.run hopen h).agrees ?_
    rw [hroster]
    exact hrosterMatches
  · intro before a after g₁ p i hactions hbefore hinput
    subst hactions
    rw [List.mem_append, not_or] at hopen
    obtain ⟨g₁', h₁, hrest⟩ := run?_append h
    rw [hbefore, Option.some.injEq] at h₁
    subst h₁
    obtain ⟨g₂, ha, -⟩ := run?_cons hrest
    have hg₁ := hstart.run hopen.1 hbefore
    have hne : a ≠ .shutDown := fun e => hopen.2 (e ▸ List.mem_cons_self)
    -- an input is only told for a valid header whose token has a session before the step
    obtain ⟨source, datagram, header, body, username, rfl, hvalid, hhas⟩ :=
      (hg₁.advances hne ha).change.of_input hinput
    refine ⟨source, datagram, header, body, username, rfl, hvalid, ?_,
      hg₁.closes_of_has hopen.2 hrest hhas⟩
    rcases hstart.opens_of_has hopen.1 hbefore hhas with hlasts | hopens
    · -- nobody has a session in the beginning
      obtain ⟨s, hs, -⟩ := hlasts.now
      cases hs
    · exact hopens

/-- A player fires, under the token of a session. -/
def shot (token : UInt32) : List UInt8 :=
  (⟨token, .input ⟨0, 1, Wire.shootButton, 1, 0⟩⟩ : Wire.Packet).encode

/-- A player comes, fires and goes. The next one gets the same number. -/
def numberReuse : List Action := [
  .accept 0,
  .hear 0 (.connect "ada" "1.0"),
  .greet 0,
  .receive ⟨.v4 (.replicate 4 10), 7001⟩ (shot 7),
  .handOver,
  .hangUp 0,
  .depart 0,
  .accept 1,
  .hear 1 (.connect "bo" "1.0")]

/-- The next one fires. -/
def firstShot : Action := .receive ⟨.v4 (.replicate 4 10), 7002⟩ (shot 9)

theorem run_agrees_of_numberReuse : ∃ g g₁ o header body username,
    (start 4 8 7000 (.cycle [7, 9])).run? (numberReuse ++ [firstShot]) = some g ∧
    .shutDown ∉ numberReuse ++ [firstShot] ∧
    (start 4 8 7000 (.cycle [7, 9])).taken (numberReuse ++ [firstShot]) ++ g.queue.events =
      (start 4 8 7000 (.cycle [7, 9])).history (numberReuse ++ [firstShot]) ∧
    (Simulation.start .default (.ofSeed 0)).run
      (((start 4 8 7000 (.cycle [7, 9])).history (numberReuse ++ [firstShot])).map .event) = .ok o ∧
    g.Agrees o.simulation.world ∧
    (start 4 8 7000 (.cycle [7, 9])).run? numberReuse = some g₁ ∧
    .input 1 ⟨0, 1, Wire.shootButton, 1, 0⟩ ∈ g₁.told firstShot ∧
    Wire.Header.validate ((shot 9).take readLimit) = .ok (header, body) ∧
    (start 4 8 7000 (.cycle [7, 9])).Opens header.token 1 username numberReuse := by
  obtain ⟨g, h⟩ := Option.isSome_iff_exists.mp (show
    ((start 4 8 7000 (.cycle [7, 9])).run? (numberReuse ++ [firstShot])).isSome by decide +kernel)
  obtain ⟨g₁, h₁⟩ := Option.isSome_iff_exists.mp (show
    ((start 4 8 7000 (.cycle [7, 9])).run? numberReuse).isSome by decide +kernel)
  have hopen : .shutDown ∉ numberReuse ++ [firstShot] := by decide +kernel
  have htold : ((start 4 8 7000 (.cycle [7, 9])).run? numberReuse).all
      (fun g₁ => decide (.input 1 ⟨0, 1, Wire.shootButton, 1, 0⟩ ∈ g₁.told firstShot)) = true := by
    decide +kernel
  have hinput : .input 1 ⟨0, 1, Wire.shootButton, 1, 0⟩ ∈ g₁.told firstShot := by
    rw [h₁] at htold
    exact of_decide_eq_true htold
  obtain ⟨hqueue, hheard, hagrees, hinputs⟩ := run_agrees h hopen
  obtain ⟨o, ho⟩ := hheard .default (.ofSeed 0)
  obtain ⟨source, datagram, header, body, username, heq, hvalid, hopens, -⟩ :=
    hinputs numberReuse firstShot [] g₁ 1 _ rfl h₁ hinput
  obtain ⟨rfl, rfl⟩ := Action.receive.inj heq
  exact ⟨g, g₁, o, header, body, username, h, hopen, hqueue, ho,
    hagrees _ _ _ o (filterMap_map_event _) ho, h₁, hinput, hvalid, hopens⟩

end Gateway

end Skirmish
