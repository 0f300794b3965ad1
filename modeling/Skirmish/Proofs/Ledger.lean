import Skirmish.Proofs.Sessions
import Skirmish.Proofs.Turns
/-!
# What the gateway tells the simulation

The events that the gateway puts into the queue are its ledger (`Gateway.history`). Whatever waits in
the queue or has been taken from it is an entry (`run?_history`), so the simulation hears the ledger
and nothing else, in order.

As long as the queue is open every step of the gateway is of one of four sorts (`Gateway.Change`): a
session is opened and a player comes, a session is closed and the player goes, a datagram bears the
token of a session, or nothing happens to the sessions and nothing is told.
-/

namespace Skirmish

namespace Gateway

/-! ## The ledger -/

/-- What a step adds to the queue. Taking an event from the queue adds nothing. -/
def told (g : Gateway) (a : Action) : List Event :=
  match a with
  | .handOver => []
  | a => match g.step? a with
    | some g' => g'.queue.events.drop g.queue.events.length
    | none => []

/-- What several steps add to the queue, one after the other. -/
def history (g : Gateway) : List Action → List Event
  | [] => []
  | a :: rest => g.told a ++ match g.step? a with
    | some g' => g'.history rest
    | none => []

/-- What the simulation takes from the queue during these steps. -/
def taken (g : Gateway) : List Action → List Event
  | [] => []
  | a :: rest => (if a = .handOver then g.queue.events.take 1 else []) ++ match g.step? a with
    | some g' => g'.taken rest
    | none => []

variable {g g' : Gateway}

theorem run?_cons {a : Action} {rest : List Action} (h : g.run? (a :: rest) = some g') :
    ∃ g₁, g.step? a = some g₁ ∧ g₁.run? rest = some g' :=
  Option.bind_eq_some_iff.mp h

theorem run?_append {actions rest : List Action} (h : g.run? (actions ++ rest) = some g') :
    ∃ g₁, g.run? actions = some g₁ ∧ g₁.run? rest = some g' := by
  induction actions generalizing g with
  | nil => exact ⟨g, rfl, h⟩
  | cons a actions ih =>
    obtain ⟨g₁, ha, h⟩ := run?_cons h
    obtain ⟨g₂, h₁, h₂⟩ := ih h
    refine ⟨g₂, ?_, h₂⟩
    rw [run?, ha]
    exact h₁

theorem history_cons {a : Action} {rest : List Action} (h : g.step? a = some g') :
    g.history (a :: rest) = g.told a ++ g'.history rest := by
  rw [history, h]

theorem history_append {actions rest : List Action} (h : g.run? actions = some g') :
    g.history (actions ++ rest) = g.history actions ++ g'.history rest := by
  induction actions generalizing g with
  | nil =>
    obtain rfl := Option.some.inj h
    rfl
  | cons a actions ih =>
    obtain ⟨g₁, ha, h⟩ := run?_cons h
    rw [List.cons_append, history_cons ha, history_cons ha, ih h, List.append_assoc]

/-! ## Who holds which session -/

/-- The session that a connection holds. -/
def holder? (g : Gateway) (n : Nat) : Option Session := (g.connections.get? n).bind Connection.session?

theorem holder?_of_get? {n : Nat} {c : Connection} (hc : g.connections.get? n = some c) :
    g.holder? n = c.session? := by
  rw [holder?, hc, Option.bind_some]

theorem holder?_eq_talk? (g : Gateway) (k : Nat) :
    g.holder? k = (g.talk? k).bind Connection.session? := by
  rw [holder?, talk?]
  cases g.connections.get? k with
  | none => rfl
  | some c => rfl

/-! ## The four sorts of steps -/

/-- What a step does to the sessions and to who holds them, and what it tells the simulation. -/
inductive Change (g : Gateway) : Action → List Event → Gateway → Prop
  /-- Nothing happens to the sessions. -/
  | still {a : Action} {g' : Gateway} (sessions : g'.sessions = g.sessions)
      (holder : ∀ k, g'.holder? k = g.holder? k) : Change g a [] g'
  /-- A player is admitted. -/
  | opened {n : Nat} {username version : String} {s : Session} {g' : Gateway}
      (fresh : g.sessions.get? s.token = none)
      (free : ∀ t s', g.sessions.get? t = some s' → s'.playerId ≠ s.playerId)
      (endpoint : s.endpoint = none)
      (sessions : g'.sessions.byToken = g.sessions.byToken.insert s.token s)
      (holder : ∀ k, g'.holder? k = if n = k then some s else g.holder? k) :
      Change g (.hear n (.connect username version)) [.connected s.playerId s.username] g'
  /-- The session that a connection holds ends. -/
  | closed {n : Nat} {s : Session} {g' : Gateway} (held : g.holder? n = some s)
      (sessions : g'.sessions = g.sessions.close s.token)
      (holder : ∀ k, g'.holder? k = if n = k then none else g.holder? k) :
      Change g (.depart n) [.disconnected s.playerId] g'
  /-- A datagram bears the token of a session. -/
  | touched {source : Endpoint} {datagram body : List UInt8} {header : Wire.Header} {s : Session}
      {inputs : List Event} {g' : Gateway}
      (valid : Wire.Header.validate (datagram.take readLimit) = .ok (header, body))
      (mine : g.sessions.get? header.token = some s)
      (sessions : g'.sessions.byToken = g.sessions.byToken.modify header.token
        fun s => { s with endpoint := some source })
      (holder : ∀ k, g'.holder? k = g.holder? k)
      (inputs_only : ∀ e ∈ inputs, ∃ i, e = .input s.playerId i) :
      Change g (.receive source datagram)
        (endpointEvents s.playerId source (SessionTable.updateOf s source) ++ inputs) g'

theorem get?_opened {s : Session}
    (h : g'.sessions.byToken = g.sessions.byToken.insert s.token s) (t : UInt32) :
    g'.sessions.get? t = if s.token = t then some s else g.sessions.get? t := by
  rw [SessionTable.get?, h, SortedMap.get?_insert]
  rfl

theorem get?_closed {token : UInt32} (h : g'.sessions = g.sessions.close token) (t : UInt32) :
    g'.sessions.get? t = if token = t then none else g.sessions.get? t := by
  rw [h]
  exact SortedMap.get?_erase _ _ _

theorem get?_touched {token : UInt32} {f : Session → Session}
    (h : g'.sessions.byToken = g.sessions.byToken.modify token f) (t : UInt32) :
    g'.sessions.get? t = if token = t then (g.sessions.get? t).map f else g.sessions.get? t := by
  rw [SessionTable.get?, h, SortedMap.get?_modify]
  rfl

/-- What a step does in all: to the sessions, and to the queue. -/
structure Advances (g : Gateway) (a : Action) (g' : Gateway) : Prop where
  change : g.Change a (g.told a) g'
  isOpen : g'.queue.isOpen = true
  queue : g.queue.events ++ g.told a =
    (if a = .handOver then g.queue.events.take 1 else []) ++ g'.queue.events

/-- What is told is what comes to the queue. -/
theorem told_of_queue {a : Action} {added : List Event} (h : g.step? a = some g')
    (ha : a ≠ .handOver) (hq : g'.queue.events = g.queue.events ++ added) : g.told a = added := by
  have hdrop : g.told a = g'.queue.events.drop g.queue.events.length := by
    unfold told
    split
    · exact absurd rfl ha
    · rw [h]
  rw [hdrop, hq, List.drop_left]

theorem Advances.of_change {a : Action} {added : List Event} (h : g.step? a = some g')
    (ha : a ≠ .handOver) (ho : g'.queue.isOpen = true)
    (hq : g'.queue.events = g.queue.events ++ added) (hc : g.Change a added g') :
    g.Advances a g' := by
  have htold := told_of_queue h ha hq
  refine ⟨by rw [htold]; exact hc, ho, ?_⟩
  rw [htold, if_neg ha, List.nil_append, hq]

/-- A step that leaves the sessions and the queue alone. -/
theorem Advances.of_still {a : Action} (h : g.step? a = some g') (ha : a ≠ .handOver)
    (ho : g.queue.isOpen = true) (hq : g'.queue = g.queue) (hs : g'.sessions = g.sessions)
    (hh : ∀ k, g'.holder? k = g.holder? k) : g.Advances a g' :=
  .of_change h ha (by rw [hq, ho]) (by rw [hq, List.append_nil]) (.still hs hh)

/-! ### Steps of a connection -/

section

variable {n : Nat} {c c' : Connection} {a : Action} {added : List Event} {sessions : SessionTable}

theorem Becomes.holder? (hb : g.Becomes n c' added sessions g') (k : Nat) :
    g'.holder? k = if n = k then c'.session? else g.holder? k := by
  rw [holder?_eq_talk?, hb.talk, holder?_eq_talk?]
  split
  · rfl
  · rfl

/-- A connection changes, but not the session that it holds. -/
theorem Becomes.still (hb : g.Becomes n c' [] g.sessions g') (hc : g.talk? n = some c)
    (hs : c'.session? = c.session?) : g.Change a [] g' := by
  refine .still hb.sessions fun k => ?_
  rw [hb.holder?]
  split
  · rename_i hk
    rw [← hk, holder?_eq_talk?, hc, hs]
    rfl
  · rfl

/-- What a step of a connection does to the sessions. -/
theorem Turn.change (ht : g.Turn n c a c' added sessions) (hc : g.talk? n = some c)
    (hb : g.Becomes n c' added sessions g') : g.Change a added g' := by
  have hnone : c.phase = .greeting → c.session? = none := by
    intro hp
    rw [Connection.session?, hp]
  have hsome : ∀ {s}, c.phase = .welcoming s ∨ c.phase = .serving s ∨ c.phase = .leaving s →
      c.session? = some s := by
    intro s hp
    rcases hp with hp | hp | hp <;> rw [Connection.session?, hp]
  -- only admission and departure change the ledger; every other turn leaves its sessions as they
  -- were
  cases ht with
  | refused hp _ => exact hb.still hc (Connection.session?_write _ (hnone hp) rfl rfl)
  | admitted _ hjoin =>
    obtain ⟨ha, htable⟩ := SessionTable.join_ok hjoin
    refine .opened ha.fresh (fun _ _ => ha.free) ha.endpoint ?_ hb.holder?
    rw [hb.sessions, htable]
  | greeted hp => exact hb.still hc (Connection.session?_write _ (hsome (.inl hp)) rfl rfl)
  | again hp => exact hb.still hc (Connection.session?_write _ (hsome (.inr (.inl hp))) rfl rfl)
  | dismissed hp => exact hb.still hc (Connection.session?_write _ (hnone hp) rfl rfl)
  | released hp => exact hb.still hc (Connection.session?_write _ (hsome (.inr (.inl hp))) rfl rfl)
  | passed _ _ _ => exact hb.still hc rfl
  | lost hp => exact hb.still hc (hnone hp).symm
  | dropped hp => exact hb.still hc (hsome (.inr (.inl hp))).symm
  | cutOff => exact hb.still hc rfl
  | skipped _ => exact hb.still hc rfl
  | relayed hp _ _ =>
    exact hb.still hc (Connection.session?_write _ (hsome (.inr (.inl hp))) rfl rfl)
  | departed hp =>
    refine .closed ?_ hb.sessions hb.holder?
    rw [holder?_eq_talk?, hc, Option.bind_some, hsome (.inr (.inr hp))]

end

/-! ### Datagrams -/

/-- A datagram under a token adds at most inputs of the player. -/
theorem serve_eq (g : Gateway) (id : UInt8) (token : UInt32) (source : Endpoint)
    (bytes : List UInt8) : ∃ inputs, (∀ e ∈ inputs, ∃ i, e = .input id i) ∧
      (g.serve id token source bytes).queue.events = g.queue.events ++ inputs ∧
      (g.serve id token source bytes).queue.isOpen = g.queue.isOpen ∧
      (g.serve id token source bytes).sessions = g.sessions ∧
      (g.serve id token source bytes).connections = g.connections ∧
      (g.serve id token source bytes).udpPort = g.udpPort := by
  -- most payloads lead to no input
  have hnone : ∀ {g' : Gateway}, g'.queue = g.queue → g'.sessions = g.sessions →
      g'.connections = g.connections → g'.udpPort = g.udpPort →
      ∃ inputs, (∀ e ∈ inputs, ∃ i, e = .input id i) ∧
        g'.queue.events = g.queue.events ++ inputs ∧ g'.queue.isOpen = g.queue.isOpen ∧
        g'.sessions = g.sessions ∧ g'.connections = g.connections ∧ g'.udpPort = g.udpPort := by
    intro g' hq hs hc hp
    exact ⟨[], by simp, by rw [hq, List.append_nil], by rw [hq], hs, hc, hp⟩
  unfold serve
  split
  · exact hnone rfl rfl rfl rfl
  · split
    · rename_i i _
      unfold forward
      split
      · refine ⟨[.input id i], fun e he => ⟨i, List.mem_singleton.mp he⟩, rfl, rfl, rfl, rfl, rfl⟩
      · exact hnone rfl rfl rfl rfl
      · exact hnone rfl rfl rfl rfl
    · exact hnone rfl rfl rfl rfl
    · exact hnone rfl rfl rfl rfl

/-- The sessions have noted where a datagram came from, and it is served. -/
theorem change_of_serve {g₁ : Gateway} {source : Endpoint} {datagram body : List UInt8}
    {header : Wire.Header} {s : Session}
    (h : g₁.serve s.playerId header.token source (datagram.take readLimit) = g')
    (hvalid : Wire.Header.validate (datagram.take readLimit) = .ok (header, body))
    (hs : g.sessions.get? header.token = some s)
    (hsessions : g₁.sessions.byToken = g.sessions.byToken.modify header.token
      fun s => { s with endpoint := some source })
    (hconn : g₁.connections = g.connections) :
    ∃ inputs, g'.queue.events = g₁.queue.events ++ inputs ∧
      g'.queue.isOpen = g₁.queue.isOpen ∧
      g.Change (.receive source datagram)
        (endpointEvents s.playerId source (SessionTable.updateOf s source) ++ inputs) g' := by
  obtain ⟨inputs, hinputs, hevents, hopen, hsess, hconn', -⟩ :=
    g₁.serve_eq s.playerId header.token source (datagram.take readLimit)
  rw [h] at hevents hopen hsess hconn'
  refine ⟨inputs, hevents, hopen,
    .touched hvalid hs (by rw [hsess, hsessions]) (fun k => ?_) hinputs⟩
  rw [holder?, holder?, hconn', hconn]

/-- The simulation has been told of the endpoint, and the datagram is served. -/
theorem Advances.of_serve {g₁ : Gateway} {source : Endpoint} {datagram body : List UInt8}
    {header : Wire.Header} {s : Session}
    (hstep : g.step? (.receive source datagram) =
      some (g₁.serve s.playerId header.token source (datagram.take readLimit)))
    (hvalid : Wire.Header.validate (datagram.take readLimit) = .ok (header, body))
    (hs : g.sessions.get? header.token = some s)
    (hq : g₁.queue.events =
      g.queue.events ++ endpointEvents s.playerId source (SessionTable.updateOf s source))
    (ho : g₁.queue.isOpen = true)
    (hsessions : g₁.sessions.byToken = g.sessions.byToken.modify header.token
      fun s => { s with endpoint := some source })
    (hconn : g₁.connections = g.connections) :
    g.Advances (.receive source datagram)
      (g₁.serve s.playerId header.token source (datagram.take readLimit)) := by
  obtain ⟨inputs, hevents, hopen, hchange⟩ := change_of_serve rfl hvalid hs hsessions hconn
  -- the endpoint comes first, then what the datagram brings
  rw [hq, List.append_assoc] at hevents
  exact .of_change hstep (by simp) (hopen.trans ho) hevents hchange

theorem Advances.of_receive {source : Endpoint} {datagram : List UInt8} (ho : g.queue.isOpen = true)
    (hstep : g.step? (.receive source datagram) = some g') :
    g.Advances (.receive source datagram) g' := by
  have h : g.receive? source datagram = some g' := hstep
  unfold receive? authenticate? at h
  split at h
  · obtain rfl := Option.some.inj h
    exact .of_still hstep (by simp) ho rfl rfl fun _ => rfl
  · rename_i header body hvalid
    split at h
    · obtain rfl := Option.some.inj h
      exact .of_still hstep (by simp) ho rfl rfl fun _ => rfl
    · rename_i id update sessions htouch
      obtain ⟨queue, hsend, rfl⟩ := Option.map_eq_some_iff.mp h
      have hopen : (g.count fun c => { c with datagramsIn := c.datagramsIn + 1 }).queue.isOpen =
        true := ho
      obtain ⟨hevents, hopen'⟩ := EventQueue.sendAll?_of_isOpen hopen hsend
      -- the table has the session and has noted where the datagram came from
      obtain ⟨s, hs, heq⟩ := Option.map_eq_some_iff.mp htouch
      obtain ⟨⟨rfl, rfl⟩, rfl⟩ := And.imp_left Prod.mk.inj (Prod.mk.inj heq)
      exact .of_serve hstep hvalid hs hevents hopen' rfl rfl

/-- A datagram is none of the connections' business. -/
theorem connections_of_receive? {source : Endpoint} {datagram : List UInt8}
    (h : g.receive? source datagram = some g') :
    g'.connections = g.connections ∧ g'.udpPort = g.udpPort := by
  unfold receive? authenticate? at h
  split at h
  · obtain rfl := Option.some.inj h
    exact ⟨rfl, rfl⟩
  · split at h
    · obtain rfl := Option.some.inj h
      exact ⟨rfl, rfl⟩
    · obtain ⟨queue, -, rfl⟩ := Option.map_eq_some_iff.mp h
      obtain ⟨_, -, -, -, -, hconn, hport⟩ := serve_eq _ _ _ source (datagram.take readLimit)
      exact ⟨hconn, hport⟩

/-! ### All steps -/

/-- A connection that is not there yet holds nothing, and a fresh one holds nothing. -/
theorem holder?_accept {n : Nat} (hc : g.connections.get? n = none) (k : Nat) :
    (g.setConnection n .fresh).holder? k = g.holder? k := by
  rw [holder?_eq_talk?, talk?_setConnection, holder?_eq_talk?]
  split
  · rename_i hk
    rw [← hk, talk?, hc]
    rfl
  · rfl

theorem Advances.of_handOver (ho : g.queue.isOpen = true) (h : g.step? .handOver = some g') :
    g.Advances .handOver g' := by
  obtain ⟨⟨e, queue⟩, htake, rfl⟩ := Option.map_eq_some_iff.mp h
  cases hevents : g.queue.events with
  | nil =>
    rw [EventQueue.take?, hevents] at htake
    cases htake
  | cons e' rest =>
    rw [EventQueue.take?, hevents] at htake
    obtain ⟨rfl, rfl⟩ := Prod.mk.inj (Option.some.inj htake)
    refine ⟨.still rfl fun _ => rfl, ho, ?_⟩
    rw [if_pos rfl, hevents]
    exact List.append_nil _

/-- **What a step is**, as long as the queue is open and whoever holds a session has one. -/
theorem step_advances {a : Action} (ho : g.queue.isOpen = true) (ha : a ≠ .shutDown)
    (hheld : ∀ n s, g.holder? n = some s → (g.sessions.get? s.token).isSome)
    (h : g.step? a = some g') : g.Advances a g' := by
  -- a step of a connection is one of its turns, and the others are the gateway's own
  cases hn : a.connection? with
  | some n =>
    have hne : a ≠ .handOver := by
      rintro rfl
      cases hn
    cases hc : g.connections.get? n with
    | none =>
      obtain ⟨rfl, rfl⟩ := accept_of_step? hn hc h
      exact .of_still h hne ho rfl rfl (holder?_accept hc)
    | some c =>
      -- a connection that is leaving still has its session in the table, so that it can be closed
      have hleaving : ∀ s, c.phase = .leaving s → (g.sessions.get? s.token).isSome := by
        intro s hp
        refine hheld n s ?_
        rw [holder?_of_get? hc, Connection.session?, hp]
      obtain ⟨c', added, sessions, ht, hb⟩ := turn_of_step? ho hn hc hleaving h
      exact .of_change h hne (hb.isOpen.trans ho) hb.events (ht.change (talk?_of_get? hc) hb)
  | none =>
    cases a with
    | receive source datagram => exact .of_receive ho h
    | handOver => exact .of_handOver ho h
    | shutDown => exact absurd rfl ha
    | accept | hear | hangUp | breakOff | greet | relay | depart => cases hn

end Gateway

end Skirmish
