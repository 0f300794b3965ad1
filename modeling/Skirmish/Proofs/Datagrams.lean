import Skirmish.Proofs.Acceptance
import Skirmish.Proofs.Changes
/-!
# What becomes of a datagram

A datagram is counted when it comes in and once more as what it turns out to be (`Tally`). `Handles`
lists what can become of it, with the counter, the sessions afterwards, what the simulation is told
and what is answered. `handles_of_receive?` says that the list is complete, as long as the queue is
open.

From the list follows what a gateway makes of any datagram (`Receives`), and as nothing else touches
the counters and the replies, what a run makes of all of them (`run_receives`). A full queue makes a
datagram wait that tells of an endpoint, and it drops inputs; nothing else is lost.
-/

namespace Skirmish

open Wire

/-! ## Counters -/

/-- What a datagram can turn out to be. -/
inductive Tally where
  | malformed
  | unauthenticated
  | inputs
  | inputsDropped
  | pings
  | unexpected
deriving DecidableEq, Repr

namespace Counters

/-- How many datagrams have turned out to be this. -/
def tally (c : Counters) : Tally → Nat
  | .malformed => c.malformed
  | .unauthenticated => c.unauthenticated
  | .inputs => c.inputs
  | .inputsDropped => c.inputsDropped
  | .pings => c.pings
  | .unexpected => c.unexpected

/-- One more turns out to be this. -/
def add (c : Counters) : Tally → Counters
  | .malformed => { c with malformed := c.malformed + 1 }
  | .unauthenticated => { c with unauthenticated := c.unauthenticated + 1 }
  | .inputs => { c with inputs := c.inputs + 1 }
  | .inputsDropped => { c with inputsDropped := c.inputsDropped + 1 }
  | .pings => { c with pings := c.pings + 1 }
  | .unexpected => { c with unexpected := c.unexpected + 1 }

/-- A datagram comes in and turns out to be this. -/
def enter (c : Counters) (t : Tally) : Counters :=
  { c with datagramsIn := c.datagramsIn + 1 }.add t

/-- Every datagram that has come in has turned out to be something. -/
def Balanced (c : Counters) : Prop :=
  c.datagramsIn =
    c.malformed + c.unauthenticated + c.inputs + c.inputsDropped + c.pings + c.unexpected

theorem datagramsIn_enter (c : Counters) (t : Tally) :
    (c.enter t).datagramsIn = c.datagramsIn + 1 := by
  cases t <;> rfl

theorem tally_enter (c : Counters) (t t' : Tally) :
    (c.enter t).tally t' = c.tally t' + if t' = t then 1 else 0 := by
  cases t <;> cases t' <;> rfl

theorem Balanced.enter {c : Counters} (h : c.Balanced) (t : Tally) : (c.enter t).Balanced := by
  unfold Balanced at h ⊢
  cases t <;> simp only [Counters.enter, add] <;> omega

end Counters

namespace Wire.Packet

/-- The token of a packet is that of its header. -/
theorem validate_of_decode {b : List UInt8} {p : Packet} (h : decode b = .ok p) :
    ∃ header body, Header.validate b = .ok (header, body) ∧ header.token = p.token := by
  simp only [decode, bind, Except.bind] at h
  split at h
  · cases h
  · rename_i r hvalid
    refine ⟨r.1, r.2, hvalid, ?_⟩
    split at h
    · cases h
    · split at h
      · cases h
      · obtain rfl := Except.ok.inj h
        rfl

end Wire.Packet

def Action.isReceive : Action → Bool
  | .receive _ _ => true
  | _ => false

namespace Gateway

variable {g g' : Gateway} {source : Endpoint} {datagram : List UInt8} {t : Tally}
  {sessions : SessionTable} {events : List Event} {replies : List Datagram} {s : Session}
  {payload : Payload}

/-! ## The list -/

/-- What becomes of a datagram under the token of a session, once the simulation has been told of
the endpoint. -/
inductive Serves (q : EventQueue) (id : UInt8) (token : UInt32) (source : Endpoint)
    (datagram : List UInt8) : Tally → List Event → List Datagram → Prop
  /-- The payload is not what the header announces. -/
  | garbled {e : Wire.Error} (read : Packet.decode datagram = .error e) :
      Serves q id token source datagram .malformed [] []
  | forwarded {i : Input} (read : Packet.decode datagram = .ok ⟨token, .input i⟩)
      (room : q.events.length < q.capacity) :
      Serves q id token source datagram .inputs [.input id i] []
  | dropped {i : Input} (read : Packet.decode datagram = .ok ⟨token, .input i⟩)
      (full : ¬ q.events.length < q.capacity) :
      Serves q id token source datagram .inputsDropped [] []
  | answered (read : Packet.decode datagram = .ok ⟨token, .ping⟩) :
      Serves q id token source datagram .pings [] [⟨source, (⟨token, .pong⟩ : Packet).encode⟩]
  /-- Only servers send this. -/
  | passed {payload : Payload} (read : Packet.decode datagram = .ok ⟨token, payload⟩)
      (ne_input : ∀ i, payload ≠ .input i) (ne_ping : payload ≠ .ping) :
      Serves q id token source datagram .unexpected [] []

/-- The queue when the simulation has been told of the endpoint of a session. -/
def queueAt (g : Gateway) (s : Session) (source : Endpoint) : EventQueue :=
  { g.queue with events :=
      g.queue.events ++ endpointEvents s.playerId source (SessionTable.updateOf s source) }

/-- What becomes of a datagram: how it is counted, the sessions afterwards, what the simulation is
told and what is answered. -/
inductive Handles (g : Gateway) (source : Endpoint) (datagram : List UInt8) :
    Tally → SessionTable → List Event → List Datagram → Prop
  /-- There is no valid header. -/
  | stray {e : Wire.Error} (invalid : Header.validate datagram = .error e) :
      Handles g source datagram .malformed g.sessions [] []
  /-- Nobody has the token. -/
  | stranger {header : Header} {body : List UInt8}
      (valid : Header.validate datagram = .ok (header, body))
      (unknown : g.sessions.get? header.token = none) :
      Handles g source datagram .unauthenticated g.sessions [] []
  | known {header : Header} {body : List UInt8} {s : Session} {t : Tally} {inputs : List Event}
      {replies : List Datagram} (valid : Header.validate datagram = .ok (header, body))
      (mine : g.sessions.get? header.token = some s)
      (serves : Serves (g.queueAt s source) s.playerId header.token source datagram t inputs
        replies) :
      Handles g source datagram t
        { g.sessions with byToken := g.sessions.byToken.modify header.token fun s =>
            { s with endpoint := some source } }
        (endpointEvents s.playerId source (SessionTable.updateOf s source) ++ inputs) replies

/-- The gateway after a datagram. -/
def treated (g : Gateway) (t : Tally) (sessions : SessionTable) (events : List Event)
    (replies : List Datagram) : Gateway :=
  { g with
    sessions
    queue := { g.queue with events := g.queue.events ++ events }
    counters := g.counters.enter t
    replies := g.replies ++ replies }

theorem treated_nil (g : Gateway) (t : Tally) :
    g.treated t g.sessions [] [] = { g with counters := g.counters.enter t } := by
  simp only [treated, List.append_nil]

/-! ## The list is complete -/

theorem serves_of_serve {header : Header} {body : List UInt8} (ho : g.queue.isOpen = true)
    (valid : Header.validate datagram = .ok (header, body)) (id : UInt8) (source : Endpoint) :
    ∃ t inputs replies, Serves g.queue id header.token source datagram t inputs replies ∧
      g.serve id header.token source datagram =
        { g with
          queue := { g.queue with events := g.queue.events ++ inputs }
          counters := g.counters.add t
          replies := g.replies ++ replies } := by
  have hcounted : ∀ t, g.count (fun c => c.add t) =
      { g with
        queue := { g.queue with events := g.queue.events ++ [] }
        counters := g.counters.add t
        replies := g.replies ++ [] } := by
    intro t
    rw [List.append_nil, List.append_nil]
    rfl
  unfold serve
  -- the payload is decoded before its kind is looked at; each outcome is one way to be served
  cases hread : Packet.decode datagram with
  | error e => exact ⟨_, _, _, .garbled hread, hcounted .malformed⟩
  | ok p =>
    obtain ⟨header', body', hvalid, htoken⟩ := Packet.validate_of_decode hread
    obtain ⟨rfl, -⟩ := Prod.mk.inj (Except.ok.inj (valid.symm.trans hvalid))
    obtain ⟨token, payload⟩ := p
    obtain rfl : header.token = token := htoken
    cases payload with
    | input i =>
      simp only [forward, EventQueue.state_of_isOpen ho]
      by_cases hroom : g.queue.events.length < g.queue.capacity
      · rw [if_pos hroom]
        refine ⟨_, _, _, .forwarded hread hroom, ?_⟩
        rw [List.append_nil]
        rfl
      · rw [if_neg hroom]
        exact ⟨_, _, _, .dropped hread hroom, hcounted .inputsDropped⟩
    | ping =>
      refine ⟨_, _, _, .answered hread, ?_⟩
      rw [List.append_nil]
      rfl
    | spawn | update | destroy | batch | pong =>
      exact ⟨_, _, _, .passed hread (by simp) (by simp), hcounted .unexpected⟩

/-- **Whatever becomes of a datagram is on the list**, as long as the queue is open. -/
theorem handles_of_receive? (ho : g.queue.isOpen = true)
    (h : g.receive? source datagram = some g') :
    ∃ t sessions events replies, g.Handles source datagram t sessions events replies ∧
      g' = g.treated t sessions events replies := by
  unfold receive? at h
  -- the gateway only reads what fits into its buffer, and what is beyond makes no difference here
  rw [Packet.authenticate?_take] at h
  unfold authenticate? at h
  split at h
  · rename_i e hinvalid
    obtain rfl := Option.some.inj h
    exact ⟨_, _, _, _, .stray hinvalid, (g.treated_nil .malformed).symm⟩
  · rename_i header body hvalid
    split at h
    · rename_i hunknown
      obtain rfl := Option.some.inj h
      exact ⟨_, _, _, _, .stranger hvalid (SessionTable.touch_eq_none_iff.mp hunknown),
        (g.treated_nil .unauthenticated).symm⟩
    · rename_i id update sessions htouch
      obtain ⟨queue, hsend, rfl⟩ := Option.map_eq_some_iff.mp h
      have hopen : (g.count fun c => { c with datagramsIn := c.datagramsIn + 1 }).queue.isOpen =
        true := ho
      obtain rfl := EventQueue.sendAll?_eq_of_isOpen hopen hsend
      obtain ⟨s, hs, heq⟩ := Option.map_eq_some_iff.mp htouch
      obtain ⟨⟨rfl, rfl⟩, rfl⟩ := And.imp_left Prod.mk.inj (Prod.mk.inj heq)
      -- the session is touched and the news of it queued before the payload is looked at
      let told : Gateway := { g with
        sessions := { g.sessions with byToken := g.sessions.byToken.modify header.token fun s =>
            { s with endpoint := some source } }
        queue := g.queueAt s source
        counters := { g.counters with datagramsIn := g.counters.datagramsIn + 1 } }
      have hqueue : told.queue.isOpen = true := ho
      obtain ⟨t, inputs, replies, hserves, hserve⟩ :=
        serves_of_serve hqueue hvalid s.playerId source
      refine ⟨t, _, _, replies, .known hvalid hs hserves, hserve.trans ?_⟩
      rw [treated, ← List.append_assoc]
      rfl

theorem sendAll?_endpointEvents_eq_none_iff {q : EventQueue} (ho : q.isOpen = true) (s : Session)
    (source : Endpoint) :
    q.sendAll? (endpointEvents s.playerId source (SessionTable.updateOf s source)) = none ↔
      q.capacity ≤ q.events.length ∧ s.endpoint ≠ some source := by
  have hone : ∀ e, q.sendAll? [e] = none ↔ q.capacity ≤ q.events.length := by
    intro e
    rw [EventQueue.sendAll?, ← Nat.not_lt]
    by_cases hroom : q.events.length < q.capacity
    · rw [EventQueue.send?_of_lt ho hroom]
      simp [EventQueue.sendAll?, hroom]
    · rw [EventQueue.send?_of_not_lt ho hroom]
      simp [hroom]
  -- there is news if nobody has an endpoint yet or it has changed; a session tells which
  obtain ⟨id, token, username, endpoint⟩ := s
  cases endpoint with
  | none => exact (hone _).trans (by simp)
  | some previous =>
    show q.sendAll?
      (endpointEvents _ _ (if previous = source then .unchanged else .moved)) = none ↔ _
    by_cases hsame : previous = source
    · rw [if_pos hsame]
      simp [endpointEvents, EventQueue.sendAll?, hsame]
    · rw [if_neg hsame]
      exact (hone _).trans (by simp [hsame])

/-- A datagram has to wait exactly if it tells of an endpoint and the queue is full. -/
theorem receive?_eq_none_iff (ho : g.queue.isOpen = true) :
    g.receive? source datagram = none ↔
      g.queue.capacity ≤ g.queue.events.length ∧ ∃ header body s,
        Header.validate datagram = .ok (header, body) ∧
          g.sessions.get? header.token = some s ∧ s.endpoint ≠ some source := by
  unfold receive?
  rw [Packet.authenticate?_take]
  unfold authenticate?
  split
  · -- a datagram that is refused at the door needs no room in the queue
    rename_i e hinvalid
    simp [hinvalid]
  · rename_i header body hvalid
    split
    · rename_i hunknown
      have hnone : g.sessions.get? header.token = none := SessionTable.touch_eq_none_iff.mp hunknown
      simp [hvalid, hnone]
    · rename_i id update sessions htouch
      obtain ⟨s, hs, heq⟩ := Option.map_eq_some_iff.mp htouch
      obtain ⟨⟨rfl, rfl⟩, -⟩ := And.imp_left Prod.mk.inj (Prod.mk.inj heq)
      have hsend : g.queue.sendAll?
          (endpointEvents s.playerId source (SessionTable.updateOf s source)) = none ↔ _ :=
        sendAll?_endpointEvents_eq_none_iff ho s source
      rw [Option.map_eq_none_iff]
      -- a datagram of a session waits if there is news and no room for it
      refine hsend.trans (and_congr_right fun _ => ?_)
      constructor
      · intro hne
        exact ⟨header, body, s, hvalid, hs, hne⟩
      · intro hex
        obtain ⟨header', body', s', hvalid', hs', hne⟩ := hex
        obtain ⟨rfl, -⟩ := Prod.mk.inj (Except.ok.inj (hvalid.symm.trans hvalid'))
        rw [show g.sessions.get? header.token = some s from hs, Option.some.injEq] at hs'
        rw [hs']
        exact hne

/-! ## What a gateway makes of a datagram -/

/-- A datagram carries a payload under the token of a session. -/
def Carries (g : Gateway) (datagram : List UInt8) (s : Session) (payload : Payload) : Prop :=
  ∃ token, Packet.decode datagram = .ok ⟨token, payload⟩ ∧ g.sessions.get? token = some s

/-- A datagram has no valid header, or the token of nobody. -/
def Ignores (g : Gateway) (datagram : List UInt8) : Prop :=
  ∀ header body, Header.validate datagram = .ok (header, body) →
    g.sessions.get? header.token = none

/-- There is room for an input, after what is told of the endpoint. -/
def HasRoom (g : Gateway) (s : Session) (source : Endpoint) : Prop :=
  (g.queueAt s source).events.length < g.queue.capacity

/-- What a datagram ought to be counted as. -/
def CountsAs (g : Gateway) (source : Endpoint) (datagram : List UInt8) : Tally → Prop
  | .malformed => (∃ e, Header.validate datagram = .error e) ∨
    ¬ g.Ignores datagram ∧ ∃ e, Packet.decode datagram = .error e
  | .unauthenticated => g.Ignores datagram ∧ ∃ header, Header.validate datagram = .ok header
  | .inputs => ∃ s i, g.Carries datagram s (.input i) ∧ g.HasRoom s source
  | .inputsDropped => ∃ s i, g.Carries datagram s (.input i) ∧ ¬ g.HasRoom s source
  | .pings => ∃ s, g.Carries datagram s .ping
  | .unexpected => ∃ s payload, g.Carries datagram s payload ∧ (∀ i, payload ≠ .input i) ∧
    payload ≠ .ping

theorem Handles.countsAs (hh : g.Handles source datagram t sessions events replies) :
    g.CountsAs source datagram t := by
  cases hh with
  | stray invalid => exact .inl ⟨_, invalid⟩
  | @stranger header body valid unknown =>
    refine ⟨fun header' body' valid' => ?_, _, valid⟩
    obtain ⟨rfl, -⟩ := Prod.mk.inj (Except.ok.inj (valid.symm.trans valid'))
    exact unknown
  | @known header body s t inputs replies valid mine serves =>
    cases serves with
    | garbled read =>
      refine .inr ⟨fun hignores => ?_, _, read⟩
      rw [hignores header body valid] at mine
      cases mine
    | forwarded read room => exact ⟨s, _, ⟨_, read, mine⟩, room⟩
    | dropped read full => exact ⟨s, _, ⟨_, read, mine⟩, full⟩
    | answered read => exact ⟨s, _, read, mine⟩
    | passed read ne_input ne_ping => exact ⟨s, _, ⟨_, read, mine⟩, ne_input, ne_ping⟩

theorem Handles.ignored (hh : g.Handles source datagram t sessions events replies)
    (hi : g.Ignores datagram) : sessions = g.sessions ∧ events = [] ∧ replies = [] := by
  cases hh with
  | stray _ => exact ⟨rfl, rfl, rfl⟩
  | stranger _ _ => exact ⟨rfl, rfl, rfl⟩
  | known valid mine _ =>
    rw [hi _ _ valid] at mine
    cases mine

/-- A datagram under the token of a session is served. -/
theorem Handles.of_valid (hh : g.Handles source datagram t sessions events replies)
    {header : Header} {body : List UInt8} (valid : Header.validate datagram = .ok (header, body))
    (mine : g.sessions.get? header.token = some s) :
    sessions.byToken = g.sessions.byToken.modify header.token (fun s =>
        { s with endpoint := some source }) ∧
      ∃ inputs, events =
          endpointEvents s.playerId source (SessionTable.updateOf s source) ++ inputs ∧
        Serves (g.queueAt s source) s.playerId header.token source datagram t inputs replies := by
  cases hh with
  | stray invalid =>
    rw [valid] at invalid
    cases invalid
  | stranger valid' unknown =>
    obtain ⟨rfl, -⟩ := Prod.mk.inj (Except.ok.inj (valid.symm.trans valid'))
    rw [unknown] at mine
    cases mine
  | known valid' mine' serves =>
    obtain ⟨rfl, -⟩ := Prod.mk.inj (Except.ok.inj (valid.symm.trans valid'))
    obtain rfl := Option.some.inj (mine'.symm.trans mine)
    exact ⟨rfl, _, rfl, serves⟩

theorem Handles.of_decode (hh : g.Handles source datagram t sessions events replies)
    {token : UInt32} (read : Packet.decode datagram = .ok ⟨token, payload⟩)
    (mine : g.sessions.get? token = some s) :
    ∃ inputs, events =
        endpointEvents s.playerId source (SessionTable.updateOf s source) ++ inputs ∧
      Serves (g.queueAt s source) s.playerId token source datagram t inputs replies := by
  obtain ⟨header, body, valid, rfl⟩ := Packet.validate_of_decode read
  exact (hh.of_valid valid mine).2

theorem filter_isInput_endpointEvents (p : UInt8) (source : Endpoint) (u : EndpointUpdate) :
    (endpointEvents p source u).filter Event.isInput = [] := by
  cases u <;> rfl

/-- At most one input is told of. -/
theorem Handles.single (hh : g.Handles source datagram t sessions events replies) :
    (events.filter Event.isInput).length ≤ 1 := by
  cases hh with
  | stray _ => exact Nat.zero_le _
  | stranger _ _ => exact Nat.zero_le _
  | known _ _ serves =>
    rw [List.filter_append, filter_isInput_endpointEvents, List.nil_append]
    refine Nat.le_trans (List.length_filter_le _ _) ?_
    cases serves with
    | forwarded | garbled | dropped | answered | passed => simp

/-- An input is told of exactly if a session sends it and there is room. -/
theorem Handles.input_mem_iff (hh : g.Handles source datagram t sessions events replies) (p : UInt8)
    (i : Input) : .input p i ∈ events ↔
      ∃ s, g.Carries datagram s (.input i) ∧ s.playerId = p ∧ g.HasRoom s source := by
  -- the news of an endpoint is never an input
  have hnot : ∀ {q u}, .input p i ∉ endpointEvents q source u := by
    intro q u hmem
    have hinput : .input p i ∈ (endpointEvents q source u).filter Event.isInput :=
      List.mem_filter.mpr ⟨hmem, rfl⟩
    rw [filter_isInput_endpointEvents] at hinput
    cases hinput
  constructor
  · intro hmem
    cases hh with
    | stray _ => cases hmem
    | stranger _ _ => cases hmem
    | @known header body s _ _ _ valid mine serves =>
      have hinput := (List.mem_append.mp hmem).resolve_left hnot
      cases serves with
      | forwarded read room =>
        obtain ⟨rfl, rfl⟩ := Event.input.inj (List.mem_singleton.mp hinput)
        exact ⟨s, ⟨_, read, mine⟩, rfl, room⟩
      -- only an input that is read and has room leads to one
      | garbled | dropped | answered | passed => cases hinput
  · intro hex
    obtain ⟨s, ⟨token, read, mine⟩, rfl, room⟩ := hex
    obtain ⟨inputs, rfl, serves⟩ := hh.of_decode read mine
    refine List.mem_append_right _ ?_
    cases serves with
    | forwarded read' _ =>
      cases read.symm.trans read'
      exact List.mem_cons_self
    -- the queue is full or has room, and the payload is one thing: the other ways contradict that
    | dropped _ full => exact absurd room full
    | garbled read' => cases read.symm.trans read'
    | answered read' => cases read.symm.trans read'
    | passed read' ne_input _ =>
      cases read.symm.trans read'
      exact absurd rfl (ne_input i)

/-- A ping is answered. -/
theorem Handles.replies_of_ping (hh : g.Handles source datagram t sessions events replies)
    {token : UInt32} (read : Packet.decode datagram = .ok ⟨token, .ping⟩)
    (mine : g.sessions.get? token = some s) :
    replies = [⟨source, (⟨token, .pong⟩ : Packet).encode⟩] := by
  obtain ⟨inputs, -, serves⟩ := hh.of_decode read mine
  cases serves with
  | answered _ => rfl
  | garbled read' => cases read.symm.trans read'
  | forwarded read' _ => cases read.symm.trans read'
  | dropped read' _ => cases read.symm.trans read'
  | passed read' _ ne_ping =>
    cases read.symm.trans read'
    exact absurd rfl ne_ping

/-- And nothing else is. -/
theorem Handles.replies_of_no_ping (hh : g.Handles source datagram t sessions events replies)
    (h : ∀ s, ¬ g.Carries datagram s .ping) : replies = [] := by
  cases hh with
  | stray _ => rfl
  | stranger _ _ => rfl
  | @known _ _ s _ _ _ _ mine serves =>
    cases serves with
    | answered read => exact absurd ⟨_, read, mine⟩ (h s)
    | garbled | forwarded | dropped | passed => rfl

/-- What a gateway makes of a datagram. -/
structure Receives (g : Gateway) (source : Endpoint) (datagram : List UInt8) (g' : Gateway) :
    Prop where
  /-- It is counted when it comes in. -/
  received : g'.counters.datagramsIn = g.counters.datagramsIn + 1
  /-- It is counted once more, as what it is. -/
  counted : ∃ t, g.CountsAs source datagram t ∧
    ∀ t', g'.counters.tally t' = g.counters.tally t' + if t' = t then 1 else 0
  /-- Without a valid header, or under the token of nobody, it does nothing else. -/
  ignored : g.Ignores datagram →
    g'.sessions = g.sessions ∧ g'.queue = g.queue ∧ g'.replies = g.replies
  /-- Under the token of a session it tells where the player is, and leaves the others alone. -/
  touched : ∀ {header body s}, Header.validate datagram = .ok (header, body) →
    g.sessions.get? header.token = some s → ∀ k, g'.sessions.get? k =
      if header.token = k then some { s with endpoint := some source } else g.sessions.get? k
  /-- Whatever is told comes to the queue, and nothing is taken from it. -/
  queued : g'.queue =
    { g.queue with events := g.queue.events ++ g.told (.receive source datagram) }
  /-- An input is told of exactly if it comes under the token of a session and there is room. It is
  told as it came, for the player of the session, whatever it says itself. -/
  input : ∀ p i, .input p i ∈ g.told (.receive source datagram) ↔
    ∃ s, g.Carries datagram s (.input i) ∧ s.playerId = p ∧ g.HasRoom s source
  single : ((g.told (.receive source datagram)).filter Event.isInput).length ≤ 1
  /-- A ping under the token of a session is answered where it came from, under the same token. -/
  answered : ∀ {token s}, Packet.decode datagram = .ok ⟨token, .ping⟩ →
    g.sessions.get? token = some s → ∃ reply, g'.replies = g.replies ++ [reply] ∧
      reply.recipient = source ∧ Packet.decode reply.bytes = .ok ⟨token, .pong⟩
  /-- Nothing else is answered. -/
  silent : (∀ s, ¬ g.Carries datagram s .ping) → g'.replies = g.replies

theorem receives_of_step? (ho : g.queue.isOpen = true)
    (h : g.step? (.receive source datagram) = some g') : g.Receives source datagram g' := by
  obtain ⟨t, sessions, events, replies, hh, rfl⟩ := handles_of_receive? ho h
  have htold : g.told (.receive source datagram) = events := told_of_queue h (by simp) rfl
  -- by fields: each is a fact on how a datagram is handled, whatever way it is
  exact {
    received := g.counters.datagramsIn_enter t
    counted := ⟨t, hh.countsAs, g.counters.tally_enter t⟩
    ignored := by
      intro hi
      obtain ⟨rfl, rfl, rfl⟩ := hh.ignored hi
      rw [treated_nil]
      exact ⟨rfl, rfl, rfl⟩
    touched := by
      intro header body s valid mine k
      have hget : (g.treated t sessions events replies).sessions.get? k = _ :=
        get?_touched (hh.of_valid valid mine).1 k
      rw [hget]
      split
      · rename_i hk
        rw [← hk, mine, Option.map_some]
      · rfl
    queued := by
      rw [htold]
      rfl
    input := by
      rw [htold]
      exact hh.input_mem_iff
    single := by
      rw [htold]
      exact hh.single
    answered := by
      intro token s read mine
      refine ⟨_, congrArg (g.replies ++ ·) (hh.replies_of_ping read mine), rfl, ?_⟩
      exact Packet.decode_encode_arrived ⟨token, .pong⟩
    silent := by
      intro hno
      show g.replies ++ replies = g.replies
      rw [hh.replies_of_no_ping hno, List.append_nil]
  }

/-! ## Runs -/

variable {n : Nat} {c : Connection} {a : Action}

/-- The counters and the replies are the business of datagrams alone. -/
def Recorded (g g' : Gateway) : Prop := g'.counters = g.counters ∧ g'.replies = g.replies

theorem recorded_of_requestAdmission {username : String}
    (h : g.requestAdmission n c username = some g') : g.Recorded g' := by
  unfold requestAdmission at h
  split at h
  · obtain rfl := Option.some.inj h
    exact ⟨rfl, rfl⟩
  · cases h
  · split at h
    · obtain ⟨queue, -, rfl⟩ := Option.map_eq_some_iff.mp h
      exact ⟨rfl, rfl⟩
    · obtain rfl := Option.some.inj h
      exact ⟨rfl, rfl⟩

theorem recorded_of_hear {m : Control.Message} (h : g.hear? n c m = some g') : g.Recorded g' := by
  unfold hear? at h
  split at h
  case h_1 => exact recorded_of_requestAdmission h
  case h_7 => cases h
  all_goals
    obtain rfl := Option.some.inj h
    exact ⟨rfl, rfl⟩

theorem recorded_of_hangUp (h : g.hangUp? n c = some g') : g.Recorded g' := by
  unfold hangUp? at h
  split at h
  · obtain rfl := Option.some.inj h
    exact ⟨rfl, rfl⟩
  · obtain rfl := Option.some.inj h
    exact ⟨rfl, rfl⟩
  · cases h

theorem recorded_of_greet (h : g.greet? n c = some g') : g.Recorded g' := by
  unfold greet? at h
  split at h
  · obtain rfl := Option.some.inj h
    exact ⟨rfl, rfl⟩
  · cases h

theorem recorded_of_relay (h : g.relay? n c = some g') : g.Recorded g' := by
  unfold relay? at h
  split at h
  · dsimp only at h
    split at h
    · obtain rfl := Option.some.inj h
      exact ⟨rfl, rfl⟩
    · obtain rfl := Option.some.inj h
      exact ⟨rfl, rfl⟩
  · cases h

theorem recorded_of_depart (h : g.depart? n c = some g') : g.Recorded g' := by
  unfold depart? at h
  split at h
  · dsimp only at h
    split at h
    · obtain rfl := Option.some.inj h
      exact ⟨rfl, rfl⟩
    · obtain ⟨queue, -, rfl⟩ := Option.map_eq_some_iff.mp h
      exact ⟨rfl, rfl⟩
  · cases h

/-- Whatever is no datagram leaves the counters and the replies alone. -/
theorem recorded_of_step? (ha : a.isReceive = false) (h : g.step? a = some g') : g.Recorded g' := by
  -- a step of a connection that exists
  have hstep : ∀ {k f}, g.onConnection k f = some g' → ∃ c, f c = some g' := by
    intro k f hf
    obtain ⟨c, -, hc⟩ := Option.bind_eq_some_iff.mp hf
    exact ⟨c, hc⟩
  cases a with
  | accept k =>
    have hnew : (if g.connections.contains k then none else some (g.setConnection k .fresh)) =
        some g' := h
    split at hnew
    · cases hnew
    · obtain rfl := Option.some.inj hnew
      exact ⟨rfl, rfl⟩
  | hear k m => exact (hstep h).elim fun _ => recorded_of_hear
  | hangUp k => exact (hstep h).elim fun _ => recorded_of_hangUp
  | breakOff k =>
    obtain ⟨c, hc⟩ := hstep h
    obtain rfl := Option.some.inj hc
    exact ⟨rfl, rfl⟩
  | greet k => exact (hstep h).elim fun _ => recorded_of_greet
  | relay k => exact (hstep h).elim fun _ => recorded_of_relay
  | depart k => exact (hstep h).elim fun _ => recorded_of_depart
  | receive source datagram => cases ha
  | handOver =>
    obtain ⟨⟨e, queue⟩, -, rfl⟩ := Option.map_eq_some_iff.mp h
    exact ⟨rfl, rfl⟩
  | shutDown =>
    obtain rfl := Option.some.inj h
    exact ⟨rfl, rfl⟩

/-- The counters stay balanced, and they count every datagram. -/
theorem Orderly.balanced_step (hg : g.Orderly) (h : g.step? a = some g')
    (hb : g.counters.Balanced) : g'.counters.Balanced ∧
      g'.counters.datagramsIn = g.counters.datagramsIn + if a.isReceive then 1 else 0 := by
  cases ha : a.isReceive with
  | false =>
    rw [(recorded_of_step? ha h).1]
    exact ⟨hb, rfl⟩
  | true =>
    cases a with
    | receive source datagram =>
      obtain ⟨t, sessions, events, replies, -, rfl⟩ := handles_of_receive? hg.isOpen h
      exact ⟨hb.enter t, g.counters.datagramsIn_enter t⟩
    | accept | hear | hangUp | breakOff | greet | relay | depart | handOver | shutDown => cases ha

theorem Orderly.balanced_run {actions : List Action} (hg : g.Orderly) (hopen : .shutDown ∉ actions)
    (h : g.run? actions = some g') (hb : g.counters.Balanced) : g'.counters.Balanced ∧
      g'.counters.datagramsIn = g.counters.datagramsIn + actions.countP Action.isReceive := by
  induction actions generalizing g with
  | nil =>
    obtain rfl := Option.some.inj h
    exact ⟨hb, rfl⟩
  | cons a rest ih =>
    obtain ⟨g₁, ha, hrest⟩ := run?_cons h
    rw [List.mem_cons, not_or] at hopen
    obtain ⟨hb₁, hone⟩ := hg.balanced_step ha hb
    obtain ⟨hb', hall⟩ := ih (hg.step (Ne.symm hopen.1) ha) hopen.2 hrest hb₁
    refine ⟨hb', ?_⟩
    rw [hall, hone, List.countP_cons]
    omega

/-- **Every datagram is accounted for**, as long as the queue is open. Each is counted as it comes
in and once more as what it is, and does no more than that allows (`Receives`). The simulation is
told of all that becomes of the sessions, in order, however full the queue is: a datagram that tells
of an endpoint waits for room, and only inputs are dropped. Nothing but datagrams touches the
counters and the replies. -/
theorem run_receives {maxPlayers : UInt8} {capacity : Nat} {udpPort : UInt16} {r : Generator}
    {actions : List Action} {g : Gateway}
    (h : (start maxPlayers capacity udpPort r).run? actions = some g)
    (hopen : .shutDown ∉ actions) :
    g.counters.datagramsIn = actions.countP Action.isReceive ∧ g.counters.Balanced ∧
      (start maxPlayers capacity udpPort r).taken actions ++ g.queue.events =
        (start maxPlayers capacity udpPort r).history actions ∧
      ((start maxPlayers capacity udpPort r).history actions).filter (fun e => !e.isInput) =
        (start maxPlayers capacity udpPort r).changes actions ∧
      (∀ source datagram, g.step? (.receive source datagram) = none ↔
        g.queue.capacity ≤ g.queue.events.length ∧ ∃ header body s,
          Header.validate datagram = .ok (header, body) ∧
            g.sessions.get? header.token = some s ∧ s.endpoint ≠ some source) ∧
      ∀ before a after g₁, actions = before ++ a :: after →
        (start maxPlayers capacity udpPort r).run? before = some g₁ → ∃ g₂, g₁.step? a = some g₂ ∧
          (∀ source datagram, a = .receive source datagram → g₁.Receives source datagram g₂) ∧
          (a.isReceive = false → g₂.counters = g₁.counters ∧ g₂.replies = g₁.replies) := by
  have hstart := orderly_start maxPlayers capacity udpPort r
  obtain ⟨hbalanced, hcount⟩ := hstart.balanced_run hopen h rfl
  refine ⟨?_, hbalanced, (hstart.queue_run hopen h).symm, hstart.history_changes hopen h,
    fun source datagram => receive?_eq_none_iff (hstart.run hopen h).isOpen, ?_⟩
  · rw [hcount]
    exact Nat.zero_add _
  · -- the run is cut before the step, so that the gateway there is one that a run leads to
    intro before a after g₁ hactions hbefore
    subst hactions
    rw [List.mem_append, not_or] at hopen
    obtain ⟨g₁', h₁, hrest⟩ := run?_append h
    rw [hbefore, Option.some.injEq] at h₁
    subst h₁
    obtain ⟨g₂, ha, -⟩ := run?_cons hrest
    refine ⟨g₂, ha, fun source datagram heq => ?_, fun hreceive => recorded_of_step? hreceive ha⟩
    subst heq
    exact receives_of_step? (hstart.run hopen.1 hbefore).isOpen ha

/-- A packet of a client. -/
def sent (token : UInt32) (payload : Payload) : List UInt8 := (⟨token, payload⟩ : Packet).encode

/-- There is room for two events. Datagrams of all sorts come for a player, from the same place. The
first input comes while the queue is full, for it is also the first that tells of the endpoint. -/
def mixedDatagrams : List Action :=
  let home : Endpoint := ⟨.v4 (.replicate 4 10), 7001⟩
  let input : Payload := .input ⟨9, 1, shootButton, 1, 0⟩
  [.accept 0,
    .hear 0 (.connect "ada" "1.0"),
    .greet 0,
    .receive home [0xcd, 0xab],
    .receive home (sent 8 .ping),
    .receive home (sent 7 input),
    .handOver,
    .receive home (sent 7 input),
    .receive home (sent 7 .pong),
    .receive home (sent 7 .ping)]

theorem run_receives_of_mixedDatagrams : ∃ g g₁ g₂ reply,
    (start 4 2 7000 (.cycle [7, 9])).run? mixedDatagrams = some g ∧ .shutDown ∉ mixedDatagrams ∧
    g.counters = ⟨6, 1, 1, 1, 1, 1, 1, 0, 0⟩ ∧ g.counters.Balanced ∧
    ((start 4 2 7000 (.cycle [7, 9])).history mixedDatagrams).filter (fun e => !e.isInput) =
      (start 4 2 7000 (.cycle [7, 9])).changes mixedDatagrams ∧
    (start 4 2 7000 (.cycle [7, 9])).run? (mixedDatagrams.take 9) = some g₁ ∧
    g₁.step? (.receive ⟨.v4 (.replicate 4 10), 7001⟩ (sent 7 .ping)) = some g₂ ∧
    g₂.replies = g₁.replies ++ [reply] ∧ Packet.decode reply.bytes = .ok ⟨7, .pong⟩ := by
  obtain ⟨g, h⟩ := Option.isSome_iff_exists.mp (show
    ((start 4 2 7000 (.cycle [7, 9])).run? mixedDatagrams).isSome by decide +kernel)
  obtain ⟨g₁, h₁⟩ := Option.isSome_iff_exists.mp (show
    ((start 4 2 7000 (.cycle [7, 9])).run? (mixedDatagrams.take 9)).isSome by decide +kernel)
  have hopen : .shutDown ∉ mixedDatagrams := by decide +kernel
  have hcounters : ((start 4 2 7000 (.cycle [7, 9])).run? mixedDatagrams).map Gateway.counters =
      some ⟨6, 1, 1, 1, 1, 1, 1, 0, 0⟩ := by
    decide +kernel
  have hsession : (((start 4 2 7000 (.cycle [7, 9])).run? (mixedDatagrams.take 9)).bind fun g =>
      g.sessions.get? 7).isSome := by
    decide +kernel
  rw [h, Option.map_some, Option.some.injEq] at hcounters
  rw [h₁, Option.bind_some] at hsession
  obtain ⟨s, hs⟩ := Option.isSome_iff_exists.mp hsession
  obtain ⟨-, hbalanced, -, hchanges, -, heach⟩ := run_receives h hopen
  obtain ⟨g₂, hstep, hreceives, -⟩ := heach (mixedDatagrams.take 9) _ [] g₁ rfl h₁
  have hread : Packet.decode (sent 7 .ping) = .ok ⟨7, .ping⟩ := by decide +kernel
  obtain ⟨reply, hreplies, -, hpong⟩ := (hreceives _ _ rfl).answered hread hs
  exact ⟨g, g₁, g₂, reply, h, hopen, hcounters, hbalanced, hchanges, h₁, hstep, hreplies, hpong⟩

end Gateway

end Skirmish
