import Skirmish.Gateway.Basic
/-!
# What a connection can do

A step of the gateway is taken by one of the connections, or it is none of their business. `Turn` is a
list of everything that a step of a connection can be, with what becomes of the connection, what the
simulation is told and what becomes of the sessions. `turn_of_step?` says that the list is complete, as
long as the queue is open and the session of a connection that is leaving is still in the table.

The notices that a connection keeps are left out of this (`Connection.aside`), for they come and go
with what the other connections do. All that is said of them is that each is about somebody's coming or
going (`Gateway.Recalls`).
-/

namespace Skirmish

namespace EventQueue

variable {q q' : EventQueue}

/-- An open queue has room or is full. -/
theorem state_of_isOpen (ho : q.isOpen = true) :
    q.state = if q.events.length < q.capacity then .accepted else .full := by
  rw [state, ho]
  rfl

/-- It takes an event if there is room. -/
theorem send?_of_lt {e : Event} (ho : q.isOpen = true) (h : q.events.length < q.capacity) :
    q.send? e = some (q.push e) := by
  rw [send?, state_of_isOpen ho, if_pos h]

/-- And otherwise it makes the sender wait. -/
theorem send?_of_not_lt {e : Event} (ho : q.isOpen = true) (h : ¬ q.events.length < q.capacity) :
    q.send? e = none := by
  rw [send?, state_of_isOpen ho, if_neg h]

theorem send?_of_isOpen {e : Event} (ho : q.isOpen = true) (h : q.send? e = some q') :
    q' = q.push e := by
  by_cases hroom : q.events.length < q.capacity
  · rw [send?_of_lt ho hroom] at h
    exact (Option.some.inj h).symm
  · rw [send?_of_not_lt ho hroom] at h
    cases h

theorem sendAll?_eq_of_isOpen {es : List Event} (ho : q.isOpen = true)
    (h : q.sendAll? es = some q') : q' = { q with events := q.events ++ es } := by
  induction es generalizing q with
  | nil =>
    obtain rfl := Option.some.inj h
    rw [List.append_nil]
  | cons e rest ih =>
    obtain ⟨q₁, h₁, h₂⟩ := Option.bind_eq_some_iff.mp h
    obtain rfl := send?_of_isOpen ho h₁
    have ho₁ : (q.push e).isOpen = true := ho
    rw [ih ho₁ h₂]
    show { q with events := q.events ++ [e] ++ rest } = _
    rw [List.append_assoc]
    rfl

theorem sendAll?_of_isOpen {es : List Event} (ho : q.isOpen = true)
    (h : q.sendAll? es = some q') : q'.events = q.events ++ es ∧ q'.isOpen = true := by
  obtain rfl := sendAll?_eq_of_isOpen ho h
  exact ⟨rfl, ho⟩

end EventQueue

namespace Connection

/-- A connection without the notices that it keeps. -/
def aside (c : Connection) : Connection := { c with inbox := [] }

theorem aside_post (c : Connection) (notice : Notice) : (c.post notice).aside = c.aside := by
  unfold post
  split
  · rfl
  · rfl

theorem aside_write (c : Connection) (m : Control.Message) (next failed : Phase) :
    (c.write m next failed).aside = c.aside.write m next failed := by
  unfold write aside
  split
  · rfl
  · rfl

/-- Writing leads to one phase or to the other. -/
theorem write_elim (P : Connection → Prop) {c : Connection} {m : Control.Message}
    {next failed : Phase} (hn : P { c with sent := c.sent ++ [m], phase := next })
    (hf : P { c with phase := failed }) : P (c.write m next failed) := by
  unfold write
  split
  · exact hn
  · exact hf

theorem inbox_write (c : Connection) (m : Control.Message) (next failed : Phase) :
    (c.write m next failed).inbox = c.inbox :=
  write_elim (fun c' => c'.inbox = c.inbox) rfl rfl

/-- A notice that is kept was kept before, or is new. -/
theorem mem_inbox_post {c : Connection} {notice kept : Notice} (h : kept ∈ (c.post notice).inbox) :
    kept ∈ c.inbox ∨ kept = notice := by
  unfold post at h
  split at h
  · have hmem : kept ∈ c.inbox ++ [notice] := List.mem_of_mem_drop h
    rcases List.mem_append.mp hmem with hold | hnew
    · exact .inl hold
    · exact .inr (List.mem_singleton.mp hnew)
  · exact .inl h

/-- A written message makes no difference to the session if neither phase does. -/
theorem session?_write {c : Connection} {s : Option Session} (m : Control.Message)
    {next failed : Phase} (hs : c.session? = s) (hn : { c with phase := next }.session? = s)
    (hf : { c with phase := failed }.session? = s) :
    (c.write m next failed).session? = c.session? := by
  rw [hs]
  exact write_elim (fun c' => c'.session? = s) hn hf

end Connection

/-- The connection whose step it is. -/
def Action.connection? : Action → Option Nat
  | .accept n | .hear n _ | .hangUp n | .breakOff n | .greet n | .relay n | .depart n => some n
  | .receive _ _ | .handOver | .shutDown => none

namespace Gateway

variable {g g' : Gateway} {n : Nat} {c : Connection}

/-- A connection, without the notices that it keeps. -/
def talk? (g : Gateway) (n : Nat) : Option Connection :=
  (g.connections.get? n).map Connection.aside

theorem talk?_of_get? (hc : g.connections.get? n = some c) : g.talk? n = some c.aside := by
  rw [talk?, hc, Option.map_some]

theorem talk?_setConnection (g : Gateway) (n : Nat) (c : Connection) (k : Nat) :
    (g.setConnection n c).talk? k = if n = k then some c.aside else g.talk? k := by
  show ((g.connections.insert n c).get? k).map _ = _
  rw [SortedMap.get?_insert]
  split
  · rfl
  · rfl

theorem talk?_post (g : Gateway) (notice : Notice) (k : Nat) :
    (g.post notice).talk? k = g.talk? k := by
  show ((g.connections.post notice).get? k).map _ = _
  rw [Connections.post, SortedMap.get?_map, talk?, Option.map_map]
  congr 1
  funext c
  exact c.aside_post notice

/-! ## Notices -/

/-- Somebody comes or goes. -/
def IsNews (notice : Notice) : Prop := ∃ s, notice = joinNotice s ∨ notice = leaveNotice s

/-- The notices that are kept were kept before, or somebody comes or goes. -/
def Recalls (g g' : Gateway) : Prop :=
  ∀ {k c'}, g'.connections.get? k = some c' → ∀ notice ∈ c'.inbox,
    (∃ c, g.connections.get? k = some c ∧ notice ∈ c.inbox) ∨ IsNews notice

theorem recalls_of_connections (h : g'.connections = g.connections) : g.Recalls g' := by
  intro k c' hc' notice hmem
  rw [h] at hc'
  exact .inl ⟨c', hc', hmem⟩

theorem recalls_setConnection {c' : Connection}
    (h : ∀ notice ∈ c'.inbox, ∃ c, g.connections.get? n = some c ∧ notice ∈ c.inbox) :
    g.Recalls (g.setConnection n c') := by
  intro k c₁ hc₁ notice hmem
  have hget : (g.connections.insert n c').get? k = some c₁ := hc₁
  rw [SortedMap.get?_insert] at hget
  split at hget
  · rename_i hk
    obtain rfl := Option.some.inj hget
    exact .inl (hk ▸ h notice hmem)
  · exact .inl ⟨c₁, hget, hmem⟩

theorem Recalls.post {notice : Notice} (h : g.Recalls g') (hn : IsNews notice) :
    g.Recalls (g'.post notice) := by
  intro k c₁ hc₁ kept hmem
  have hget : (g'.connections.post notice).get? k = some c₁ := hc₁
  rw [Connections.post, SortedMap.get?_map] at hget
  obtain ⟨c', hc', rfl⟩ := Option.map_eq_some_iff.mp hget
  rcases Connection.mem_inbox_post hmem with hold | rfl
  · exact h hc' kept hold
  · exact .inr hn

/-! ## The list -/

/-- A step of one connection: what becomes of the connection, what the simulation is told, and what
becomes of the sessions. -/
inductive Turn (g : Gateway) (n : Nat) (c : Connection) :
    Action → Connection → List Event → SessionTable → Prop
  /-- A player is turned away and may try again. -/
  | refused {username version : String} {reason : Control.Refusal} (phase : c.phase = .greeting)
      (join : g.sessions.join Generator.patience username g.generator = .error (.refused reason)) :
      Turn g n c (.hear n (.connect username version))
        (c.write (.connectError reason) .greeting .ended) [] g.sessions
  /-- A player is admitted. -/
  | admitted {username version : String} {s : Session} {sessions : SessionTable} {r : Generator}
      (phase : c.phase = .greeting)
      (join : g.sessions.join Generator.patience username g.generator = .ok (s, sessions, r)) :
      Turn g n c (.hear n (.connect username version)) { c with phase := .welcoming s }
        [.connected s.playerId s.username] sessions
  /-- A player who has been admitted is told so. -/
  | greeted {s : Session} (phase : c.phase = .welcoming s) :
      Turn g n c (.greet n)
        (c.write (.connectOk s.playerId s.token g.udpPort) (.serving s) (.leaving s)) [] g.sessions
  /-- A player who has a session asks for another. -/
  | again {username version : String} {s : Session} (phase : c.phase = .serving s) :
      Turn g n c (.hear n (.connect username version))
        (c.write (.connectError .alreadyConnected) (.serving s) (.leaving s)) [] g.sessions
  /-- Somebody without a session goes. -/
  | dismissed (phase : c.phase = .greeting) :
      Turn g n c (.hear n .disconnect) (c.write .disconnectOk .ended .ended) [] g.sessions
  /-- A player goes. -/
  | released {s : Session} (phase : c.phase = .serving s) :
      Turn g n c (.hear n .disconnect) (c.write .disconnectOk (.leaving s) (.leaving s)) []
        g.sessions
  /-- A message is passed over. -/
  | passed {m : Control.Message} (phase : c.phase = .greeting ∨ ∃ s, c.phase = .serving s)
      (ne_connect : ∀ username version, m ≠ .connect username version)
      (ne_disconnect : m ≠ .disconnect) : Turn g n c (.hear n m) c [] g.sessions
  /-- Somebody without a session hangs up. -/
  | lost (phase : c.phase = .greeting) :
      Turn g n c (.hangUp n) { c with phase := .ended } [] g.sessions
  /-- A player hangs up. -/
  | dropped {s : Session} (phase : c.phase = .serving s) :
      Turn g n c (.hangUp n) { c with phase := .leaving s } [] g.sessions
  /-- From now on writing fails. -/
  | cutOff : Turn g n c (.breakOff n) { c with isWritable := false } [] g.sessions
  /-- A notice about the player of the connection is not relayed. -/
  | skipped {s : Session} (phase : c.phase = .serving s) : Turn g n c (.relay n) c [] g.sessions
  /-- A notice that has been kept is relayed. -/
  | relayed {s : Session} {full : Connection} {notice : Notice} (phase : c.phase = .serving s)
      (here : g.connections.get? n = some full) (kept : notice ∈ full.inbox) :
      Turn g n c (.relay n) (c.write notice.message (.serving s) (.leaving s)) [] g.sessions
  /-- The session of a connection ends. -/
  | departed {s : Session} (phase : c.phase = .leaving s) :
      Turn g n c (.depart n) { c with phase := .ended } [.disconnected s.playerId]
        (g.sessions.close s.token)

/-- What becomes of the gateway when this becomes of a connection. -/
structure Becomes (g : Gateway) (n : Nat) (c' : Connection) (told : List Event)
    (sessions : SessionTable) (g' : Gateway) : Prop where
  talk : ∀ k, g'.talk? k = if n = k then some c' else g.talk? k
  sessions : g'.sessions = sessions
  events : g'.queue.events = g.queue.events ++ told
  isOpen : g'.queue.isOpen = g.queue.isOpen
  udpPort : g'.udpPort = g.udpPort
  recalls : g.Recalls g'

/-- A step of a connection as one of the list. -/
def Turns (g : Gateway) (n : Nat) (c : Connection) (a : Action) (g' : Gateway) : Prop :=
  ∃ c' told sessions, g.Turn n c a c' told sessions ∧ g.Becomes n c' told sessions g'

/-- A connection changes and keeps no notice that it has not kept. -/
theorem becomes_setConnection (c' : Connection) (hc : g.connections.get? n = some c)
    (hsub : ∀ notice ∈ c'.inbox, notice ∈ c.inbox) :
    g.Becomes n c'.aside [] g.sessions (g.setConnection n c') :=
  ⟨talk?_setConnection g n c', rfl, (List.append_nil _).symm, rfl, rfl,
    recalls_setConnection fun notice h => ⟨c, hc, hsub notice h⟩⟩

/-- A connection writes. -/
theorem becomes_write (c₁ : Connection) (hc : g.connections.get? n = some c)
    (hsub : ∀ notice ∈ c₁.inbox, notice ∈ c.inbox) (m : Control.Message) (next failed : Phase) :
    g.Becomes n (c₁.aside.write m next failed) [] g.sessions
      (g.setConnection n (c₁.write m next failed)) := by
  have hb := becomes_setConnection (c₁.write m next failed) hc
    fun notice h => hsub notice (c₁.inbox_write m next failed ▸ h)
  rw [Connection.aside_write] at hb
  exact hb

/-- Nothing becomes of the gateway. -/
theorem becomes_self (hc : g.connections.get? n = some c) : g.Becomes n c.aside [] g.sessions g := by
  refine ⟨fun k => ?_, rfl, (List.append_nil _).symm, rfl, rfl, recalls_of_connections rfl⟩
  split
  · rename_i hk
    rw [← hk, talk?_of_get? hc]
  · rfl

/-! ## The list is complete -/

theorem turns_of_requestAdmission {username version : String} (ho : g.queue.isOpen = true)
    (hc : g.connections.get? n = some c) (hp : c.phase = .greeting)
    (h : g.requestAdmission n c username = some g') :
    g.Turns n c.aside (.hear n (.connect username version)) g' := by
  unfold requestAdmission at h
  split at h
  · rename_i reason hjoin
    obtain rfl := Option.some.inj h
    exact ⟨_, _, _, .refused hp hjoin, becomes_write c hc (fun _ => id) _ _ _⟩
  · cases h
  · rename_i s sessions r hjoin
    rw [if_pos ho] at h
    obtain ⟨queue, hsend, rfl⟩ := Option.map_eq_some_iff.mp h
    obtain rfl := EventQueue.send?_of_isOpen ho hsend
    -- the notice is kept by all connections, which is left out
    refine ⟨_, _, _, .admitted hp hjoin, fun k => ?_, rfl, rfl, rfl, rfl,
      Recalls.post ?_ ⟨s, .inl rfl⟩⟩
    · exact (talk?_post _ _ _).trans (talk?_setConnection _ _ _ _)
    · intro k c' hc'
      exact recalls_setConnection (g := g) (n := n) (by simp) hc'

theorem turns_of_hear {m : Control.Message} (ho : g.queue.isOpen = true)
    (hc : g.connections.get? n = some c) (h : g.hear? n c m = some g') :
    g.Turns n c.aside (.hear n m) g' := by
  -- by the phase, and by the message where the phase makes a difference
  unfold hear? at h
  split at h
  · rename_i username version hp
    exact turns_of_requestAdmission ho hc hp h
  · rename_i hp
    obtain rfl := Option.some.inj h
    exact ⟨_, _, _, .dismissed hp, becomes_write c hc (fun _ => id) _ _ _⟩
  · rename_i hp hconnect hdisconnect
    obtain rfl := Option.some.inj h
    exact ⟨_, _, _, .passed (.inl hp) hconnect hdisconnect, becomes_self hc⟩
  · rename_i s _ _ hp
    obtain rfl := Option.some.inj h
    exact ⟨_, _, _, .again hp, becomes_write c hc (fun _ => id) _ _ _⟩
  · rename_i s hp
    obtain rfl := Option.some.inj h
    exact ⟨_, _, _, .released hp, becomes_write c hc (fun _ => id) _ _ _⟩
  · rename_i s hp hconnect hdisconnect
    obtain rfl := Option.some.inj h
    exact ⟨_, _, _, .passed (.inr ⟨s, hp⟩) hconnect hdisconnect, becomes_self hc⟩
  · cases h

theorem turns_of_hangUp (hc : g.connections.get? n = some c) (h : g.hangUp? n c = some g') :
    g.Turns n c.aside (.hangUp n) g' := by
  unfold hangUp? at h
  split at h
  · rename_i hp
    obtain rfl := Option.some.inj h
    exact ⟨_, _, _, .lost hp, becomes_setConnection { c with phase := .ended } hc fun _ => id⟩
  · rename_i s hp
    obtain rfl := Option.some.inj h
    exact ⟨_, _, _, .dropped hp, becomes_setConnection { c with phase := .leaving s } hc fun _ => id⟩
  · cases h

theorem turns_of_greet (hc : g.connections.get? n = some c) (h : g.greet? n c = some g') :
    g.Turns n c.aside (.greet n) g' := by
  unfold greet? at h
  split at h
  · rename_i s hp
    obtain rfl := Option.some.inj h
    exact ⟨_, _, _, .greeted hp, becomes_write c hc (fun _ => id) _ _ _⟩
  · cases h

theorem turns_of_relay (hc : g.connections.get? n = some c) (h : g.relay? n c = some g') :
    g.Turns n c.aside (.relay n) g' := by
  unfold relay? at h
  split at h
  · rename_i s notice rest hp hinbox
    have hsub : ∀ kept ∈ rest, kept ∈ c.inbox := fun kept h => hinbox ▸ List.mem_cons_of_mem _ h
    dsimp only at h
    split at h
    · obtain rfl := Option.some.inj h
      exact ⟨_, _, _, .skipped hp, becomes_setConnection { c with inbox := rest } hc hsub⟩
    · obtain rfl := Option.some.inj h
      exact ⟨_, _, _, .relayed hp hc (hinbox ▸ List.mem_cons_self),
        becomes_write { c with inbox := rest } hc hsub _ _ _⟩
  · cases h

theorem turns_of_depart (ho : g.queue.isOpen = true) (hc : g.connections.get? n = some c)
    (hheld : ∀ s, c.phase = .leaving s → (g.sessions.get? s.token).isSome)
    (h : g.depart? n c = some g') : g.Turns n c.aside (.depart n) g' := by
  unfold depart? at h
  split at h
  · rename_i s hp
    obtain ⟨s₀, hs₀⟩ := Option.isSome_iff_exists.mp (hheld s hp)
    -- the session is in the table, so its end is not old news
    have hs₁ : (g.setConnection n { c with phase := .ended }).sessions.get? s.token = some s₀ := hs₀
    simp only [hs₁] at h
    obtain ⟨queue, hsend, rfl⟩ := Option.map_eq_some_iff.mp h
    have hopen : (g.setConnection n { c with phase := .ended }).queue.isOpen = true := ho
    obtain rfl := EventQueue.send?_of_isOpen hopen hsend
    refine ⟨_, _, _, .departed hp, fun k => ?_, rfl, rfl, rfl, rfl,
      Recalls.post ?_ ⟨s, .inr rfl⟩⟩
    · exact (talk?_post _ _ _).trans (talk?_setConnection _ _ _ _)
    · intro k c' hc'
      exact (becomes_setConnection { c with phase := .ended } hc fun _ => id).recalls hc'
  · cases h

theorem onConnection_of_get? {f : Connection → Option Gateway}
    (hc : g.connections.get? n = some c) : g.onConnection n f = f c := by
  rw [onConnection, hc, Option.bind_some]

/-- A connection that is there is not accepted again. -/
theorem step?_accept_of_get? (hc : g.connections.get? n = some c) : g.step? (.accept n) = none := by
  have hcontains : g.connections.contains n = true := by
    rw [SortedMap.contains, hc]
    rfl
  exact if_pos hcontains

/-- **Every step of a connection is on the list**, as long as the queue is open and a session does not
end behind the back of the connection that holds it. -/
theorem turn_of_step? {a : Action} (ho : g.queue.isOpen = true) (hn : a.connection? = some n)
    (hc : g.connections.get? n = some c)
    (hheld : ∀ s, c.phase = .leaving s → (g.sessions.get? s.token).isSome)
    (h : g.step? a = some g') : g.Turns n c.aside a g' := by
  -- the step is one of this connection
  have hstep : ∀ {f : Connection → Option Gateway}, g.onConnection n f = some g' →
      f c = some g' := fun hf => (onConnection_of_get? hc).symm.trans hf
  cases a with
  | accept k =>
    obtain rfl := Option.some.inj hn
    rw [step?_accept_of_get? hc] at h
    cases h
  | hear k m =>
    obtain rfl := Option.some.inj hn
    exact turns_of_hear ho hc (hstep h)
  | hangUp k =>
    obtain rfl := Option.some.inj hn
    exact turns_of_hangUp hc (hstep h)
  | breakOff k =>
    obtain rfl := Option.some.inj hn
    obtain rfl := Option.some.inj (hstep h)
    exact ⟨_, _, _, .cutOff, becomes_setConnection { c with isWritable := false } hc fun _ => id⟩
  | greet k =>
    obtain rfl := Option.some.inj hn
    exact turns_of_greet hc (hstep h)
  | relay k =>
    obtain rfl := Option.some.inj hn
    exact turns_of_relay hc (hstep h)
  | depart k =>
    obtain rfl := Option.some.inj hn
    exact turns_of_depart ho hc hheld (hstep h)
  | receive | handOver | shutDown => cases hn

/-- The only step of a connection that does not exist is that it is accepted. -/
theorem accept_of_step? {a : Action} (hn : a.connection? = some n)
    (hc : g.connections.get? n = none) (h : g.step? a = some g') :
    a = .accept n ∧ g' = g.setConnection n .fresh := by
  -- no step of a connection is possible that has not been accepted
  have hnone : ∀ {f : Connection → Option Gateway}, g.onConnection n f ≠ some g' := by
    intro f hf
    rw [onConnection, hc] at hf
    cases hf
  cases a with
  | accept k =>
    obtain rfl := Option.some.inj hn
    have hnew : (if g.connections.contains k then none else some (g.setConnection k .fresh)) =
        some g' := h
    have hcontains : ¬ g.connections.contains k = true := by
      rw [SortedMap.contains, hc]
      simp
    rw [if_neg hcontains] at hnew
    exact ⟨rfl, (Option.some.inj hnew).symm⟩
  | hear k | hangUp k | breakOff k | greet k | relay k | depart k =>
    obtain rfl := Option.some.inj hn
    exact absurd h hnone
  | receive | handOver | shutDown => cases hn

end Gateway

end Skirmish
