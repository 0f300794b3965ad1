import Skirmish.Gateway.Connection
import Skirmish.Gateway.Counters
import Skirmish.Gateway.Queue
import Skirmish.Wire.Packet
/-!
# The gateway

The gateway stands between the players and the simulation. It admits players over control
connections, knows them by their tokens when their datagrams come, and tells the simulation of
everything through one queue.

Each action of a connection, and each datagram, is one step (`Gateway.step?`). A step is not
possible while an event that may not be lost finds no room in the queue; nothing else happens to the
sessions in the meantime. Which of the possible steps comes next is left open.
-/

namespace Skirmish

structure Gateway where
  sessions : SessionTable
  queue : EventQueue
  connections : Connections
  counters : Counters
  /-- Where tokens come from. -/
  generator : Generator
  /-- The port that players are told. -/
  udpPort : UInt16
  /-- Answers to datagrams, in order. -/
  replies : List Datagram

/-- What can happen next. Connections are told by number. -/
inductive Action where
  /-- Someone connects. -/
  | accept (connection : Nat)
  /-- The next message of a connection is read. -/
  | hear (connection : Nat) (message : Control.Message)
  /-- There is nothing more to read, or reading fails. -/
  | hangUp (connection : Nat)
  /-- From now on writing fails. -/
  | breakOff (connection : Nat)
  /-- An admitted player is told so. -/
  | greet (connection : Nat)
  /-- A notice is relayed. -/
  | relay (connection : Nat)
  /-- The session of an ended connection ends. -/
  | depart (connection : Nat)
  | receive (source : Endpoint) (datagram : List UInt8)
  /-- The simulation takes an event. -/
  | handOver
  /-- The simulation goes. -/
  | shutDown
deriving DecidableEq, Repr

namespace Gateway

def start (maxPlayers : UInt8) (queueCapacity : Nat) (udpPort : UInt16) (g : Generator) :
    Gateway where
  sessions := .empty maxPlayers
  queue := .empty queueCapacity
  connections := ∅
  counters := {}
  generator := g
  udpPort := udpPort
  replies := []

def setConnection (g : Gateway) (n : Nat) (c : Connection) : Gateway :=
  { g with connections := g.connections.insert n c }

/-- Keeps a notice on all connections. -/
def post (g : Gateway) (n : Notice) : Gateway := { g with connections := g.connections.post n }

/-! ## Admission -/

def joinNotice (s : Session) : Notice := ⟨s.playerId, .playerJoin s.playerId s.username⟩

def leaveNotice (s : Session) : Notice := ⟨s.playerId, .playerLeave s.playerId⟩

/-- A player with a session is announced to the simulation and to the others. The connection counts
as subscribed, so it keeps the notice about itself as well. -/
def announce (g : Gateway) (n : Nat) (c : Connection) (s : Session) (queue : EventQueue) :
    Gateway :=
  { g.setConnection n { c with phase := .welcoming s, inbox := [] } with queue }.post (joinNotice s)

/-- A player asks for admission on a connection that has no session. -/
def requestAdmission (g : Gateway) (n : Nat) (c : Connection) (username : String) :
    Option Gateway :=
  match g.sessions.join Generator.patience username g.generator with
  | .error (.refused reason) =>
    some (g.setConnection n (c.write (.connectError reason) .greeting .ended))
  | .error .noToken => none
  | .ok (session, sessions, generator) =>
    if g.queue.isOpen then
      (g.queue.send? (.connected session.playerId session.username)).map fun queue =>
        { g with sessions, generator }.announce n c session queue
    -- nobody is left to tell, so the session is taken back
    else some ({ g with generator }.setConnection n { c with phase := .ended })

/-- What a message does on a connection. Messages that make no sense are passed over. -/
def hear? (g : Gateway) (n : Nat) (c : Connection) (m : Control.Message) : Option Gateway :=
  match c.phase, m with
  | .greeting, .connect username _ => g.requestAdmission n c username
  | .greeting, .disconnect => some (g.setConnection n (c.write .disconnectOk .ended .ended))
  | .greeting, _ => some g
  | .serving s, .connect _ _ =>
    some (g.setConnection n
      (c.write (.connectError .alreadyConnected) (.serving s) (.leaving s)))
  | .serving s, .disconnect =>
    some (g.setConnection n (c.write .disconnectOk (.leaving s) (.leaving s)))
  | .serving _, _ => some g
  | _, _ => none

/-- The end of a connection that is waiting for a message. -/
def hangUp? (g : Gateway) (n : Nat) (c : Connection) : Option Gateway :=
  match c.phase with
  | .greeting => some (g.setConnection n { c with phase := .ended })
  | .serving s => some (g.setConnection n { c with phase := .leaving s })
  | _ => none

/-- Tells an admitted player so. -/
def greet? (g : Gateway) (n : Nat) (c : Connection) : Option Gateway :=
  match c.phase with
  | .welcoming s =>
    some (g.setConnection n
      (c.write (.connectOk s.playerId s.token g.udpPort) (.serving s) (.leaving s)))
  | _ => none

/-- Relays the oldest notice, unless it is about the player of the connection. -/
def relay? (g : Gateway) (n : Nat) (c : Connection) : Option Gateway :=
  match c.phase, c.inbox with
  | .serving s, notice :: rest =>
    let c := { c with inbox := rest }
    if notice.about = s.playerId then some (g.setConnection n c)
    else some (g.setConnection n (c.write notice.message (.serving s) (.leaving s)))
  | _, _ => none

/-- Ends the session of an ended connection and announces it. -/
def depart? (g : Gateway) (n : Nat) (c : Connection) : Option Gateway :=
  match c.phase with
  | .leaving s =>
    let g := g.setConnection n { c with phase := .ended }
    -- a session that is no longer in the table has been announced already
    match g.sessions.get? s.token with
    | none => some g
    | some _ =>
      (g.queue.send? (.disconnected s.playerId)).map fun queue =>
        { g with sessions := g.sessions.close s.token, queue }.post (leaveNotice s)
  | _ => none

/-! ## Datagrams -/

/-- What the simulation is told about the endpoint of a player. -/
def endpointEvents (id : UInt8) (source : Endpoint) : EndpointUpdate → List Event
  | .established => [.udpReady id source]
  | .moved => [.endpointChanged id source]
  | .unchanged => []

def count (g : Gateway) (f : Counters → Counters) : Gateway :=
  { g with counters := f g.counters }

/-- An input goes to the simulation if there is room. -/
def forward (g : Gateway) (id : UInt8) (i : Wire.Input) : Gateway :=
  match g.queue.state with
  | .accepted =>
    { g with queue := g.queue.push (.input id i) }.count fun c => { c with inputs := c.inputs + 1 }
  | .full => g.count fun c => { c with inputsDropped := c.inputsDropped + 1 }
  | .closed => g

/-- A datagram under the token of a player's session. -/
def serve (g : Gateway) (id : UInt8) (token : UInt32) (source : Endpoint) (bytes : List UInt8) :
    Gateway :=
  match Wire.Packet.decode bytes with
  | .error _ => g.count fun c => { c with malformed := c.malformed + 1 }
  | .ok packet =>
    match packet.payload with
    | .input i => g.forward id i
    | .ping =>
      let reply : Datagram := ⟨source, (⟨token, .pong⟩ : Wire.Packet).encode⟩
      { g with replies := g.replies ++ [reply] }.count fun c => { c with pings := c.pings + 1 }
    | _ => g.count fun c => { c with unexpected := c.unexpected + 1 }

/-- A datagram, if the simulation can be told of its endpoint. The header is enough to tell whose
it is. -/
def authenticate? (g : Gateway) (source : Endpoint) (bytes : List UInt8) : Option Gateway :=
  match Wire.Header.validate bytes with
  | .error _ => some (g.count fun c => { c with malformed := c.malformed + 1 })
  | .ok (header, _) =>
    match g.sessions.touch header.token source with
    | none => some (g.count fun c => { c with unauthenticated := c.unauthenticated + 1 })
    | some ((id, update), sessions) =>
      (g.queue.sendAll? (endpointEvents id source update)).map fun queue =>
        { g with sessions, queue }.serve id header.token source bytes

/-- How much of a datagram is looked at: one byte more than the longest packet has. -/
def readLimit : Nat := Wire.Packet.maxSize + 1

/-- A datagram that has come in. -/
def receive? (g : Gateway) (source : Endpoint) (datagram : List UInt8) : Option Gateway :=
  (g.count fun c => { c with datagramsIn := c.datagramsIn + 1 }).authenticate? source
    (datagram.take readLimit)

/-! ## Steps -/

/-- Applies a step of one connection. -/
def onConnection (g : Gateway) (n : Nat) (f : Connection → Option Gateway) : Option Gateway :=
  (g.connections.get? n).bind f

/-- One step, if it is possible. -/
def step? (g : Gateway) : Action → Option Gateway
  | .accept n => if g.connections.contains n then none else some (g.setConnection n .fresh)
  | .hear n m => g.onConnection n fun c => g.hear? n c m
  | .hangUp n => g.onConnection n fun c => g.hangUp? n c
  | .breakOff n => g.onConnection n fun c => some (g.setConnection n { c with isWritable := false })
  | .greet n => g.onConnection n fun c => g.greet? n c
  | .relay n => g.onConnection n fun c => g.relay? n c
  | .depart n => g.onConnection n fun c => g.depart? n c
  | .receive source datagram => g.receive? source datagram
  | .handOver => g.queue.take?.map fun (_, queue) => { g with queue }
  | .shutDown => some { g with queue := g.queue.close }

/-- The steps one after the other, if all of them are possible. -/
def run? (g : Gateway) : List Action → Option Gateway
  | [] => some g
  | a :: rest => (g.step? a).bind fun g => g.run? rest

end Gateway

end Skirmish
