import Skirmish.Client.Basic
import Skirmish.Server
/-!
# A match

A server and its clients, over a network that loses nothing: whatever is sent in a step arrives
before the next. Clients are told by name. If the network is down, no client reaches the server.
-/

namespace Skirmish

/-- A client with its control connection and the endpoint of its datagrams. -/
structure Seat where
  name : String
  connection : Nat
  endpoint : Endpoint
  client : Client

structure Match where
  server : Server
  /-- The network is up. -/
  isReachable : Bool
  seats : List Seat
  /-- How many control connections there were. -/
  opened : Nat

namespace Match

def start (s : Settings) (udpPort : UInt16) (isReachable : Bool) (tokens entropy : Generator) :
    Match :=
  ⟨.start s udpPort tokens entropy, isReachable, [], 0⟩

def seat? (m : Match) (name : String) : Option Seat := m.seats.find? fun s => s.name = name

/-- Actions at the gateway, each if it is possible. -/
def act (s : Server) (actions : List Action) : Server :=
  actions.foldl (fun s a => (s.act? a).getD s) s

/-- What has been written on a connection. -/
def written (s : Server) (connection : Nat) : List Control.Message :=
  ((s.gateway.connections.get? connection).map Connection.sent).getD []

/-- Opens a control connection, if the server can be reached. -/
def dial (m : Match) : Except ConnectFault (Match × Nat) :=
  if m.isReachable then
    .ok ({ m with server := act m.server [.accept m.opened], opened := m.opened + 1 }, m.opened)
  else .error .unreachable

/-- A datagram arrives at the server. -/
def deliver (m : Match) (source : Endpoint) (datagram : List UInt8) : Match :=
  { m with server := act m.server [.receive source datagram] }

/-- Sends a datagram, if the server can be reached. -/
def send (m : Match) (source : Endpoint) (datagram : List UInt8) : Except ConnectFault Match :=
  if m.isReachable then .ok (m.deliver source datagram) else .error .unreachable

/-- Where the datagrams of a client come from. -/
def endpointOf (connection : Nat) : Endpoint :=
  ⟨.v4 #v[127, 0, 0, 1], UInt16.ofNat (20000 + connection)⟩

/-- A client comes under a name and, if it is admitted, sends its first ping. -/
def join (m : Match) (name : String) : Match × Except ConnectFault Seat :=
  match m.dial with
  | .error fault => (m, .error fault)
  | .ok (m, n) =>
    let said := (Control.receiveChunks [(Client.hello name).toBytes]).1
    let m := { m with server := act m.server (said.map (.hear n) ++ [.greet n]) }
    match Client.connect name .endOfStream (written m.server n) with
    | .error fault => (m, .error fault)
    | .ok client =>
      let (client, ping) := client.ping
      let seat : Seat := ⟨name, n, endpointOf n, client⟩
      ({ m with seats := m.seats ++ [seat] }.deliver seat.endpoint ping.encode, .ok seat)

/-- A client leaves. -/
def leave (m : Match) (s : Seat) : Match :=
  { m with
    server := act m.server [.hear s.connection .disconnect, .depart s.connection]
    seats := m.seats.filter fun t => t.name ≠ s.name }

/-- What a client receives in a step. -/
def Seat.receive (s : Seat) (notices : List Control.Message) (datagrams : List Datagram) : Seat :=
  let client := (s.client.deliver notices).pollAll.1
  let mine := datagrams.filter fun d => d.recipient = s.endpoint
  { s with client := mine.foldl (fun c d => (c.receive d.bytes).1) client }

/-- One step of the game. Its datagrams and all notices arrive. -/
def tick (m : Match) (dt : Single) : Except StepFault Match := do
  let (server, out) ← m.server.tick dt
  let relays := m.seats.flatMap fun s => List.replicate Connection.inboxLimit (.relay s.connection)
  let server := act server relays
  let seats := m.seats.map fun s =>
    let notices :=
      (written server s.connection).drop (written m.server s.connection).length
    Seat.receive s notices out
  return { m with server, seats }

def ticks (dt : Single) : Nat → Match → Except StepFault Match
  | 0, m => .ok m
  | n + 1, m => do ticks dt n (← m.tick dt)

end Match

end Skirmish
