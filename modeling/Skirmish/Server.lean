import Skirmish.Gateway.Basic
/-!
# The server

A server listens at two addresses and puts a gateway in front of a simulation. In each step the
simulation hears all that waits in the queue, and what it says goes out as datagrams; those that
find no room on their way out are lost.
-/

namespace Skirmish

/-- Why a server cannot start with its settings. -/
inductive StartFault where
  | invalid (fault : SettingsFault)
  | tcpAddress
  | udpAddress
  /-- A queue is longer than any can be made. -/
  | queueTooLong
deriving DecidableEq, Repr

def StartFault.message : StartFault → String
  | invalid fault => fault.message
  | tcpAddress => "parse tcp_addr"
  | udpAddress => "parse udp_addr"
  | queueTooLong => "queue too long"

/-- The most that a queue can have room for. -/
def queueLimit : Nat := UInt64.size / 8 - 1

/-- Where a server listens for control connections and for datagrams. -/
structure Addresses where
  tcp : Endpoint
  udp : Endpoint
deriving DecidableEq, Repr

/-- The addresses of settings with which a server can start. -/
def Settings.addresses (s : Settings) : Except StartFault Addresses :=
  match s.validate with
  | .error fault => .error (.invalid fault)
  | .ok () =>
    match Endpoint.ofText? s.tcpAddress with
    | none => .error .tcpAddress
    | some tcp =>
      match Endpoint.ofText? s.udpAddress with
      | none => .error .udpAddress
      | some udp =>
        if queueLimit < s.inputQueue.toNat ∨ queueLimit < s.outboundQueue.toNat then
          .error .queueTooLong
        else .ok ⟨tcp, udp⟩

structure Server where
  settings : Settings
  gateway : Gateway
  simulation : Simulation

namespace Server

/-- A server at the start. One generator draws tokens; the other is for games without a seed. -/
def start (s : Settings) (udpPort : UInt16) (tokens entropy : Generator) : Server where
  settings := s
  gateway := .start s.maxPlayers s.inputQueue.toNat udpPort tokens
  simulation := .start s entropy

/-- An action at the gateway. -/
def act? (s : Server) (a : Action) : Option Server :=
  (s.gateway.step? a).map fun gateway => { s with gateway }

/-- The simulation hears what waits in the queue. -/
def listen (s : Server) : Server :=
  { s with
    gateway := { s.gateway with queue := { s.gateway.queue with events := [] } }
    simulation := s.gateway.queue.events.foldl Simulation.handle s.simulation }

/-- One step of the simulation, and the datagrams that find room. -/
def tick (s : Server) (dt : Single) : Except StepFault (Server × List Datagram) := do
  let s := s.listen
  let (simulation, out) ← s.simulation.tick dt
  return ({ s with simulation },
    (out.map Dispatch.datagram).take s.settings.outboundQueue.toNat)

end Server

end Skirmish
