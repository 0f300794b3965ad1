import Skirmish.Endpoint
import Skirmish.Wire.Packet
/-!
# What goes out to the players

A dispatch is a message of the simulation and the endpoint that it is for; a datagram is the same
in bytes, ready to be sent.
-/

namespace Skirmish

/-- Bytes and the endpoint that they go to. -/
structure Datagram where
  recipient : Endpoint
  bytes : List UInt8
deriving DecidableEq, Repr

/-- A message of the server and the endpoint that it goes to. -/
structure Dispatch where
  recipient : Endpoint
  payload : Wire.Payload
deriving DecidableEq, Repr

/-- The token in packets of the server, which belongs to no session. -/
def serverToken : UInt32 := 0

namespace Dispatch

def packet (d : Dispatch) : Wire.Packet := ⟨serverToken, d.payload⟩

/-- A dispatch as it is sent. -/
def datagram (d : Dispatch) : Datagram := ⟨d.recipient, d.packet.encode⟩

end Dispatch

/-- One message to every endpoint. -/
def broadcast (endpoints : List Endpoint) (payload : Wire.Payload) : List Dispatch :=
  endpoints.map fun e => ⟨e, payload⟩

end Skirmish
