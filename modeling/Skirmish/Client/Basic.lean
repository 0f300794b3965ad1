import Skirmish.Client.Controls
import Skirmish.Client.Replica
import Skirmish.Control.Stream
import Skirmish.Wire.Packet
/-!
# Clients

A client asks for admission over a control stream, and once it is admitted it sends inputs in
datagrams, keeps a replica of the world, and keeps a roster of the players who came after it.
-/

namespace Skirmish

/-- Why a client is not admitted. -/
inductive ConnectFault where
  /-- No stream to the server could be opened. -/
  | unreachable
  | rejected (reason : Control.Refusal)
  /-- The server has closed the stream. -/
  | noReply
  /-- A line could not be read. -/
  | unreadable
deriving DecidableEq, Repr

def ConnectFault.message : ConnectFault → String
  | unreachable => "tcp connect"
  | rejected reason => "connection rejected: " ++ reason.text
  | noReply => "no handshake reply from server"
  | unreadable => "tcp read line"

structure Client where
  playerId : UInt8
  token : UInt32
  username : String
  /-- The control stream has not ended. -/
  isConnected : Bool
  /-- Control messages that have come and not been heard, the oldest in front. -/
  unread : List Control.Message
  replica : Replica
  /-- The names of the players who came after this one and have not left. -/
  roster : SortedMap UInt8 String
  /-- A ping has been sent and not been answered. -/
  awaitsPong : Bool
  /-- A ping has been answered at least once. -/
  hasRoundTrip : Bool
  inputsSent : Nat
  /-- Datagrams that could not be decoded. -/
  receiveErrors : Nat
deriving DecidableEq

namespace Client

/-- The version that a client gives. -/
def version : String := "1"

/-- What a client says first. -/
def hello (username : String) : Control.Message := .connect username version

/-- A client that has just been admitted. -/
def admitted (playerId : UInt8) (token : UInt32) (username : String)
    (unread : List Control.Message) : Client where
  playerId := playerId
  token := token
  username := username
  isConnected := true
  unread := unread
  replica := .empty
  roster := ∅
  awaitsPong := false
  hasRoundTrip := false
  inputsSent := 0
  receiveErrors := 0

/-- Asks for admission under a name and waits for the first answer among the messages of the
server, passing over others. What comes after the answer is heard later. -/
def connect (username : String) (ending : Control.Ending) :
    List Control.Message → Except ConnectFault Client
  | [] =>
    match ending with
    | .endOfStream => .error .noReply
    | .unreadableLine => .error .unreadable
  | .connectOk playerId token _ :: rest => .ok (admitted playerId token username rest)
  | .connectError reason :: _ => .error (.rejected reason)
  | _ :: rest => connect username ending rest

/-! ## Sending -/

def packet (c : Client) (payload : Wire.Payload) : Wire.Packet := ⟨c.token, payload⟩

/-- An input as it is given. -/
def sendInput (c : Client) (i : Wire.Input) : Client × Wire.Packet :=
  ({ c with inputsSent := c.inputsSent + 1 }, c.packet (.input i))

/-- What the player holds, at a time of the player's clock. -/
def sendControls (c : Client) (controls : Controls) (timestamp : UInt32) : Client × Wire.Packet :=
  c.sendInput (controls.input c.playerId timestamp)

def ping (c : Client) : Client × Wire.Packet := ({ c with awaitsPong := true }, c.packet .ping)

/-! ## Receiving -/

/-- What a payload does. A pong is an answer only if one is awaited. -/
def applyPayload (c : Client) : Wire.Payload → Client
  | .pong =>
    { c with awaitsPong := false, hasRoundTrip := c.hasRoundTrip || c.awaitsPong }
  | payload => { c with replica := c.replica.apply payload }

/-- A datagram of the server, and the payload it carries if it can be decoded. -/
def receive (c : Client) (datagram : List UInt8) : Client × Option Wire.Payload :=
  match Wire.Packet.decode (datagram.take (Wire.Packet.maxSize + 1)) with
  | .ok p => (c.applyPayload p.payload, some p.payload)
  | .error _ => ({ c with receiveErrors := c.receiveErrors + 1 }, none)

/-- What a control message of the server does. -/
def hear (c : Client) : Control.Message → Client
  | .playerJoin id username => { c with roster := c.roster.insert id username }
  | .playerLeave id => { c with roster := c.roster.erase id }
  | _ => c

/-- Control messages come. -/
def deliver (c : Client) (messages : List Control.Message) : Client :=
  { c with unread := c.unread ++ messages }

/-- Hears the oldest control message that has come. -/
def poll (c : Client) : Client × Option Control.Message :=
  match c.unread with
  | m :: rest => ({ c with unread := rest }.hear m, some m)
  | [] => (c, none)

/-- Hears all control messages that have come. -/
def pollAll (c : Client) : Client × List Control.Message :=
  (c.unread.foldl hear { c with unread := [] }, c.unread)

/-- The control stream has ended. -/
def lose (c : Client) : Client := { c with isConnected := false }

/-- Leaves, hearing what comes before the farewell of the server. There is nothing to say when the
control stream has ended. -/
def leave (c : Client) : Client × Option Control.Message :=
  if c.isConnected then
    ((c.unread.takeWhile (· ≠ .disconnectOk)).foldl hear { c with unread := [] },
      some .disconnect)
  else (c, none)

end Client

end Skirmish
