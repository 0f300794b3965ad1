import Skirmish.Text.Numeral
import Skirmish.Wire.Payload
/-!
# Packets

A packet is a nine byte header and the payload that it announces. Reading goes in two steps. The
header is checked against the datagram it came in (`Header.validate`): the mark, the version, and
the declared size of what follows. Then the payload is read as the type in the header demands
(`Packet.decode`). Either everything is read or nothing is.
-/

namespace Skirmish.Wire

/-- The mark that every packet begins with. -/
def magic : UInt16 := 0xabcd

def version : UInt8 := 1

structure Header where
  magic : UInt16
  version : UInt8
  payloadSize : UInt8
  kind : UInt8
  /-- The session that the sender claims. -/
  token : UInt32
deriving DecidableEq, Repr

structure Packet where
  token : UInt32
  payload : Payload
deriving DecidableEq, Repr

/-! ## Error messages -/

/-- A number in hexadecimal, with its mark. -/
def hexText (width n : Nat) : String := "0x" ++ String.ofList (Text.writePadded 16 width n)

def Error.message : Error → String
  | tooShort length => "packet too short: " ++ toString length ++ " bytes"
  | badMagic m => "bad magic " ++ hexText 4 m.toNat
  | badVersion v => "unsupported protocol version " ++ toString v.toNat
  | sizeMismatch declared actual =>
    "declared payload size " ++ toString declared ++ " but received " ++ toString actual
  | unknownType c => "unknown message type " ++ hexText 2 c.toNat
  | payloadLength kind expected actual =>
    kind.name ++ " payload must be " ++ toString expected ++ " bytes, got " ++ toString actual
  | batchTooLarge count =>
    "batch of " ++ toString count ++ " entities exceeds the limit of " ++ toString maxEntries
  | unknownEntityKind c => "unknown entity kind " ++ toString c.toNat

/-! ## The header -/

namespace Header

def layout : Layout Header :=
  (Layout.word16.pair (Layout.byte.pair (Layout.byte.pair (Layout.byte.pair .word32)))).via
    (fun (magic, version, payloadSize, kind, token) => ⟨magic, version, payloadSize, kind, token⟩)
    fun h => (h.magic, h.version, h.payloadSize, h.kind, h.token)

theorem lawful_layout : layout.Lawful :=
  (Layout.lawful_word16.pair (Layout.lawful_byte.pair (Layout.lawful_byte.pair
    (Layout.lawful_byte.pair Layout.lawful_word32)))).via (fun _ => rfl) fun _ => rfl

/-- The header of a datagram and the bytes that follow it, if it is a header of this protocol and
declares as many bytes as follow. -/
def validate (datagram : List UInt8) : Except Error (Header × List UInt8) :=
  match layout.read datagram with
  | none => .error (.tooShort datagram.length)
  | some (header, body) =>
    if header.magic ≠ Wire.magic then .error (.badMagic header.magic)
    else if header.version ≠ Wire.version then .error (.badVersion header.version)
    else if header.payloadSize.toNat ≠ body.length then
      .error (.sizeMismatch header.payloadSize.toNat body.length)
    else .ok (header, body)

end Header

/-! ## Payloads -/

namespace Payload

def kind : Payload → MessageKind
  | input _ => .input
  | spawn _ => .spawn
  | update _ => .update
  | destroy _ => .destroy
  | batch _ => .batch
  | ping => .ping
  | pong => .pong

/-- How many bytes a payload takes up. -/
def size : Payload → Nat
  | input _ => 8
  | spawn _ => 39
  | update _ => 21
  | destroy _ => 4
  | batch b => 1 + b.entries.length * 13
  | ping => 0
  | pong => 0

def bytes : Payload → List UInt8
  | input i => inputLayout.write i
  | spawn s => RawSpawn.layout.write (.ofSpawn s)
  | update u => updateLayout.write u
  | destroy networkId => Layout.word32.write networkId
  | batch b => UInt8.ofNat b.entries.length :: b.entries.flatMap entryLayout.write
  | ping => []
  | pong => []

/-- A payload that is one value of fixed width. -/
def ofLayout {α : Type} (kind : MessageKind) (l : Layout α) (body : List UInt8) : Except Error α :=
  match l.readAll body with
  | some a => .ok a
  | none => .error (.payloadLength kind l.width body.length)

/-- A payload that has no bytes. -/
def ofNothing (kind : MessageKind) (payload : Payload) (body : List UInt8) :
    Except Error Payload :=
  if body = [] then .ok payload else .error (.payloadLength kind 0 body.length)

/-- The number of entries, and then as many entries. -/
def batchOfBytes : List UInt8 → Except Error Batch
  | [] => .error (.payloadLength .batch 1 0)
  | count :: rest =>
    if maxEntries < count.toNat then .error (.batchTooLarge count.toNat)
    else match entryLayout.readMany count.toNat rest with
      | some (entries, []) => Batch.ofEntries entries
      | _ => .error (.payloadLength .batch (1 + count.toNat * 13) (1 + rest.length))

def ofBytes (kind : MessageKind) (body : List UInt8) : Except Error Payload :=
  match kind with
  | .input => (ofLayout .input inputLayout body).map input
  | .spawn => do
    let raw ← ofLayout .spawn RawSpawn.layout body
    return spawn (← raw.toSpawn)
  | .update => (ofLayout .update updateLayout body).map update
  | .destroy => (ofLayout .destroy Layout.word32 body).map destroy
  | .batch => (batchOfBytes body).map batch
  | .ping => ofNothing .ping ping body
  | .pong => ofNothing .pong pong body

end Payload

/-! ## Packets -/

namespace Packet

def header (p : Packet) : Header :=
  ⟨Wire.magic, Wire.version, UInt8.ofNat p.payload.size, p.payload.kind.code, p.token⟩

def encode (p : Packet) : List UInt8 := Header.layout.write p.header ++ p.payload.bytes

def decode (datagram : List UInt8) : Except Error Packet := do
  let (header, body) ← Header.validate datagram
  match MessageKind.ofCode? header.kind with
  | none => throw (.unknownType header.kind)
  | some kind => return ⟨header.token, ← Payload.ofBytes kind body⟩

/-- The longest datagram that the size byte of the header can announce. -/
def maxSize : Nat := 9 + 255

end Packet

end Skirmish.Wire
