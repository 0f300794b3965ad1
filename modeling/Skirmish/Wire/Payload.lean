import Skirmish.Component
import Skirmish.Wire.NameField
/-!
# What a datagram can say

One type per message, and for each the layout of its fields. A batch never holds more than ten
entries; that is part of its type, and longer lists are cut into several batches
(`Batch.ofEntries`, `Batch.chunks`).
-/

namespace Skirmish.Wire

/-! ## Kinds of message -/

inductive MessageKind where
  | input
  | spawn
  | update
  | destroy
  | batch
  | ping
  | pong
deriving DecidableEq, Repr, Inhabited

namespace MessageKind

/-- The number of a kind in the header. -/
def code : MessageKind → UInt8
  | input => 0x10
  | spawn => 0x20
  | update => 0x21
  | destroy => 0x22
  | batch => 0x23
  | ping => 0xf1
  | pong => 0xf2

def ofCode? (n : UInt8) : Option MessageKind :=
  match n.toNat with
  | 0x10 => some input
  | 0x20 => some spawn
  | 0x21 => some update
  | 0x22 => some destroy
  | 0x23 => some batch
  | 0xf1 => some ping
  | 0xf2 => some pong
  | _ => none

/-- The name of a kind in error messages. -/
def name : MessageKind → String
  | input => "PlayerInput"
  | spawn => "EntitySpawn"
  | update => "EntityUpdate"
  | destroy => "EntityDestroy"
  | batch => "EntityBatchUpdate"
  | ping => "Ping"
  | pong => "Pong"

@[simp]
theorem ofCode?_code (k : MessageKind) : ofCode? k.code = some k := by
  cases k <;> rfl

theorem code_of_ofCode? {n : UInt8} {k : MessageKind} (h : ofCode? n = some k) : k.code = n := by
  unfold ofCode? at h
  apply UInt8.toNat_inj.mp
  split at h <;> cases h <;> simp [code, *]

end MessageKind

/-! ## Buttons -/

/-- The bits of the button byte. Only `shoot` and `special` are for the game; the four directions
repeat the axes, and the two bits above them are carried along. -/
def shootButton : UInt8 := 0x01
def specialButton : UInt8 := 0x02
def upButton : UInt8 := 0x04
def downButton : UInt8 := 0x08
def leftButton : UInt8 := 0x10
def rightButton : UInt8 := 0x20

/-! ## Messages -/

/-- What a player wants to do in one frame. -/
structure Input where
  /-- The sender's clock, in milliseconds. -/
  timestamp : UInt32
  /-- Who the sender says it is; the session decides. -/
  playerId : UInt8
  buttons : UInt8
  moveX : Int8
  moveY : Int8
deriving DecidableEq, Repr, Inhabited

/-- The player holds the trigger. -/
def Input.shoots (i : Input) : Bool := i.buttons &&& shootButton == shootButton

/-- An entity has come into being. -/
structure Spawn where
  networkId : UInt32
  kind : EntityKind
  owner : UInt8
  position : Vector2
  velocity : Vector2
  health : UInt8
  /-- Empty for all but players. -/
  username : String
deriving DecidableEq, Repr, Inhabited

/-- Where one entity is and where it is going. -/
structure Update where
  networkId : UInt32
  position : Vector2
  velocity : Vector2
  health : UInt8
deriving DecidableEq, Repr, Inhabited

/-- Where one entity of a batch is. -/
structure Entry where
  networkId : UInt32
  position : Vector2
  health : UInt8
deriving DecidableEq, Repr, Inhabited

/-- How many entries one datagram may hold. -/
def maxEntries : Nat := 10

/-- The state of up to ten entities. -/
structure Batch where
  entries : List Entry
  length_le : entries.length ≤ maxEntries
deriving DecidableEq, Repr

inductive Payload where
  | input (i : Input)
  | spawn (s : Spawn)
  | update (u : Update)
  | destroy (networkId : UInt32)
  | batch (b : Batch)
  | ping
  | pong
deriving DecidableEq, Repr

/-! ## Faults of a datagram -/

/-- Why a datagram is refused. -/
inductive Error where
  | tooShort (length : Nat)
  | badMagic (magic : UInt16)
  | badVersion (version : UInt8)
  | sizeMismatch (declared actual : Nat)
  | unknownType (code : UInt8)
  | payloadLength (kind : MessageKind) (expected actual : Nat)
  | batchTooLarge (count : Nat)
  | unknownEntityKind (code : UInt8)
deriving DecidableEq, Repr

/-! ## Batches -/

namespace Batch

def ofEntries (entries : List Entry) : Except Error Batch :=
  if h : entries.length ≤ maxEntries then .ok ⟨entries, h⟩
  else .error (.batchTooLarge entries.length)

/-- Batches of ten as long as `rounds` and the entries last. -/
def chunksWithin : Nat → List Entry → List Batch
  | 0, _ => []
  | rounds + 1, entries =>
    if entries = [] then []
    else ⟨entries.take maxEntries, List.length_take_le _ _⟩ ::
      chunksWithin rounds (entries.drop maxEntries)

/-- Batches that hold the entries in order, all of ten entries but perhaps the last. -/
def chunks (entries : List Entry) : List Batch := chunksWithin entries.length entries

end Batch

/-! ## Layouts -/

def vectorLayout : Layout Vector2 :=
  (Layout.single.pair .single).via (fun (x, y) => ⟨x, y⟩) fun v => (v.x, v.y)

def inputLayout : Layout Input :=
  (Layout.word32.pair (Layout.byte.pair (Layout.byte.pair (Layout.signed8.pair .signed8)))).via
    (fun (timestamp, playerId, buttons, moveX, moveY) =>
      ⟨timestamp, playerId, buttons, moveX, moveY⟩)
    fun i => (i.timestamp, i.playerId, i.buttons, i.moveX, i.moveY)

/-- A spawn before its kind and name are read. -/
structure RawSpawn where
  networkId : UInt32
  kind : UInt8
  owner : UInt8
  position : Vector2
  velocity : Vector2
  health : UInt8
  username : NameField
deriving DecidableEq, Repr

def RawSpawn.layout : Layout RawSpawn :=
  (Layout.word32.pair (Layout.byte.pair (Layout.byte.pair (vectorLayout.pair
    (vectorLayout.pair (Layout.byte.pair NameField.layout)))))).via
    (fun (networkId, kind, owner, position, velocity, health, username) =>
      ⟨networkId, kind, owner, position, velocity, health, username⟩)
    fun s => (s.networkId, s.kind, s.owner, s.position, s.velocity, s.health, s.username)

def RawSpawn.ofSpawn (s : Spawn) : RawSpawn :=
  ⟨s.networkId, s.kind.code, s.owner, s.position, s.velocity, s.health, .encode s.username⟩

def RawSpawn.toSpawn (s : RawSpawn) : Except Error Spawn :=
  match EntityKind.ofCode? s.kind with
  | some kind =>
    .ok ⟨s.networkId, kind, s.owner, s.position, s.velocity, s.health, s.username.decode⟩
  | none => .error (.unknownEntityKind s.kind)

def updateLayout : Layout Update :=
  (Layout.word32.pair (vectorLayout.pair (vectorLayout.pair .byte))).via
    (fun (networkId, position, velocity, health) => ⟨networkId, position, velocity, health⟩)
    fun u => (u.networkId, u.position, u.velocity, u.health)

def entryLayout : Layout Entry :=
  (Layout.word32.pair (vectorLayout.pair .byte)).via
    (fun (networkId, position, health) => ⟨networkId, position, health⟩)
    fun e => (e.networkId, e.position, e.health)

theorem lawful_vectorLayout : vectorLayout.Lawful :=
  (Layout.lawful_single.pair Layout.lawful_single).via (fun _ => rfl) fun _ => rfl

theorem lawful_inputLayout : inputLayout.Lawful :=
  (Layout.lawful_word32.pair (Layout.lawful_byte.pair (Layout.lawful_byte.pair
    (Layout.lawful_signed8.pair Layout.lawful_signed8)))).via (fun _ => rfl) fun _ => rfl

theorem RawSpawn.lawful_layout : RawSpawn.layout.Lawful :=
  (Layout.lawful_word32.pair (Layout.lawful_byte.pair (Layout.lawful_byte.pair
    (lawful_vectorLayout.pair (lawful_vectorLayout.pair (Layout.lawful_byte.pair
      NameField.lawful_layout)))))).via (fun _ => rfl) fun _ => rfl

theorem lawful_updateLayout : updateLayout.Lawful :=
  (Layout.lawful_word32.pair (lawful_vectorLayout.pair (lawful_vectorLayout.pair
    Layout.lawful_byte))).via (fun _ => rfl) fun _ => rfl

theorem lawful_entryLayout : entryLayout.Lawful :=
  (Layout.lawful_word32.pair (lawful_vectorLayout.pair Layout.lawful_byte)).via
    (fun _ => rfl) fun _ => rfl

end Skirmish.Wire
