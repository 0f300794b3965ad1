import Skirmish.Data.SortedMap
import Skirmish.Wire.Payload
/-!
# What a player sees of the world

A replica is made of the messages of the server alone: announced entities are there until their end
is announced, and in between they are where the last message about them says. Messages about
entities that were never announced are passed over.
-/

namespace Skirmish

/-- An entity as a player sees it. -/
structure Sighting where
  networkId : UInt32
  kind : EntityKind
  owner : UInt8
  position : Vector2
  velocity : Vector2
  health : UInt8
  /-- Empty for all but players. -/
  username : String
deriving DecidableEq, Repr

structure Replica where
  entities : SortedMap UInt32 Sighting
  /-- The network ids announced so far, in order. -/
  spawnLog : List UInt32
  /-- How many batches have come. -/
  batches : Nat
  /-- How many entries of batches were about entities that were not there. -/
  ignored : Nat
deriving DecidableEq

namespace Replica

def empty : Replica := ⟨∅, [], 0, 0⟩

def size (r : Replica) : Nat := r.entities.size

def isEmpty (r : Replica) : Bool := r.entities.isEmpty

def get? (r : Replica) (networkId : UInt32) : Option Sighting := r.entities.get? networkId

/-- The entities of a kind, ascending by network id. -/
def ofKind (r : Replica) (kind : EntityKind) : List Sighting :=
  r.entities.values.filter fun e => e.kind = kind

/-- The entity of a player. -/
def player? (r : Replica) (id : UInt8) : Option Sighting :=
  (r.ofKind .player).find? fun e => e.owner = id

/-! ## Messages -/

def sighting (s : Wire.Spawn) : Sighting :=
  ⟨s.networkId, s.kind, s.owner, s.position, s.velocity, s.health, s.username⟩

def applySpawn (r : Replica) (s : Wire.Spawn) : Replica :=
  { r with
    entities := r.entities.insert s.networkId (sighting s)
    spawnLog := r.spawnLog ++ [s.networkId] }

def applyUpdate (r : Replica) (u : Wire.Update) : Replica :=
  { r with entities := r.entities.modify u.networkId fun e =>
      { e with position := u.position, velocity := u.velocity, health := u.health } }

def applyEntry (r : Replica) (entry : Wire.Entry) : Replica :=
  if r.entities.contains entry.networkId then
    { r with entities := r.entities.modify entry.networkId fun e =>
        { e with position := entry.position, health := entry.health } }
  else { r with ignored := r.ignored + 1 }

def applyBatch (r : Replica) (b : Wire.Batch) : Replica :=
  b.entries.foldl applyEntry { r with batches := r.batches + 1 }

/-- What a message does. Inputs, pings and pongs do nothing. -/
def apply (r : Replica) : Wire.Payload → Replica
  | .spawn s => r.applySpawn s
  | .update u => r.applyUpdate u
  | .destroy networkId => { r with entities := r.entities.erase networkId }
  | .batch b => r.applyBatch b
  | .input _ => r
  | .ping => r
  | .pong => r

/-- The messages that are about the world. -/
def concerns : Wire.Payload → Bool
  | .spawn _ => true
  | .update _ => true
  | .destroy _ => true
  | .batch _ => true
  | .input _ => false
  | .ping => false
  | .pong => false

end Replica

end Skirmish
