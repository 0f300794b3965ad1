import Skirmish.Component
import Skirmish.Endpoint
import Skirmish.Entity.Registry
import Skirmish.Settings.Basic
import Skirmish.Wire.Payload
/-!
# The world

The entities of a game and what is known of its players. Everything that takes part in the game is
created here, with a network id of its own and all the components that its kind needs.

A player's slot points to the player's entity. The entity can be gone while the slot remains;
`playerEntity?` gives it only while it is alive.
-/

namespace Skirmish

/-- What is known of a player. -/
structure Slot where
  username : String
  /-- The player's entity. -/
  entity : Option Handle
  /-- Where the player's datagrams go, once the first one has come from there. -/
  endpoint : Option Endpoint
  /-- When the player last fired. -/
  lastShot : Option Double
  /-- The latest input that has not been obeyed yet. -/
  pending : Option Wire.Input
deriving DecidableEq, Repr

structure World where
  registry : Registry ComponentType.Value
  players : SortedMap UInt8 Slot
  nextNetworkId : UInt32

namespace World

/-- Nothing and nobody, with room for every type of component. -/
def empty : World where
  registry := ComponentType.all.foldl Registry.register .empty
  players := ∅
  nextNetworkId := 1

/-! ## New entities -/

/-- The network id after a given one. Zero is never used. -/
def followingId (n : UInt32) : UInt32 := if n = 0xffffffff then 1 else n + 1

/-- A component with its type. -/
abbrev Part := (c : ComponentType) × c.Value

/-- Gives components to an entity. -/
def equip (r : Registry ComponentType.Value) (h : Handle) (parts : List Part) :
    Registry ComponentType.Value :=
  parts.foldl (fun r part => r.insert part.1 h part.2) r

/-- A new entity with a network id of its own and the given components. -/
def summon (w : World) (parts : List Part) : Handle × World :=
  let (h, registry) := w.registry.spawn
  (h, { w with
    registry := equip registry h (⟨.networkId, w.nextNetworkId⟩ :: parts)
    nextNetworkId := followingId w.nextNetworkId })

/-- The colours of the players; the fifth has the colour of the first, and so on. -/
def playerColor (id : UInt8) : Color :=
  match (id.toNat - 1) % 4 with
  | 0 => .rgb 200 30 30
  | 1 => .rgb 30 200 30
  | 2 => .rgb 30 30 200
  | _ => .rgb 200 200 30

def bulletColor : Color := .rgb 255 255 0

def enemyColor : Color := .rgb 255 0 0

/-- Where a player starts. -/
def playerStart (t : PlayerTuning) (id : UInt8) : Vector2 :=
  ⟨t.spawnX + t.spawnSpacing * .ofNat id.toNat, t.spawnY⟩

/-- A new entity for a player, whose slot is new as well. -/
def spawnPlayer (w : World) (t : Tuning) (id : UInt8) (username : String) : Handle × World :=
  let (h, w) := w.summon [
    ⟨.position, playerStart t.player id⟩,
    ⟨.velocity, .zero⟩,
    ⟨.drawable, ⟨t.player.width, t.player.height, playerColor id⟩⟩,
    ⟨.health, .full t.player.health⟩,
    ⟨.owner, id⟩,
    ⟨.kind, .player⟩]
  (h, { w with players := w.players.insert id ⟨username, some h, none, none, none⟩ })

/-- A bullet that leaves the muzzle of a shooter. -/
def spawnBullet (w : World) (t : Tuning) (owner : UInt8) (shooter : Vector2) : Handle × World :=
  w.summon [
    ⟨.position, ⟨shooter.x + t.bullet.offsetX, shooter.y + t.bullet.offsetY⟩⟩,
    ⟨.velocity, ⟨t.bullet.speed, .zero⟩⟩,
    ⟨.drawable, ⟨t.bullet.width, t.bullet.height, bulletColor⟩⟩,
    ⟨.owner, owner⟩,
    ⟨.kind, .playerBullet⟩,
    ⟨.damage, t.bullet.damage⟩,
    ⟨.lifetime, t.bullet.lifetime⟩]

/-- An enemy at the right, flying to the left. -/
def spawnEnemy (w : World) (t : Tuning) (y : Single) : Handle × World :=
  w.summon [
    ⟨.position, ⟨t.enemy.spawnX, y⟩⟩,
    ⟨.velocity, ⟨-t.enemy.speed, .zero⟩⟩,
    ⟨.drawable, ⟨t.enemy.width, t.enemy.height, enemyColor⟩⟩,
    ⟨.health, .full t.enemy.health⟩,
    ⟨.owner, serverOwner⟩,
    ⟨.kind, .enemy⟩]

/-! ## What players are told -/

/-- The health that players are told of an entity that has none. -/
def assumedHealth : UInt8 := 100

def reportedHealth (w : World) (h : Handle) : UInt8 :=
  ((w.registry.get? .health h).map Health.current).getD assumedHealth

/-- The announcement of an entity, if it has a network id. Only players have a name, that of the
slot of the entity's owner. -/
def spawnMessage? (w : World) (h : Handle) : Option Wire.Spawn :=
  (w.registry.get? .networkId h).map fun networkId =>
    let kind := (w.registry.get? .kind h).getD .obstacle
    let owner := (w.registry.get? .owner h).getD serverOwner
    { networkId
      kind
      owner
      position := (w.registry.get? .position h).getD .zero
      velocity := (w.registry.get? .velocity h).getD .zero
      health := w.reportedHealth h
      username :=
        if kind = .player then ((w.players.get? owner).map Slot.username).getD "" else "" }

/-- The entities that have a network id, ascending by it. -/
def networked (w : World) : List (UInt32 × Handle) :=
  ((w.registry.entries .networkId).map fun (h, n) => (n, h)).mergeSort fun a b => a.1 ≤ b.1

/-- The state of the entities that can be seen, ascending by network id. -/
def batchEntries (w : World) : List Wire.Entry :=
  w.networked.filterMap fun (networkId, h) =>
    if w.registry.has .drawable h then
      (w.registry.get? .position h).map fun position => ⟨networkId, position, w.reportedHealth h⟩
    else none

/-- Where datagrams go, ascending by player. -/
def endpoints (w : World) : List Endpoint := w.players.values.filterMap Slot.endpoint

/-- The entity of a player, while it is alive. -/
def playerEntity? (w : World) (id : UInt8) : Option Handle :=
  ((w.players.get? id).bind Slot.entity).filter w.registry.isAlive

/-- A change to the slot of one player. -/
def modifySlot (w : World) (id : UInt8) (f : Slot → Slot) : World :=
  { w with players := w.players.modify id f }

end World

end Skirmish
