import Skirmish.World.Basic
/-!
# Collisions

The bullets of players, oldest first, each strike at most one enemy that they overlap and that has
health left at that time. Which one is a matter of policy (`HitPolicy.choose?`). A bullet that
strikes is condemned, and so is an enemy with no health left. Bullets and enemies that have left the
field behind them are condemned as well.

Age is told by the network id, so nothing depends on handles.
-/

namespace Skirmish

/-- A bullet of a player. -/
structure Shot where
  handle : Handle
  networkId : UInt32
  box : Box
  damage : UInt8
deriving DecidableEq, Repr

/-- An enemy. -/
structure Target where
  handle : Handle
  networkId : UInt32
  box : Box
  health : Health
deriving DecidableEq, Repr

/-- A bullet that strikes an enemy. -/
structure Hit where
  shot : Shot
  /-- The enemy before it is struck. -/
  target : Target
deriving DecidableEq, Repr

namespace Hit

/-- The enemy's health afterwards. -/
def remaining (hit : Hit) : Health := hit.target.health.hit hit.shot.damage

/-- Nothing is left of the enemy. -/
def isLethal (hit : Hit) : Bool := hit.remaining.isSpent

end Hit

namespace Target

/-- The enemy has health left and overlaps the bullet. -/
def isStruckBy (target : Target) (shot : Shot) : Bool :=
  0 < target.health.current && shot.box.overlaps target.box

/-- How far the centres are apart, squared. -/
def distanceTo (target : Target) (shot : Shot) : Single :=
  shot.box.centre.distanceSquared target.box.centre

end Target

/-- The first item of least measure. -/
def leastBy {α : Type} (measure : α → Int) : List α → Option α
  | [] => none
  | a :: rest => some (rest.foldl (fun best b => if measure b < measure best then b else best) a)

/-- The enemy that a bullet strikes. -/
def HitPolicy.choose? (policy : HitPolicy) (shot : Shot) (targets : List Target) : Option Target :=
  let struck := targets.filter (·.isStruckBy shot)
  match policy with
  | .oldestFirst => struck.head?
  | .nearest => leastBy (fun target => (target.distanceTo shot).totalOrder) struck

/-- The enemies after a hit. -/
def Hit.applied (hit : Hit) (targets : List Target) : List Target :=
  targets.map fun t =>
    if t.handle = hit.target.handle then { t with health := hit.remaining } else t

/-- What the bullets strike, one after the other. -/
def volley (policy : HitPolicy) : List Shot → List Target → List Hit
  | [], _ => []
  | shot :: rest, targets =>
    match policy.choose? shot targets with
    | none => volley policy rest targets
    | some target =>
      let hit : Hit := ⟨shot, target⟩
      -- the next bullet meets the enemies as this one leaves them
      hit :: volley policy rest (hit.applied targets)

namespace World

/-- What an entity is and where, if it takes part in collisions. -/
def body? (w : World) (h : Handle) : Option (UInt32 × Box) := do
  let position ← w.registry.get? .position h
  let shape ← w.registry.get? .drawable h
  let networkId ← w.registry.get? .networkId h
  return (networkId, shape.boxAt position)

/-- The entities of a kind, ascending by handle. -/
def ofKind (w : World) (k : EntityKind) : List Handle :=
  ((w.registry.entries .kind).filter fun (_, kind) => kind = k).map Prod.fst

def shot? (w : World) (t : Tuning) (h : Handle) : Option Shot :=
  (w.body? h).map fun (networkId, box) =>
    ⟨h, networkId, box, (w.registry.get? .damage h).getD t.bullet.damage⟩

def target? (w : World) (h : Handle) : Option Target :=
  (w.body? h).bind fun (networkId, box) =>
    (w.registry.get? .health h).map fun health => ⟨h, networkId, box, health⟩

/-- The bullets of players, oldest first. -/
def shots (w : World) (t : Tuning) : List Shot :=
  ((w.ofKind .playerBullet).filterMap (w.shot? t)).mergeSort fun a b => a.networkId ≤ b.networkId

/-- The enemies, oldest first. -/
def targets (w : World) : List Target :=
  ((w.ofKind .enemy).filterMap w.target?).mergeSort fun a b => a.networkId ≤ b.networkId

/-- What strikes what. -/
def hits (w : World) (t : Tuning) : List Hit := volley t.hitPolicy (w.shots t) w.targets

/-- Whoever a hit condemns. -/
def condemnedBy (hit : Hit) : List Handle :=
  hit.shot.handle :: if hit.isLethal then [hit.target.handle] else []

/-- Whoever has left the field: bullets at the right, enemies at the left. -/
def departed (w : World) (t : Tuning) : List Handle :=
  ((w.shots t).filter fun s => t.bullet.despawnX < s.box.x).map Shot.handle ++
    (w.targets.filter fun e => e.box.x < t.enemy.despawnX).map Target.handle

/-- The damage done to the enemies, and the condemned. -/
def collide (w : World) (t : Tuning) : World × List Handle :=
  let hits := w.hits t
  ({ w with
      registry := hits.foldl (fun r hit =>
        r.modify .health hit.target.handle fun health => health.hit hit.shot.damage) w.registry },
    hits.flatMap condemnedBy ++ w.departed t)

end World

end Skirmish
