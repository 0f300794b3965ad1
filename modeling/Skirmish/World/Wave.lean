import Skirmish.Random.Uniform
import Skirmish.World.Basic
import Skirmish.World.Dispatch
/-!
# The wave of enemies

Enemies come after random spans of time. When an enemy comes, the next span is drawn and then the
place at which the enemy appears. None of this looks at the world.
-/

namespace Skirmish

structure Wave where
  /-- Seconds since the last enemy. -/
  elapsed : Single
  /-- Seconds between the last enemy and the next. -/
  threshold : Single
deriving DecidableEq, Repr, Inhabited

namespace Wave

def start (t : Tuning) : Wave := ⟨.zero, t.enemy.firstSpawnAfter⟩

/-- The wave after `dt` seconds, and how far down an enemy appears if one does. -/
def advance (wave : Wave) (t : Tuning) (g : Generator) (dt : Single) :
    Except RangeFault (Option Single × Wave × Generator) := do
  let elapsed := wave.elapsed + dt
  if elapsed < wave.threshold then return (none, ⟨elapsed, wave.threshold⟩, g)
  -- the span is drawn before the place
  let (threshold, g) ← g.between t.enemy.spawnIntervalMin t.enemy.spawnIntervalMax
  let (y, g) ← g.below .zero t.fieldHeight
  return (some y, ⟨.zero, threshold⟩, g)

end Wave

/-- A new enemy and its announcement. -/
def World.receiveEnemy (w : World) (t : Tuning) (y : Single) : World × List Dispatch :=
  let (enemy, w) := w.spawnEnemy t y
  (w, match w.spawnMessage? enemy with
    | some message => broadcast w.endpoints (.spawn message)
    | none => [])

/-- The wave goes on by `dt` seconds, and whoever it brings appears. -/
def World.sendWave (w : World) (wave : Wave) (t : Tuning) (g : Generator) (dt : Single) :
    Except RangeFault ((World × List Dispatch) × Wave × Generator) :=
  (wave.advance t g dt).map fun (place, wave, g) =>
    let arrival := match place with
      | some y => w.receiveEnemy t y
      | none => (w, [])
    (arrival, wave, g)

end Skirmish
