import Skirmish.World.Basic
import Skirmish.World.Dispatch
/-!
# Obeying the players

Each player's latest input sets the velocity of the player's entity and may fire a bullet. Only the
signs of the axes count. A player who fired has to wait before the next shot; time is simulation
time, compared with a little slack.
-/

namespace Skirmish.World

/-- The slack in comparing times, a millionth of a second. -/
def timeSlack : Double := ⟨0x3eb0c6f7a0b5ed8d⟩

/-- The sign of an axis: minus one, zero or one. -/
def axisSign (a : Int8) : Int := a.toInt.sign

def steeredVelocity (t : Tuning) (i : Wire.Input) : Vector2 :=
  ⟨.ofInt (axisSign i.moveX) * t.player.speed, .ofInt (axisSign i.moveY) * t.player.speed⟩

/-- Whether the wait after the last shot is over. -/
def isReady (t : Tuning) (now : Double) (s : Slot) : Bool :=
  match s.lastShot with
  | none => true
  | some last => t.shootCooldown.toDouble ≤ now - last + timeSlack

/-- A shot of a player whose entity is at `origin`, and its announcement. -/
def fire (w : World) (t : Tuning) (now : Double) (endpoints : List Endpoint) (id : UInt8)
    (origin : Vector2) : World × List Dispatch :=
  let w := w.modifySlot id fun s => { s with lastShot := some now }
  let (bullet, w) := w.spawnBullet t id origin
  (w, match w.spawnMessage? bullet with
    | some message => broadcast endpoints (.spawn message)
    | none => [])

/-- Obeys one input of a player. -/
def obey (w : World) (t : Tuning) (now : Double) (endpoints : List Endpoint) (id : UInt8)
    (i : Wire.Input) : World × List Dispatch :=
  match w.playerEntity? id with
  | none => (w, [])
  | some h =>
    -- the player turns also while the next shot has to wait
    let w := { w with registry := w.registry.insert .velocity h (steeredVelocity t i) }
    if i.shoots && ((w.players.get? id).map (isReady t now)).getD true then
      match w.registry.get? .position h with
      | some origin => w.fire t now endpoints id origin
      | none => (w, [])
    else (w, [])

/-- Obeys the pending input of a player, if there is one. -/
def steerPlayer (w : World) (t : Tuning) (now : Double) (endpoints : List Endpoint) (id : UInt8) :
    World × List Dispatch :=
  match (w.players.get? id).bind Slot.pending with
  | none => (w, [])
  | some i => (w.modifySlot id fun s => { s with pending := none }).obey t now endpoints id i

/-- Obeys the players one after the other. -/
def steerPlayers (t : Tuning) (now : Double) (endpoints : List Endpoint) :
    List UInt8 → World → World × List Dispatch
  | [], w => (w, [])
  | id :: rest, w =>
    let (w, first) := w.steerPlayer t now endpoints id
    let (w, more) := steerPlayers t now endpoints rest w
    (w, first ++ more)

/-- Obeys all players, ascending by id. -/
def steer (w : World) (t : Tuning) (now : Double) : World × List Dispatch :=
  steerPlayers t now w.endpoints w.players.keys w

end Skirmish.World
