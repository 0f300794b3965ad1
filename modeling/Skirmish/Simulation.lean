import Skirmish.Random.ChaCha
import Skirmish.World.Collision
import Skirmish.World.Expiry
import Skirmish.World.Motion
import Skirmish.World.Reaping
import Skirmish.World.Snapshot
import Skirmish.World.Steering
import Skirmish.World.Wave
/-!
# The simulation

A game in progress. Between two steps it hears of players who come, go and act (`handle`); a step
(`tick`) then obeys the latest inputs, lets enemies come, moves and ages everything, settles
collisions, reaps the condemned, and from time to time sends a snapshot. What it has to say is
collected in `outbox` and handed over at the end of a step.
-/

namespace Skirmish

/-- What a simulation hears. -/
inductive Event where
  | connected (id : UInt8) (username : String)
  /-- The first datagram of a player has come from an endpoint. -/
  | udpReady (id : UInt8) (endpoint : Endpoint)
  /-- A player's datagrams come from another endpoint now. -/
  | endpointChanged (id : UInt8) (endpoint : Endpoint)
  | disconnected (id : UInt8)
  /-- The player is that of the session, whatever the input says. -/
  | input (id : UInt8) (input : Wire.Input)
deriving DecidableEq, Repr

/-- The player that an event is about. -/
def Event.player : Event → UInt8
  | connected id _ => id
  | udpReady id _ => id
  | endpointChanged id _ => id
  | disconnected id => id
  | input id _ => id

/-- Why a step cannot be taken. With valid settings the field has points, and no range that numbers are
drawn from is empty. -/
inductive StepFault where
  /-- No span of time or no place could be drawn for an enemy. -/
  | noRange (cause : RangeFault)
  /-- The field has no points. -/
  | noField
deriving DecidableEq, Repr

structure Simulation where
  tuning : Tuning
  /-- Seconds between two snapshots. -/
  broadcastPeriod : Single
  world : World
  wave : Wave
  generator : Generator
  /-- Whoever is to be reaped. -/
  condemned : HandleSet
  /-- What is to be sent at the end of the step. -/
  outbox : List Dispatch
  /-- Seconds since the last snapshot was due. -/
  sinceSnapshot : Single
  /-- Seconds of simulated time. -/
  clock : Double
  /-- Steps taken. -/
  ticks : Nat

namespace Simulation

/-- A new game. The generator is used if the settings name no seed. -/
def start (s : Settings) (entropy : Generator) : Simulation where
  tuning := s.game
  broadcastPeriod := s.broadcastPeriod
  world := .empty
  wave := .start s.game
  generator := match s.game.seed with
    | some seed => .ofSeed seed
    | none => entropy
  condemned := ∅
  outbox := []
  sinceSnapshot := .zero
  clock := .zero
  ticks := 0

/-- Adds to what is to be sent. -/
def say (s : Simulation) (dispatches : List Dispatch) : Simulation :=
  { s with outbox := s.outbox ++ dispatches }

def condemn (s : Simulation) (handles : List Handle) : Simulation :=
  { s with condemned := s.condemned.insertAll handles }

/-- Reaps the condemned; none are left. -/
def reap (s : Simulation) : Simulation :=
  let (world, dispatches) := s.world.reap s.condemned
  { s with world, condemned := ∅ }.say dispatches

/-! ## Events -/

/-- A player comes. An entity that the player still has is reaped first. -/
def connect (s : Simulation) (id : UInt8) (username : String) : Simulation :=
  let s := match s.world.playerEntity? id with
    | some stale => (s.condemn [stale]).reap
    | none => s
  { s with world := (s.world.spawnPlayer s.tuning id username).2 }

/-- What a newcomer is told of all others, ascending by network id. -/
def catchUp (w : World) (own : Option Handle) (endpoint : Endpoint) : List Dispatch :=
  w.networked.filterMap fun (_, h) =>
    if some h = own then none else (w.spawnMessage? h).map fun message => ⟨endpoint, .spawn message⟩

/-- What all are told of a newcomer. -/
def introduction (w : World) (own : Option Handle) : List Dispatch :=
  match own.bind w.spawnMessage? with
  | some message => broadcast w.endpoints (.spawn message)
  | none => []

/-- A player can be reached. The player is told of all others, and then all of the player. -/
def welcome (s : Simulation) (id : UInt8) (endpoint : Endpoint) : Simulation :=
  match s.world.players.get? id with
  | none => s
  | some slot =>
    let world := s.world.modifySlot id fun slot => { slot with endpoint := some endpoint }
    { s with world }.say (catchUp world slot.entity endpoint ++ introduction world slot.entity)

/-- A player goes. The slot is gone before the entity is reaped, so the player is not told. -/
def disconnect (s : Simulation) (id : UInt8) : Simulation :=
  match s.world.players.get? id with
  | none => s
  | some slot =>
    let s := { s with world := { s.world with players := s.world.players.erase id } }
    match slot.entity with
    | some h => (s.condemn [h]).reap
    | none => s

/-- What an event does. What it has to say goes out with the next step. -/
def handle (s : Simulation) : Event → Simulation
  | .connected id username => s.connect id username
  | .udpReady id endpoint => s.welcome id endpoint
  | .endpointChanged id endpoint =>
    { s with world := s.world.modifySlot id fun slot => { slot with endpoint := some endpoint } }
  | .disconnected id => s.disconnect id
  | .input id i =>
    { s with world := s.world.modifySlot id fun slot => { slot with pending := some i } }

/-! ## Steps -/

/-- Time goes on by `dt` seconds. -/
def passTime (s : Simulation) (dt : Single) : Simulation :=
  { s with clock := s.clock + dt.toDouble, ticks := s.ticks + 1 }

def steer (s : Simulation) : Simulation :=
  let (world, dispatches) := s.world.steer s.tuning s.clock
  { s with world }.say dispatches

def sendWave (s : Simulation) (dt : Single) : Except StepFault Simulation :=
  match s.world.sendWave s.wave s.tuning s.generator dt with
  | .error cause => .error (.noRange cause)
  | .ok ((world, dispatches), wave, generator) =>
    .ok ({ s with wave, generator, world }.say dispatches)

def move (s : Simulation) (dt : Single) : Except StepFault Simulation :=
  match s.world.move? s.tuning dt with
  | some world => .ok { s with world }
  | none => .error .noField

def age (s : Simulation) (dt : Single) : Simulation :=
  let world := s.world.age dt
  { s with world }.condemn world.expired

def collide (s : Simulation) : Simulation :=
  let (world, condemned) := s.world.collide s.tuning
  { s with world }.condemn condemned

/-- The slack in comparing spans of time, a millionth of a second. -/
def spanSlack : Single := ⟨0x358637bd⟩

/-- A snapshot is sent when one is due. If more than one is, the others are left out. -/
def publish (s : Simulation) (dt : Single) : Simulation :=
  let elapsed := s.sinceSnapshot + dt
  if s.broadcastPeriod ≤ elapsed + spanSlack then
    let rest := elapsed - s.broadcastPeriod
    -- a step longer than the period does not make up for what it left out
    let rest := if s.broadcastPeriod ≤ rest then .zero else rest
    { s with sinceSnapshot := rest }.say s.world.snapshot
  else { s with sinceSnapshot := elapsed }

/-- Hands over what is to be sent. -/
def flush (s : Simulation) : Simulation × List Dispatch := ({ s with outbox := [] }, s.outbox)

/-- One step of `dt` seconds, and what is to be sent. -/
def tick (s : Simulation) (dt : Single) : Except StepFault (Simulation × List Dispatch) := do
  let s ← (s.passTime dt).steer.sendWave dt
  let s ← s.move dt
  -- whoever is condemned on the way is gone before the snapshot is taken
  return ((s.age dt).collide.reap.publish dt).flush

end Simulation

end Skirmish
