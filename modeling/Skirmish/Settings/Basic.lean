import Skirmish.Json.Value
import Skirmish.Number.Duration
/-!
# Settings

What a server and a client can be told, with the values they use when they are told nothing. A
document gives only what it changes. Reading accepts any values of the right types; whether a game
can be run with them is decided by `Settings.validate`, which names the first thing that is wrong.
-/

namespace Skirmish

/-- Which enemy a bullet hits when it overlaps several. -/
inductive HitPolicy where
  /-- The one that has been there longest. -/
  | oldestFirst
  /-- The one whose centre is closest to the bullet's, the older of two as close. -/
  | nearest
deriving DecidableEq, Repr, Inhabited

def HitPolicy.name : HitPolicy → String
  | oldestFirst => "oldest_first"
  | nearest => "nearest"

structure PlayerTuning where
  /-- Units per second for each unit of an axis. -/
  speed : Single
  width : Single
  height : Single
  health : UInt8
  /-- Player `n` starts `n` spacings to the right of this. -/
  spawnX : Single
  spawnSpacing : Single
  spawnY : Single
deriving DecidableEq, Repr, Inhabited

structure BulletTuning where
  speed : Single
  damage : UInt8
  /-- Seconds that a bullet flies. -/
  lifetime : Single
  width : Single
  height : Single
  /-- Where the muzzle is, seen from the shooter. -/
  offsetX : Single
  offsetY : Single
  /-- A bullet to the right of this is gone. -/
  despawnX : Single
deriving DecidableEq, Repr, Inhabited

structure EnemyTuning where
  /-- Units per second to the left. -/
  speed : Single
  health : UInt8
  width : Single
  height : Single
  spawnX : Single
  /-- An enemy to the left of this is gone. -/
  despawnX : Single
  /-- The bounds of the seconds between two enemies. -/
  spawnIntervalMin : Single
  spawnIntervalMax : Single
  /-- Seconds until the first enemy. -/
  firstSpawnAfter : Single
deriving DecidableEq, Repr, Inhabited

/-- The rules of the game. -/
structure Tuning where
  fieldWidth : Single
  fieldHeight : Single
  shootCooldownMs : UInt64
  hitPolicy : HitPolicy
  /-- The seed of the enemies' random numbers, or nothing to have one chosen. -/
  seed : Option UInt64
  player : PlayerTuning
  bullet : BulletTuning
  enemy : EnemyTuning
deriving DecidableEq, Repr, Inhabited

/-- Everything about a server. -/
structure Settings where
  tcpAddress : String
  udpAddress : String
  /-- Steps of the simulation per second. -/
  tickRate : UInt32
  /-- Snapshots per second. -/
  broadcastRate : UInt32
  maxPlayers : UInt8
  /-- Room for events on their way to the simulation. -/
  inputQueue : UInt64
  /-- Room for datagrams on their way out. -/
  outboundQueue : UInt64
  game : Tuning
deriving DecidableEq, Repr, Inhabited

/-- Everything about a client. -/
structure ClientSettings where
  serverAddress : String
  username : String
  /-- Inputs per second. -/
  inputRate : UInt32
deriving DecidableEq, Repr, Inhabited

/-! ## Defaults -/

def PlayerTuning.default : PlayerTuning where
  speed := .ofNat 200
  width := .ofNat 48
  height := .ofNat 48
  health := 100
  spawnX := .ofNat 100
  spawnSpacing := .ofNat 100
  spawnY := .ofNat 300

def BulletTuning.default : BulletTuning where
  speed := .ofNat 400
  damage := 25
  lifetime := .ofNat 3
  width := .ofNat 8
  height := .ofNat 2
  offsetX := .ofNat 60
  offsetY := .ofNat 20
  despawnX := .ofNat 900

def EnemyTuning.default : EnemyTuning where
  speed := .ofNat 150
  health := 50
  width := .ofNat 40
  height := .ofNat 40
  spawnX := .ofNat 850
  despawnX := .ofInt (-100)
  spawnIntervalMin := .ofNat 3
  spawnIntervalMax := .ofNat 5
  firstSpawnAfter := .ofNat 3

def Tuning.default : Tuning where
  fieldWidth := .ofNat 800
  fieldHeight := .ofNat 600
  shootCooldownMs := 250
  hitPolicy := .oldestFirst
  seed := none
  player := .default
  bullet := .default
  enemy := .default

def Settings.default : Settings where
  tcpAddress := "0.0.0.0:4242"
  udpAddress := "0.0.0.0:4243"
  tickRate := 60
  broadcastRate := 30
  maxPlayers := 4
  inputQueue := 1024
  outboundQueue := 4096
  game := .default

def ClientSettings.default : ClientSettings where
  serverAddress := "127.0.0.1:4242"
  username := "Player"
  inputRate := 60

/-! ## What follows from the settings -/

/-- Seconds between two shots of a player. -/
def Tuning.shootCooldown (t : Tuning) : Single := secondsOfMilliseconds t.shootCooldownMs.toNat

/-- Seconds between two snapshots. -/
def Settings.broadcastPeriod (s : Settings) : Single := .one / .ofNat s.broadcastRate.toNat

/-- Nanoseconds between two steps; there is no such span at a rate of zero. -/
def Settings.tickNanoseconds? (s : Settings) : Option Nat :=
  (Double.ofNat 1 / Double.ofNat s.tickRate.toNat).nanoseconds?

/-! ## Validity -/

/-- What can be wrong with settings. -/
inductive SettingsFault where
  | tickRate
  | broadcastRate
  | maxPlayers
  | inputQueue
  | outboundQueue
  | field
  | spawnInterval
  | bulletLifetime
deriving DecidableEq, Repr

def SettingsFault.message : SettingsFault → String
  | tickRate => "tick_hz must be positive"
  | broadcastRate => "broadcast_hz must be positive"
  | maxPlayers => "max_players must be within 1..=4"
  | inputQueue => "input_queue must be positive"
  | outboundQueue => "outbound_queue must be positive"
  | field => "play field must have a positive size"
  | spawnInterval => "enemy spawn interval must satisfy 0 < min <= max"
  | bulletLifetime => "bullet lifetime must be positive"

/-- The given fault unless the condition holds. -/
def require {ε : Type} (holds : Bool) (fault : ε) : Except ε Unit :=
  if holds then .ok () else .error fault

def Tuning.validate (t : Tuning) : Except SettingsFault Unit := do
  require (.zero < t.fieldWidth && .zero < t.fieldHeight) .field
  require (.zero < t.enemy.spawnIntervalMin &&
    t.enemy.spawnIntervalMin ≤ t.enemy.spawnIntervalMax) .spawnInterval
  require (.zero < t.bullet.lifetime) .bulletLifetime

def Settings.validate (s : Settings) : Except SettingsFault Unit := do
  require (0 < s.tickRate) .tickRate
  require (0 < s.broadcastRate) .broadcastRate
  require (1 ≤ s.maxPlayers && s.maxPlayers ≤ 4) .maxPlayers
  require (0 < s.inputQueue) .inputQueue
  require (0 < s.outboundQueue) .outboundQueue
  s.game.validate

end Skirmish
