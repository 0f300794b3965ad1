import Skirmish.Settings.Basic
/-!
# Settings from a document

The fields of each record in the order in which a document may also give them by position, and the
names under which it gives them otherwise.
-/

namespace Skirmish

open Json (RecordField Value)

def HitPolicy.ofName? (name : String) : Option HitPolicy :=
  [oldestFirst, nearest].find? fun policy => policy.name = name

/-- A policy by its name, alone or as the one member of an object. -/
def HitPolicy.ofJson? : Value → Option HitPolicy
  | .string (some name) => ofName? name
  | .object [(some name, .null)] => ofName? name
  | _ => none

def PlayerTuning.fields : List (RecordField PlayerTuning) := [
  .of "speed" Value.toSingle? fun t v => { t with speed := v },
  .of "width" Value.toSingle? fun t v => { t with width := v },
  .of "height" Value.toSingle? fun t v => { t with height := v },
  .of "health" Value.toWord8? fun t v => { t with health := v },
  .of "spawn_x" Value.toSingle? fun t v => { t with spawnX := v },
  .of "spawn_spacing" Value.toSingle? fun t v => { t with spawnSpacing := v },
  .of "spawn_y" Value.toSingle? fun t v => { t with spawnY := v }]

def BulletTuning.fields : List (RecordField BulletTuning) := [
  .of "speed" Value.toSingle? fun t v => { t with speed := v },
  .of "damage" Value.toWord8? fun t v => { t with damage := v },
  .of "lifetime" Value.toSingle? fun t v => { t with lifetime := v },
  .of "width" Value.toSingle? fun t v => { t with width := v },
  .of "height" Value.toSingle? fun t v => { t with height := v },
  .of "offset_x" Value.toSingle? fun t v => { t with offsetX := v },
  .of "offset_y" Value.toSingle? fun t v => { t with offsetY := v },
  .of "despawn_x" Value.toSingle? fun t v => { t with despawnX := v }]

def EnemyTuning.fields : List (RecordField EnemyTuning) := [
  .of "speed" Value.toSingle? fun t v => { t with speed := v },
  .of "health" Value.toWord8? fun t v => { t with health := v },
  .of "width" Value.toSingle? fun t v => { t with width := v },
  .of "height" Value.toSingle? fun t v => { t with height := v },
  .of "spawn_x" Value.toSingle? fun t v => { t with spawnX := v },
  .of "despawn_x" Value.toSingle? fun t v => { t with despawnX := v },
  .of "spawn_interval_min" Value.toSingle? fun t v => { t with spawnIntervalMin := v },
  .of "spawn_interval_max" Value.toSingle? fun t v => { t with spawnIntervalMax := v },
  .of "first_spawn_after" Value.toSingle? fun t v => { t with firstSpawnAfter := v }]

def Tuning.fields : List (RecordField Tuning) := [
  .of "field_width" Value.toSingle? fun t v => { t with fieldWidth := v },
  .of "field_height" Value.toSingle? fun t v => { t with fieldHeight := v },
  .of "shoot_cooldown_ms" Value.toWord64? fun t v => { t with shootCooldownMs := v },
  .of "hit_policy" HitPolicy.ofJson? fun t v => { t with hitPolicy := v },
  .of "rng_seed" (Value.toOptional? Value.toWord64?) fun t v => { t with seed := v },
  .of "player" (Value.readRecord PlayerTuning.fields .default) fun t v => { t with player := v },
  .of "bullet" (Value.readRecord BulletTuning.fields .default) fun t v => { t with bullet := v },
  .of "enemy" (Value.readRecord EnemyTuning.fields .default) fun t v => { t with enemy := v }]

def Tuning.ofJson? : Value → Option Tuning := Value.readRecord fields .default

def Settings.fields : List (RecordField Settings) := [
  .of "tcp_addr" Value.toText? fun s v => { s with tcpAddress := v },
  .of "udp_addr" Value.toText? fun s v => { s with udpAddress := v },
  .of "tick_hz" Value.toWord32? fun s v => { s with tickRate := v },
  .of "broadcast_hz" Value.toWord32? fun s v => { s with broadcastRate := v },
  .of "max_players" Value.toWord8? fun s v => { s with maxPlayers := v },
  .of "input_queue" Value.toWord64? fun s v => { s with inputQueue := v },
  .of "outbound_queue" Value.toWord64? fun s v => { s with outboundQueue := v },
  .of "game" Tuning.ofJson? fun s v => { s with game := v }]

def Settings.ofJson? : Value → Option Settings := Value.readRecord fields .default

/-- The settings that a document gives, whether or not a game can be run with them. -/
def Settings.ofText? (text : String) : Option Settings := (Value.ofText? text).bind ofJson?

def ClientSettings.fields : List (RecordField ClientSettings) := [
  .of "server_addr" Value.toText? fun s v => { s with serverAddress := v },
  .of "username" Value.toText? fun s v => { s with username := v },
  .of "input_hz" Value.toWord32? fun s v => { s with inputRate := v }]

def ClientSettings.ofText? (text : String) : Option ClientSettings :=
  (Value.ofText? text).bind (Value.readRecord fields .default)

end Skirmish
