import Skirmish.Client.Basic
import Skirmish.CommandLine.Server
/-!
# The arguments of a client, and what it plays

A client that nobody holds sweeps up and down, turning every two seconds, and keeps firing.
-/

namespace Skirmish.CommandLine

inductive ClientOption where
  | server
  | name
  | inputRate
deriving DecidableEq, Repr

namespace ClientOption

def flag : ClientOption → String
  | server => "--server"
  | name => "--name"
  | inputRate => "--input-hz"

def all : List ClientOption := [server, name, inputRate]

def ofFlag? (word : String) : Option ClientOption := all.find? fun o => o.flag = word

/-- What an option with a value does to the settings. -/
def apply (s : ClientSettings) (o : ClientOption) (value : String) :
    Except Fault ClientSettings :=
  match o with
  | server => .ok { s with serverAddress := value }
  | name => .ok { s with username := value }
  | inputRate => (number o.flag UInt32.size value).map fun n => { s with inputRate := UInt32.ofNat n }

end ClientOption

/-- The options among some words applied from left to right, each with the word after it. -/
def applyClientOptions (s : ClientSettings) : List String → Except Fault ClientSettings
  | word :: value :: rest =>
    match ClientOption.ofFlag? word with
    | some o =>
      match o.apply s value with
      | .ok s => applyClientOptions s rest
      | .error fault => .error fault
    | none => applyClientOptions s (value :: rest)
  | _ => .ok s

/-- The settings that a command line gives; its first word is the name of the program. -/
def clientSettings (words : List String) : Except Fault ClientSettings := do
  let s ← applyClientOptions .default words.tail
  if s.inputRate = 0 then throw .zeroRate
  return s

/-- Where the server is. -/
def serverAddress (s : ClientSettings) : Except Fault Endpoint :=
  match Endpoint.ofText? s.serverAddress with
  | some e => .ok e
  | none => .error .badServer

/-- What an unattended client holds in a frame. -/
def sweep (inputRate : UInt32) (frame : Nat) : Controls :=
  let half := inputRate.toNat * 2
  ⟨0, if frame / half % 2 = 0 then 1 else -1, true, false⟩

/-- The frames after which an unattended client sends a ping. -/
def pingsAfter (inputRate : UInt32) (frame : Nat) : Bool := frame % (inputRate * 5).toNat = 0

/-- What an unattended client sends first: a ping, and then an input in each frame. -/
def performance (c : Client) (inputRate : UInt32) (frames : Nat) : List Wire.Packet :=
  c.ping.2 :: (List.range frames).flatMap fun frame =>
    (c.sendControls (sweep inputRate frame) 0).2 ::
      if pingsAfter inputRate frame then [c.ping.2] else []

end Skirmish.CommandLine
