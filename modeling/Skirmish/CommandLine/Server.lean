import Skirmish.Server
import Skirmish.Settings.Reading
import Skirmish.Text.Numeral
/-!
# The arguments of a server

A server can be told of a file with settings, and of single settings that come before those of the
file. The file is looked for among all words of the command line, so a `--config` that is the value
of another option counts too; the other options are read from left to right, each with the word
after it, and words that are no option are passed over.
-/

namespace Skirmish.CommandLine

/-- What is wrong with a command line. -/
inductive Fault where
  | unreadableFile (path : String)
  | badFile (path : String)
  /-- The value of an option is no number, or too large. -/
  | badNumber (flag : String)
  | invalid (fault : SettingsFault)
  | zeroRate
  | badServer
deriving DecidableEq, Repr

def Fault.message : Fault → String
  | unreadableFile path => "read config " ++ path
  | badFile path => "parse config " ++ path
  | badNumber flag => flag
  | invalid fault => fault.message
  | zeroRate => "--input-hz must be positive"
  | badServer => "parse --server"

/-- A number below `bound` as the value of an option. -/
def number (flag : String) (bound : Nat) (value : String) : Except Fault Nat :=
  match Text.readBelow bound 10 value.toList with
  | some n => .ok n
  | none => .error (.badNumber flag)

inductive ServerOption where
  | config
  | tcpAddress
  | udpAddress
  | tickRate
  | broadcastRate
  | seed
deriving DecidableEq, Repr

namespace ServerOption

def flag : ServerOption → String
  | config => "--config"
  | tcpAddress => "--tcp"
  | udpAddress => "--udp"
  | tickRate => "--tick-hz"
  | broadcastRate => "--broadcast-hz"
  | seed => "--seed"

def all : List ServerOption := [config, tcpAddress, udpAddress, tickRate, broadcastRate, seed]

def ofFlag? (word : String) : Option ServerOption := all.find? fun o => o.flag = word

/-- What an option with a value does to the settings. -/
def apply (s : Settings) (o : ServerOption) (value : String) : Except Fault Settings :=
  match o with
  | config => .ok s
  | tcpAddress => .ok { s with tcpAddress := value }
  | udpAddress => .ok { s with udpAddress := value }
  | tickRate => (number o.flag UInt32.size value).map fun n => { s with tickRate := UInt32.ofNat n }
  | broadcastRate =>
    (number o.flag UInt32.size value).map fun n => { s with broadcastRate := UInt32.ofNat n }
  | seed =>
    (number o.flag UInt64.size value).map fun n =>
      { s with game := { s.game with seed := some (UInt64.ofNat n) } }

end ServerOption

/-- The options among some words, each with the word after it. -/
def serverOptions : List String → List (ServerOption × String)
  | word :: value :: rest =>
    match ServerOption.ofFlag? word with
    | some o => (o, value) :: serverOptions rest
    | none => serverOptions (value :: rest)
  | _ => []

/-- The options applied from left to right. -/
def applyAll (s : Settings) : List (ServerOption × String) → Except Fault Settings
  | [] => .ok s
  | (o, value) :: rest =>
    match o.apply s value with
    | .ok s => applyAll s rest
    | .error fault => .error fault

/-- The word after the first `--config` of all words. -/
def configPath? (words : List String) : Option String :=
  match words.dropWhile (· ≠ ServerOption.config.flag) with
  | _ :: path :: _ => some path
  | _ => none

def validated (s : Settings) : Except Fault Settings :=
  match s.validate with
  | .ok () => .ok s
  | .error fault => .error (.invalid fault)

/-- The settings in a file. -/
def settingsOfFile (readFile : String → Option String) (path : String) : Except Fault Settings :=
  match readFile path with
  | none => .error (.unreadableFile path)
  | some text =>
    match Settings.ofText? text with
    | none => .error (.badFile path)
    | some s => validated s

/-- The settings before any option is applied. -/
def baseSettings (readFile : String → Option String) (words : List String) :
    Except Fault Settings :=
  match configPath? words with
  | some path => settingsOfFile readFile path
  | none => .ok .default

/-- The settings that a command line gives; its first word is the name of the program. -/
def serverSettings (readFile : String → Option String) (words : List String) :
    Except Fault Settings := do
  let base ← baseSettings readFile words
  validated (← applyAll base (serverOptions words.tail))

end Skirmish.CommandLine
