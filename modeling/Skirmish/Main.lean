import Skirmish.CommandLine.Client
/-!
# The command line

The first argument tells a server from a client. The arguments are checked and the settings that
they give are shown; a fault goes to the error output, and the exit code tells that there was one.
-/

namespace Skirmish.CommandLine

/-- The settings that a server starts with. -/
def serverReport (s : Settings) (a : Addresses) : String :=
  "tcp=" ++ a.tcp.toText ++ " udp=" ++ a.udp.toText ++ " tick_hz=" ++ toString s.tickRate.toNat ++
    " broadcast_hz=" ++ toString s.broadcastRate.toNat ++ " max_players=" ++
    toString s.maxPlayers.toNat

/-- The settings that a client starts with. -/
def clientReport (s : ClientSettings) (server : Endpoint) : String :=
  "server=" ++ server.toText ++ " username=" ++ s.username ++ " input_hz=" ++
    toString s.inputRate.toNat

/-- Shows a report, or a fault. -/
def finish : Except String String → IO UInt32
  | .ok report => do
    IO.println report
    return 0
  | .error message => do
    IO.eprintln ("Error: " ++ message)
    return 1

/-- The text of a file, if there is one. -/
def textOfFile (path : String) : IO (Option String) := do
  try return some (← IO.FS.readFile path) catch _ => return none

def runServer (words : List String) : IO UInt32 := do
  let file ← match configPath? words with
    | some path => textOfFile path
    | none => pure none
  finish <| match serverSettings (fun _ => file) words with
    | .error fault => .error fault.message
    | .ok s =>
      match s.addresses with
      | .error fault => .error ("start server: " ++ fault.message)
      | .ok a => .ok (serverReport s a)

def runClient (words : List String) : IO UInt32 :=
  finish <| match clientSettings words with
    | .error fault => .error fault.message
    | .ok s =>
      match serverAddress s with
      | .error fault => .error fault.message
      | .ok server => .ok (clientReport s server)

end Skirmish.CommandLine

open Skirmish.CommandLine in
def main : List String → IO UInt32
  | "client" :: rest => runClient ("client" :: rest)
  | "server" :: rest => runServer ("server" :: rest)
  | rest => runServer ("server" :: rest)
