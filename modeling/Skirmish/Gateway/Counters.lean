import Skirmish.World.Dispatch
/-!
# Counters

What has been done with the datagrams that came in and those that went out.
-/

namespace Skirmish

structure Counters where
  /-- Datagrams that came in; each is counted once more below. -/
  datagramsIn : Nat := 0
  malformed : Nat := 0
  /-- The token belongs to no session. -/
  unauthenticated : Nat := 0
  inputs : Nat := 0
  /-- There was no room for the input. -/
  inputsDropped : Nat := 0
  pings : Nat := 0
  /-- Of a kind that only servers send. -/
  unexpected : Nat := 0
  datagramsOut : Nat := 0
  sendFailures : Nat := 0
deriving DecidableEq, Repr, Inhabited

/-- Sends datagrams one after the other; nothing is tried again. Gives what was sent. -/
def sendAll (succeeds : Endpoint → Bool) :
    List Datagram → Counters → List Datagram × Counters
  | [], counters => ([], counters)
  | d :: rest, counters =>
    if succeeds d.recipient then
      let (sent, counters) :=
        sendAll succeeds rest { counters with datagramsOut := counters.datagramsOut + 1 }
      (d :: sent, counters)
    else sendAll succeeds rest { counters with sendFailures := counters.sendFailures + 1 }

end Skirmish
