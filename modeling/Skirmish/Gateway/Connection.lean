import Skirmish.Control.Message
import Skirmish.Data.SortedMap
import Skirmish.Session.Table
/-!
# Control connections

A connection waits for a player to ask for admission, answers, and then relays notices about other
players until the player leaves. Between admission and answer, and between the end of a connection
and the end of its session, other connections can act; these are phases of their own.
-/

namespace Skirmish

/-- A message for everyone but the player that it is about. -/
structure Notice where
  about : UInt8
  message : Control.Message
deriving DecidableEq, Repr

inductive Phase where
  /-- Nobody has been admitted yet. -/
  | greeting
  /-- A player has been admitted and not been told so. -/
  | welcoming (session : Session)
  | serving (session : Session)
  /-- The connection has ended and its session has not. -/
  | leaving (session : Session)
  | ended
deriving DecidableEq, Repr

structure Connection where
  phase : Phase
  /-- Notices that have not been relayed, the oldest in front. -/
  inbox : List Notice
  /-- Writing still succeeds. -/
  isWritable : Bool
  /-- What has been written, in order. -/
  sent : List Control.Message
deriving DecidableEq, Repr

namespace Connection

def fresh : Connection := ⟨.greeting, [], true, []⟩

/-- The session that is held in the table on behalf of a connection. -/
def session? (c : Connection) : Option Session :=
  match c.phase with
  | .welcoming s => some s
  | .serving s => some s
  | .leaving s => some s
  | .greeting => none
  | .ended => none

/-- Notices are kept for the player of a connection. -/
def isSubscribed (c : Connection) : Bool :=
  match c.phase with
  | .welcoming _ => true
  | .serving _ => true
  | _ => false

/-- How many notices are kept. -/
def inboxLimit : Nat := 64

/-- Keeps a notice. When there are too many, the oldest is lost. -/
def post (c : Connection) (n : Notice) : Connection :=
  if c.isSubscribed then
    let inbox := c.inbox ++ [n]
    { c with inbox := inbox.drop (inbox.length - inboxLimit) }
  else c

/-- Writes a message and goes on to one phase, or to another if writing fails. -/
def write (c : Connection) (m : Control.Message) (next failed : Phase) : Connection :=
  if c.isWritable then { c with sent := c.sent ++ [m], phase := next }
  else { c with phase := failed }

end Connection

/-- The connections by number. -/
abbrev Connections := SortedMap Nat Connection

namespace Connections

/-- Keeps a notice on all connections. -/
def post (cs : Connections) (n : Notice) : Connections := cs.map fun _ c => c.post n

end Connections

end Skirmish
