import Skirmish.Simulation
/-!
# The way to the simulation

Events wait in a queue of limited room until the simulation takes them. Most senders wait for room;
a sender of inputs does not. When the simulation has gone, the queue is closed for good.
-/

namespace Skirmish

structure EventQueue where
  /-- The events that wait, the oldest in front. -/
  events : List Event
  capacity : Nat
  isOpen : Bool
deriving DecidableEq, Repr

/-- What becomes of an event that is offered to a queue. -/
inductive Offer where
  | accepted
  | full
  | closed
deriving DecidableEq, Repr

namespace EventQueue

def empty (capacity : Nat) : EventQueue := ⟨[], capacity, true⟩

def state (q : EventQueue) : Offer :=
  if !q.isOpen then .closed else if q.events.length < q.capacity then .accepted else .full

def push (q : EventQueue) (e : Event) : EventQueue := { q with events := q.events ++ [e] }

/-- Sends an event that may not be lost. There is no result while the queue is full, for the sender
waits; a closed queue stays as it is. -/
def send? (q : EventQueue) (e : Event) : Option EventQueue :=
  match q.state with
  | .accepted => some (q.push e)
  | .closed => some q
  | .full => none

/-- Sends several such events. -/
def sendAll? (q : EventQueue) : List Event → Option EventQueue
  | [] => some q
  | e :: rest => (q.send? e).bind fun q => q.sendAll? rest

/-- The oldest event, and the others. -/
def take? (q : EventQueue) : Option (Event × EventQueue) :=
  match q.events with
  | [] => none
  | e :: rest => some (e, { q with events := rest })

/-- The simulation has gone, and what waited with it. -/
def close (q : EventQueue) : EventQueue := { q with events := [], isOpen := false }

end EventQueue

end Skirmish
