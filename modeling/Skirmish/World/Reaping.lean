import Skirmish.World.Basic
import Skirmish.World.Dispatch
/-!
# Reaping

The condemned are destroyed, in the order of their handles, and their ends are announced. Those
that are dead already are passed over. A slot that pointed to one of them points to nothing.
-/

namespace Skirmish.World

/-- The condemned that are alive, ascending. -/
def reaped (w : World) (condemned : HandleSet) : List Handle :=
  condemned.toList.filter w.registry.isAlive

/-- The slot of a player when some entities are gone. -/
def releasedFrom (gone : List Handle) (s : Slot) : Slot :=
  match s.entity with
  | some h => if h ∈ gone then { s with entity := none } else s
  | none => s

/-- The announcement that an entity is gone. -/
def destroyNotices (w : World) (h : Handle) : List Dispatch :=
  match w.registry.get? .networkId h with
  | some networkId => broadcast w.endpoints (.destroy networkId)
  | none => []

def reap (w : World) (condemned : HandleSet) : World × List Dispatch :=
  let gone := w.reaped condemned
  ({ w with
      registry := gone.foldl Registry.destroy w.registry
      players := w.players.map fun _ => releasedFrom gone },
    gone.flatMap w.destroyNotices)

end Skirmish.World
