import Skirmish.World.Basic
import Skirmish.World.Dispatch
/-!
# Snapshots

The state of everything that can be seen, to everyone, in batches ascending by network id.
-/

namespace Skirmish.World

def snapshot (w : World) : List Dispatch :=
  (Wire.Batch.chunks w.batchEntries).flatMap fun batch => broadcast w.endpoints (.batch batch)

end Skirmish.World
