import Skirmish.World.Basic
/-!
# Expiry

What has a lifetime grows older and is condemned when nothing of it is left.
-/

namespace Skirmish.World

/-- Takes `dt` seconds from every lifetime. -/
def age (w : World) (dt : Single) : World :=
  { w with registry := w.registry.mapColumn .lifetime fun _ remaining => remaining - dt }

/-- Whatever has nothing left of its lifetime, ascending by handle. -/
def expired (w : World) : List Handle :=
  ((w.registry.entries .lifetime).filter fun (_, remaining) => remaining ≤ .zero).map Prod.fst

end Skirmish.World
