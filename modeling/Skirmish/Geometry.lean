import Skirmish.Number.Single
/-!
# The plane of the play field

The origin is the top left corner, `x` grows to the right and `y` downwards. Every operation rounds
after each step, in the order it is written: sums and products are not rearranged.
-/

namespace Skirmish

/-- A point of the plane, or a displacement in it. -/
structure Vector2 where
  x : Single
  y : Single
deriving DecidableEq, Repr, Inhabited

namespace Vector2

def zero : Vector2 := ⟨.zero, .zero⟩

def dot (a b : Vector2) : Single := a.x * b.x + a.y * b.y

def lengthSquared (a : Vector2) : Single := a.dot a

def distanceSquared (a b : Vector2) : Single := lengthSquared ⟨a.x - b.x, a.y - b.y⟩

end Vector2

/-- A rectangle with sides along the axes, by its top left corner and its size. -/
structure Box where
  x : Single
  y : Single
  width : Single
  height : Single
deriving DecidableEq, Repr, Inhabited

namespace Box

/-- The interiors meet; touching edges do not count. -/
def overlaps (a b : Box) : Bool :=
  a.x < b.x + b.width && b.x < a.x + a.width &&
    a.y < b.y + b.height && b.y < a.y + a.height

def centre (a : Box) : Vector2 :=
  ⟨a.x + a.width * .half, a.y + a.height * .half⟩

/-- The nearest point of the box, by coordinate. There is none when an edge lies left of or above
its opposite, or is not a number. -/
def clamp? (a : Box) (p : Vector2) : Option Vector2 := do
  let x ← p.x.clamp? a.x (a.x + a.width)
  let y ← p.y.clamp? a.y (a.y + a.height)
  return ⟨x, y⟩

end Box

end Skirmish
