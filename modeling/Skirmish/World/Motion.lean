import Skirmish.World.Basic
/-!
# Motion

Whatever has a position and a velocity moves. Players stay in the field. If the field has no points,
because a side is negative or not a number, a player has nowhere to be.
-/

namespace Skirmish.World

/-- The play field. -/
def field (t : Tuning) : Box := ⟨.zero, .zero, t.fieldWidth, t.fieldHeight⟩

/-- Where something is after `dt` seconds. -/
def moved (position velocity : Vector2) (dt : Single) : Vector2 :=
  ⟨position.x + velocity.x * dt, position.y + velocity.y * dt⟩

/-- Where an entity is after `dt` seconds, if it has somewhere to be. -/
def nextPosition (w : World) (t : Tuning) (dt : Single) (h : Handle) (position : Vector2) :
    Option Vector2 :=
  match w.registry.get? .velocity h with
  | none => some position
  | some velocity =>
    if w.registry.get? .kind h = some .player then (field t).clamp? (moved position velocity dt)
    else some (moved position velocity dt)

/-- Moves everything, if every player has somewhere to be. -/
def move? (w : World) (t : Tuning) (dt : Single) : Option World :=
  ((w.registry.column .position).change? (w.nextPosition t dt)).map fun positions =>
    { w with registry := w.registry.setColumn .position positions }

end Skirmish.World
