import Skirmish.Wire.Payload
/-!
# Controls

What a player holds at one moment, and the input that says so.
-/

namespace Skirmish

structure Controls where
  /-- Negative to the left, positive to the right. -/
  moveX : Int8
  /-- Negative upwards, positive downwards. -/
  moveY : Int8
  shoot : Bool
  special : Bool
deriving DecidableEq, Repr, Inhabited

namespace Controls

/-- Hands off. -/
def idle : Controls := ⟨0, 0, false, false⟩

/-- A button, if it is held. -/
def bit (held : Bool) (button : UInt8) : UInt8 := if held then button else 0

/-- The button byte, with the directions of the axes. -/
def buttons (c : Controls) : UInt8 :=
  bit c.shoot Wire.shootButton ||| bit c.special Wire.specialButton |||
    bit (c.moveX < 0) Wire.leftButton ||| bit (0 < c.moveX) Wire.rightButton |||
    bit (c.moveY < 0) Wire.upButton ||| bit (0 < c.moveY) Wire.downButton

/-- The input of a player at a time of the player's clock. -/
def input (c : Controls) (playerId : UInt8) (timestamp : UInt32) : Wire.Input :=
  ⟨timestamp, playerId, c.buttons, c.moveX, c.moveY⟩

end Controls

end Skirmish
