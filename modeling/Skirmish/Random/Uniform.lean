import Skirmish.Number.Single
import Skirmish.Random.Generator
/-!
# Random numbers in a range

The upper bits of a word make a number from zero up to but not including one; scaled and shifted it
lies in a given range. Rounding can carry it onto the upper bound. A half-open range then tries the
next word; a closed range scales a little less from the start.
-/

namespace Skirmish

/-- Why there is no number in a range. -/
inductive RangeFault where
  /-- The bounds are not in order, or one is NaN. -/
  | empty
  /-- The bounds lie further apart than any number. -/
  | tooWide
  /-- No word among those that were looked at gave a number below the upper bound. -/
  | exhausted
deriving DecidableEq, Repr

/-- A number from zero up to but not including one. -/
def unitFraction (word : UInt32) : Single := ⟨(0x3f800000 : UInt32) ||| (word >>> 9)⟩ - .one

/-- The greatest `unitFraction`. -/
def greatestFraction : Single := ⟨0x3fffffff⟩ - .one

namespace Generator

/-- A number at least `low` and below `high`. -/
def below (g : Generator) (low high : Single) : Except RangeFault (Single × Generator) :=
  let scale := high - low
  let number := fun word => unitFraction word * scale + low
  if ¬ low < high then .error .empty
  else if !scale.isFinite then .error .tooWide
  else match g.find? (fun word => number word < high) patience with
    | some (word, g) => .ok (number word, g)
    | none => .error .exhausted

/-- The greatest scale not above the given one with which no number exceeds `high`. -/
def fittedScale (low high : Single) : Nat → Single → Single
  | 0, scale => scale
  | steps + 1, scale =>
    if high < scale * greatestFraction + low then fittedScale low high steps ⟨scale.bits - 1⟩
    else scale

/-- A number at least `low` and at most `high`. -/
def between (g : Generator) (low high : Single) : Except RangeFault (Single × Generator) :=
  -- the greatest fraction has to land on the upper bound
  let scale := (high - low) / greatestFraction
  if ¬ low ≤ high then .error .empty
  else if !scale.isFinite then .error .tooWide
  else .ok (unitFraction g.peek * fittedScale low high scale.bits.toNat scale + low, g.advance 1)

end Generator

end Skirmish
