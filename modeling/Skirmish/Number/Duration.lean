import Skirmish.Number.Double
/-!
# Spans of time in nanoseconds

A span given as a binary64 number of seconds is rounded to a whole number of nanoseconds, a half to
the even neighbour. The computation is exact up to that one rounding.
-/

namespace Skirmish

open Float.Model (Format UnpackedFloat)

/-- The whole number nearest to `num / den`, a half to the even neighbour. -/
def roundedQuotient (num den : Nat) : Nat :=
  let q := num / den
  let twice := 2 * (num % den)
  if twice < den then q
  else if den < twice then q + 1
  else q + q % 2

/-- The nearest number of nanoseconds, for a span that is a number and not negative. -/
def Double.nanoseconds? (seconds : Double) : Option Nat :=
  match UnpackedFloat.unpack Format.binary64 seconds.bits.toBitVec with
  | .zero _ => some 0
  | .finite .positive mantissa exponent _ =>
    some (roundedQuotient (mantissa * 1000000000 <<< exponent.toNat) (1 <<< (-exponent).toNat))
  | _ => none

/-- A whole number of milliseconds in seconds: the whole seconds and the rest are rounded apart and
then added. -/
def secondsOfMilliseconds (ms : Nat) : Single :=
  Single.ofNat (ms / 1000) + Single.ofNat (ms % 1000 * 1000000) / Single.ofNat 1000000000

end Skirmish
