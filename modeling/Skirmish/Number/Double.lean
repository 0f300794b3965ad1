import Skirmish.Number.Single
/-!
# Double-precision numbers

Simulation time is a binary64 number. `Single.toDouble` is exact; `Double.toSingle` rounds to the
nearest number, a tie to the even pattern, and past the largest finite number to infinity. Both go
through the value as sign, mantissa and exponent, which is the same for the two formats.
-/

namespace Skirmish

open Float.Model (Format UnpackedFloat)

/-- A binary64 number, as its bit pattern. -/
structure Double where
  bits : UInt64
deriving DecidableEq, Repr, Inhabited

namespace Double

def magnitude (x : Double) : UInt64 := x.bits &&& 0x7fffffffffffffff

def isNaN (x : Double) : Bool := 0x7ff0000000000000 < x.magnitude

def isInfinite (x : Double) : Bool := x.magnitude == 0x7ff0000000000000

def zero : Double := ⟨0⟩

/-- The NaN that an operation on numbers gives when it has no answer. -/
def invalid : Double := ⟨0xfff8000000000000⟩

def quiet (x : Double) : Double := ⟨x.bits ||| 0x0008000000000000⟩

def toFloat (x : Double) : Float := Float.ofBits x.bits

def ofFloat (f : Float) : Double := if f.isNaN then invalid else ⟨f.toBits⟩

/-- One rounded operation; a NaN operand comes through, the left one first. -/
def arith (op : Float → Float → Float) (x y : Double) : Double :=
  if x.isNaN then x.quiet
  else if y.isNaN then y.quiet
  else ofFloat (op x.toFloat y.toFloat)

instance : Add Double := ⟨arith (· + ·)⟩

instance : Sub Double := ⟨arith (· - ·)⟩

instance : Mul Double := ⟨arith (· * ·)⟩

instance : Div Double := ⟨arith (· / ·)⟩

/-- The sign bit turned over. -/
instance : Neg Double := ⟨fun x => ⟨x.bits ^^^ 0x8000000000000000⟩⟩

/-- The nearest number, a tie to the even pattern. -/
def ofNat (n : Nat) : Double := ⟨(Float.ofModel (Float.Model.ofNat n)).toBits⟩

/-- Numeric order: zeros of either sign are equal and a NaN compares with nothing. -/
def lt (x y : Double) : Bool := x.toFloat < y.toFloat

def le (x y : Double) : Bool := x.toFloat ≤ y.toFloat

instance : LT Double := ⟨fun x y => x.lt y = true⟩

instance : LE Double := ⟨fun x y => x.le y = true⟩

instance (x y : Double) : Decidable (x < y) := inferInstanceAs (Decidable (x.lt y = true))

instance (x y : Double) : Decidable (x ≤ y) := inferInstanceAs (Decidable (x.le y = true))

end Double

/-! ## Between the two formats -/

/-- The same value, rounded to `format` where it does not fit. -/
def reround (format : Format) : UnpackedFloat → UnpackedFloat
  | .finite sign mantissa exponent _ => UnpackedFloat.round format sign mantissa exponent
  | x => x

/-- The number itself: every binary32 number is a binary64 number. A NaN keeps its sign and the
leading bits of its payload. -/
def Single.toDouble (x : Single) : Double :=
  if x.isNaN then
    let sign : UInt64 := (x.bits >>> 31).toUInt64 <<< 63
    let payload : UInt64 := (x.bits &&& 0x007fffff).toUInt64 <<< 29
    Double.quiet ⟨sign ||| 0x7ff0000000000000 ||| payload⟩
  else
    let value := UnpackedFloat.unpack Format.binary32 x.bits.toBitVec
    ⟨UInt64.ofBitVec (UnpackedFloat.pack Format.binary64 (reround Format.binary64 value))⟩

/-- The nearest binary32 number. A NaN keeps its sign and the leading bits of its payload. -/
def Double.toSingle (x : Double) : Single :=
  if x.isNaN then
    let sign : UInt32 := (x.bits >>> 63).toUInt32 <<< 31
    let payload : UInt32 := (x.bits >>> 29).toUInt32 &&& 0x007fffff
    Single.quiet ⟨sign ||| 0x7f800000 ||| payload⟩
  else
    let value := UnpackedFloat.unpack Format.binary64 x.bits.toBitVec
    ⟨UInt32.ofBitVec (UnpackedFloat.pack Format.binary32 (reround Format.binary32 value))⟩

end Skirmish
