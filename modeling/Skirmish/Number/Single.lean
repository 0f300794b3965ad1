/-!
# Single-precision numbers

A coordinate, a speed or a span of time is a binary32 number. It is held as its bit pattern, so that
whatever arrived in a packet can be sent on bit for bit, a NaN with its payload included; arithmetic
goes through `Float32`, whose operations are defined on the same patterns.

Two decisions are made here once. A NaN operand comes through an operation unchanged except that it
is made quiet, the left one first; and an operation on numbers that has no answer (`∞ - ∞`, `0 · ∞`)
gives the quiet NaN with its sign bit set. The first is what makes a lost coordinate stay lost, the
second decides where such a number stands in `totalOrder`.
-/

namespace Skirmish

/-- A binary32 number, as its bit pattern. Equality is equality of patterns, so it tells `0.0` from
`-0.0` and one NaN from another; the numeric comparisons are `lt` and `le`. -/
structure Single where
  bits : UInt32
deriving DecidableEq, Repr, Inhabited

namespace Single

/-! ## Parts of a pattern -/

/-- The pattern without its sign bit; it grows with the absolute value. -/
def magnitude (x : Single) : UInt32 := x.bits &&& 0x7fffffff

/-- Every exponent bit set and some fraction bit set. -/
def isNaN (x : Single) : Bool := 0x7f800000 < x.magnitude

/-- Neither infinite nor NaN. -/
def isFinite (x : Single) : Bool := x.magnitude < 0x7f800000

def zero : Single := ⟨0⟩

def one : Single := ⟨0x3f800000⟩

def half : Single := ⟨0x3f000000⟩

/-- The NaN that an operation on numbers gives when it has no answer. -/
def invalid : Single := ⟨0xffc00000⟩

/-- The pattern with the quiet bit set. -/
def quiet (x : Single) : Single := ⟨x.bits ||| 0x00400000⟩

/-! ## Arithmetic -/

def toFloat (x : Single) : Float32 := Float32.ofBits x.bits

/-- The pattern of a computed number, `invalid` for a NaN. -/
def ofFloat (f : Float32) : Single := if f.isNaN then invalid else ⟨f.toBits⟩

/-- One rounded operation, under the two rules on NaN. -/
def arith (op : Float32 → Float32 → Float32) (x y : Single) : Single :=
  if x.isNaN then x.quiet
  else if y.isNaN then y.quiet
  else ofFloat (op x.toFloat y.toFloat)

instance : Add Single := ⟨arith (· + ·)⟩

instance : Sub Single := ⟨arith (· - ·)⟩

instance : Mul Single := ⟨arith (· * ·)⟩

instance : Div Single := ⟨arith (· / ·)⟩

/-- The sign bit turned over, also on a NaN. -/
instance : Neg Single := ⟨fun x => ⟨x.bits ^^^ 0x80000000⟩⟩

/-- The nearest number, a tie to the even pattern. -/
def ofNat (n : Nat) : Single := ⟨(Float32.ofModel (Float32.Model.ofNat n)).toBits⟩

/-- The nearest number to an integer, a tie to the even pattern. -/
def ofInt (n : Int) : Single := ⟨(Float32.ofModel (Float32.Model.ofInt n)).toBits⟩

/-! ## Comparison -/

/-- Numeric order: zeros of either sign are equal and a NaN compares with nothing. -/
def lt (x y : Single) : Bool := x.toFloat < y.toFloat

def le (x y : Single) : Bool := x.toFloat ≤ y.toFloat

instance : LT Single := ⟨fun x y => x.lt y = true⟩

instance : LE Single := ⟨fun x y => x.le y = true⟩

instance (x y : Single) : Decidable (x < y) := inferInstanceAs (Decidable (x.lt y = true))

instance (x y : Single) : Decidable (x ≤ y) := inferInstanceAs (Decidable (x.le y = true))

/-- Where a pattern stands when all of them are put in one line: negative NaNs, negative numbers,
`-0.0`, `0.0`, positive numbers, positive NaNs. Only equal patterns share a place. -/
def totalOrder (x : Single) : Int :=
  if x.bits < 0x80000000 then x.bits.toNat else -(x.magnitude.toNat : Int) - 1

/-- Brings `x` into `[low, high]`; a value that compares neither below nor above stays as it is, so
`-0.0` and NaN do. There is no answer when the bounds are not in order, or one of them is NaN. -/
def clamp? (x low high : Single) : Option Single :=
  if low ≤ high then
    some (if x < low then low else if high < x then high else x)
  else none

end Single

end Skirmish
