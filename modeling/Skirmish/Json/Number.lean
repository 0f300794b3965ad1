import Skirmish.Number.Double
import Skirmish.Text.Numeral
/-!
# Numbers in JSON

A number of a document is kept as it is written, because what it is depends on who reads it. As a
whole number it may have neither fraction nor exponent nor sign. As a binary64 number it is the
digits that fit into sixty-four bits, taken from the front, times or over a power of ten, each of
the two steps rounded; a number that is too large for binary64 is no number. A whole number of at
most sixty-four bits is rounded to binary32 directly, every other one by way of binary64.
-/

namespace Skirmish.Json

/-- The parts of a number: the digits before and behind the point, and a signed exponent. -/
structure Number where
  negative : Bool
  whole : List Char
  fraction : Option (List Char)
  exponent : Option (Bool × List Char)
deriving DecidableEq, Repr

namespace Number

/-- The value of a list of decimal digits. -/
def digitsValue (digits : List Char) : Nat := (Text.readDigits 10 0 digits).getD 0

/-- A number and the digits that could not be appended to it without leaving sixty-four bits. -/
def appendDigits (n : Nat) : List Char → Nat × List Char
  | [] => (n, [])
  | c :: rest =>
    let m := n * 10 + digitsValue [c]
    if m < UInt64.size then appendDigits m rest else (n, c :: rest)

/-- The number without fraction, exponent and sign, if it has none. -/
def toNat? (n : Number) : Option Nat :=
  if n.negative || n.fraction.isSome || n.exponent.isSome then none
  else
    let value := digitsValue n.whole
    if value < UInt64.size then some value else none

/-- `10 ^ k`, rounded. -/
def powerOfTen (k : Nat) : Double := ⟨(Float.ofModel (Float.Model.ofScientific 1 k)).toBits⟩

/-- `x` over `10 ^ k`. Divisors past `10 ^ 308` are not finite, so the division is done in steps. -/
def overPower (x : Double) : Nat → Nat → Double
  | 0, _ => x
  | rounds + 1, k =>
    if k ≤ 308 then x / powerOfTen k
    else if x = Double.zero then x
    else overPower (x / powerOfTen 308) rounds (k - 308)

/-- `significand · 10 ^ exponent`, unless that is past the largest number. -/
def scaled? (significand : Nat) (exponent : Int) : Option Double :=
  let x := Double.ofNat significand
  if exponent < 0 then some (overPower x ((-exponent).toNat / 308 + 1) (-exponent).toNat)
  else if 308 < exponent then
    if significand = 0 then some x else none
  else
    let y := x * powerOfTen exponent.toNat
    if y.isInfinite then none else some y

/-- The binary64 value, if there is one. An exponent that leaves thirty-two bits makes a number
zero or too large. -/
def toDouble? (n : Number) : Option Double :=
  let (front, beyond) := appendDigits 0 n.whole
  let (significand, unread) := appendDigits front (n.fraction.getD [])
  let shift : Int := beyond.length - ((n.fraction.getD []).length - unread.length : Nat)
  let absolute := match n.exponent with
    | none => scaled? significand shift
    | some (negative, digits) =>
      let e := digitsValue digits
      if e < UInt32.size / 2 then scaled? significand (if negative then shift - e else shift + e)
      else if negative || significand = 0 then some .zero
      else none
  absolute.map fun x => if n.negative then -x else x

/-- The binary32 value, if there is one; a number too large for binary32 is infinite. -/
def toSingle? (n : Number) : Option Single :=
  let value := digitsValue n.whole
  if n.fraction.isNone && n.exponent.isNone && !n.negative && value < UInt64.size then
    some (Single.ofNat value)
  else if n.fraction.isNone && n.exponent.isNone && n.negative && 0 < value && value ≤ UInt64.size / 2 then
    some (Single.ofInt (-value))
  else n.toDouble?.map Double.toSingle

end Number

end Skirmish.Json
