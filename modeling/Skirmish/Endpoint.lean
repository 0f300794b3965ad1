import Skirmish.Text.Numeral
/-!
# Endpoints

Where datagrams come from and go to: a host of either version of the protocol and a port. The text
of an endpoint is `127.0.0.1:7001` or `[::1]:6000`. The longest run of at least two zero groups of a
host is written `::`, the first of two as long; a host that stands for one of the older version
keeps its dots.
-/

namespace Skirmish

inductive Host where
  | v4 (octets : Vector UInt8 4)
  /-- The groups, and the interface that the host is reached by, zero for any. -/
  | v6 (groups : Vector UInt16 8) (scope : UInt32)
deriving DecidableEq, Repr

structure Endpoint where
  host : Host
  port : UInt16
deriving DecidableEq, Repr

namespace Endpoint

/-! ## Reading

A reader takes its text from the front and gives what follows it. -/

abbrev Reader (α : Type) := List Char → Option (α × List Char)

/-- The digits in front, as their values. -/
def digitsOf (base : Nat) : List Char → List Nat × List Char
  | [] => ([], [])
  | c :: rest =>
    match (Text.digitValue c).filter (· < base) with
    | some d => (d :: (digitsOf base rest).1, (digitsOf base rest).2)
    | none => ([], c :: rest)

/-- A number below `bound`, of at most `width` digits. -/
def number (base bound width : Nat) : Reader Nat := fun text =>
  let (digits, rest) := digitsOf base text
  let value := digits.foldl (fun n d => n * base + d) 0
  if digits = [] ∨ width < digits.length ∨ bound ≤ value then none else some (value, rest)

/-- A number that can have any length. -/
def anyNumber (base bound : Nat) : Reader Nat := fun text => number base bound text.length text

/-- One character. -/
def mark (c : Char) : Reader Unit
  | [] => none
  | d :: rest => if d = c then some ((), rest) else none

/-- The item that stands behind a mark, or in front of all marks. -/
def separated {α : Type} (c : Char) (first : Bool) (item : Reader α) : Reader α := fun text =>
  if first then item text else (mark c text).bind fun (_, rest) => item rest

/-- A number below 256 without a needless zero. -/
def octet : Reader UInt8 := fun text =>
  match number 10 256 3 text with
  | some (n, rest) =>
    if text.head? = some '0' ∧ text.length ≠ rest.length + 1 then none
    else some (UInt8.ofNat n, rest)
  | none => none

def quad : Reader (Vector UInt8 4) := fun text => do
  let (a, text) ← octet text
  let (b, text) ← separated '.' false octet text
  let (c, text) ← separated '.' false octet text
  let (d, text) ← separated '.' false octet text
  return (#v[a, b, c, d], text)

/-- Two octets as one group. -/
def group (high low : UInt8) : UInt16 := high.toUInt16 <<< 8 ||| low.toUInt16

/-- At most `room` groups. The last two can be written as four octets; the flag says so. -/
def groups : (room : Nat) → (first : Bool) → List Char → (List UInt16 × Bool) × List Char
  | 0, _, text => (([], false), text)
  | room + 1, first, text =>
    match if 1 ≤ room then separated ':' first quad text else none with
    | some (q, rest) => (([group q[0] q[1], group q[2] q[3]], true), rest)
    | none =>
      match separated ':' first (number 16 0x10000 4) text with
      | none => (([], false), text)
      | some (n, rest) =>
        let ((more, dotted), rest) := groups room false rest
        ((UInt16.ofNat n :: more, dotted), rest)

/-- Eight groups, with one run of zeros left out at most. -/
def sixteenBytes : Reader (Vector UInt16 8) := fun text => do
  let ((front, dotted), text) := groups 8 true text
  let fill := fun (gs : List UInt16) => Vector.ofFn fun (i : Fin 8) => gs.getD i 0
  if front.length = 8 then return (fill front, text)
  if dotted then none
  let (_, text) ← mark ':' text
  let (_, text) ← mark ':' text
  -- a gap stands for one group at least
  let ((back, _), text) := groups (7 - front.length) true text
  return (fill (front ++ List.replicate (8 - front.length - back.length) 0 ++ back), text)

def portNumber : Reader UInt16 := fun text => do
  let (_, text) ← mark ':' text
  let (n, text) ← anyNumber 10 0x10000 text
  return (UInt16.ofNat n, text)

/-- The interface of a host, zero if none is named. -/
def scope (text : List Char) : UInt32 × List Char :=
  match (mark '%' text).bind fun (_, rest) => anyNumber 10 0x100000000 rest with
  | some (n, rest) => (UInt32.ofNat n, rest)
  | none => (0, text)

def endpoint4 : Reader Endpoint := fun text => do
  let (q, text) ← quad text
  let (p, text) ← portNumber text
  return (⟨.v4 q, p⟩, text)

def endpoint6 : Reader Endpoint := fun text => do
  let (_, text) ← mark '[' text
  let (gs, text) ← sixteenBytes text
  let (s, text) := scope text
  let (_, text) ← mark ']' text
  let (p, text) ← portNumber text
  return (⟨.v6 gs s, p⟩, text)

/-- The endpoint that a text names. -/
def ofText? (text : String) : Option Endpoint :=
  match (endpoint4 text.toList).orElse fun _ => endpoint6 text.toList with
  | some (e, []) => some e
  | _ => none

/-! ## Writing -/

def quadText (q : Vector UInt8 4) : String :=
  ".".intercalate (q.toList.map fun o => toString o.toNat)

def groupsText (gs : List UInt16) : String :=
  ":".intercalate (gs.map fun g => String.ofList (Text.writeNumeral 16 g.toNat))

/-- How many zeros stand in front. -/
def zeroRun (gs : List UInt16) : Nat := (gs.takeWhile (· == 0)).length

/-- The first of the longest runs of zeros: where it starts and how long it is. -/
def longestZeros (gs : List UInt16) : Nat × Nat :=
  (List.range gs.length).foldl (fun best start =>
    let run := zeroRun (gs.drop start)
    if best.2 < run then (start, run) else best) (0, 0)

def sixteenBytesText (v : Vector UInt16 8) : String :=
  let gs := v.toList
  if gs.take 6 = [0, 0, 0, 0, 0, 0xffff] then
    let a := gs.getD 6 0
    let b := gs.getD 7 0
    "::ffff:" ++ quadText #v[(a >>> 8).toUInt8, a.toUInt8, (b >>> 8).toUInt8, b.toUInt8]
  else
    let (start, run) := longestZeros gs
    if 1 < run then groupsText (gs.take start) ++ "::" ++ groupsText (gs.drop (start + run))
    else groupsText gs

def toText (e : Endpoint) : String :=
  let tail := ":" ++ toString e.port.toNat
  match e.host with
  | .v4 q => quadText q ++ tail
  | .v6 gs scope =>
    let named := if scope = 0 then "" else "%" ++ toString scope.toNat
    "[" ++ sixteenBytesText gs ++ named ++ "]" ++ tail

end Endpoint

end Skirmish
