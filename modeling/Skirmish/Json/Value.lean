import Skirmish.Json.Number
/-!
# JSON documents

A document is read strictly by the grammar of RFC 8259. Two things are left to whoever uses a value,
since they matter only where it is used: what a number is (`Json.Number`), and whether the escapes
of a string denote a text at all. A string whose escapes leave half of a surrogate pair alone has no
text. Members of an object are kept in order and with repetitions.
-/

namespace Skirmish.Json

/-- A text, or nothing if the escapes of the string do not denote one. -/
abbrev Str := Option String

inductive Value where
  | null
  | bool (b : Bool)
  | number (n : Number)
  | string (s : Str)
  | array (items : List Value)
  | object (members : List (Str × Value))

/-! ## Strings -/

/-- A character as it stands, or a UTF-16 unit given by its number. -/
inductive StringItem where
  | char (c : Char)
  | unit (n : Nat)

def isLeading (n : Nat) : Bool := 0xd800 ≤ n && n < 0xdc00

def isTrailing (n : Nat) : Bool := 0xdc00 ≤ n && n < 0xe000

/-- The characters of a string; surrogates count only in pairs. -/
def textOfItems : List StringItem → Option (List Char)
  | [] => some []
  | .char c :: rest => (textOfItems rest).map (c :: ·)
  | .unit n :: .unit m :: rest =>
    if isLeading n then
      if isTrailing m then
        (textOfItems rest).map
          (Char.ofNat (0x10000 + (n - 0xd800) * 0x400 + (m - 0xdc00)) :: ·)
      else none
    else if isTrailing n then none
    else (textOfItems (.unit m :: rest)).map (Char.ofNat n :: ·)
  | .unit n :: rest =>
    if isLeading n || isTrailing n then none else (textOfItems rest).map (Char.ofNat n :: ·)

/-- The character of a one-letter escape. -/
def escapedChar : Char → Option Char
  | '"' => some '"'
  | '\\' => some '\\'
  | '/' => some '/'
  | 'b' => some '\x08'
  | 'f' => some '\x0c'
  | 'n' => some '\n'
  | 'r' => some '\r'
  | 't' => some '\t'
  | _ => none

/-- The number that four hexadecimal digits write. -/
def unitOfDigits (digits : List Char) : Option Nat := Text.readDigits 16 0 digits

/-- The rest of a string after its opening quote, and what follows the closing one. -/
def readString : List Char → Option (List StringItem × List Char)
  | [] => none
  | '"' :: rest => some ([], rest)
  | '\\' :: 'u' :: a :: b :: c :: d :: rest =>
    match unitOfDigits [a, b, c, d], readString rest with
    | some n, some (items, tail) => some (.unit n :: items, tail)
    | _, _ => none
  | '\\' :: e :: rest =>
    match escapedChar e, readString rest with
    | some c, some (items, tail) => some (.char c :: items, tail)
    | _, _ => none
  | c :: rest =>
    if c.toNat < 0x20 || c == '\\' then none
    else (readString rest).map fun (items, tail) => (.char c :: items, tail)

def strOfItems (items : List StringItem) : Str := (textOfItems items).map String.ofList

/-! ## Numbers -/

def isDigit (c : Char) : Bool := '0' ≤ c && c ≤ '9'

/-- At least one digit, and what follows the digits. -/
def readDigits (text : List Char) : Option (List Char × List Char) :=
  match text.takeWhile isDigit with
  | [] => none
  | digits => some (digits, text.dropWhile isDigit)

/-- Digits without a leading zero, other than zero itself. -/
def readWhole (text : List Char) : Option (List Char × List Char) :=
  match readDigits text with
  | some ('0' :: _ :: _, _) => none
  | r => r

def readFraction : List Char → Option (Option (List Char) × List Char)
  | '.' :: rest => (readDigits rest).map fun (digits, tail) => (some digits, tail)
  | text => some (none, text)

def readSign : List Char → Bool × List Char
  | '-' :: rest => (true, rest)
  | '+' :: rest => (false, rest)
  | text => (false, text)

def readExponent : List Char → Option (Option (Bool × List Char) × List Char)
  | c :: rest =>
    if c == 'e' || c == 'E' then
      (readDigits (readSign rest).2).map fun (digits, tail) =>
        (some ((readSign rest).1, digits), tail)
    else some (none, c :: rest)
  | [] => some (none, [])

def readNumber (text : List Char) : Option (Number × List Char) := do
  let (negative, text) := match text with
    | '-' :: rest => (true, rest)
    | _ => (false, text)
  let (whole, text) ← readWhole text
  let (fraction, text) ← readFraction text
  let (exponent, text) ← readExponent text
  return (⟨negative, whole, fraction, exponent⟩, text)

/-! ## Values -/

def skipSpace (text : List Char) : List Char :=
  text.dropWhile fun c => c == ' ' || c == '\n' || c == '\t' || c == '\r'

/-- A given word, and what follows it. -/
def readWord (word : List Char) (text : List Char) : Option (List Char) :=
  if word.isPrefixOf text then some (text.drop word.length) else none

mutual

/-- A value, and what follows it. A value of `n` characters needs at most `n` rounds. -/
def readValue : Nat → List Char → Option (Value × List Char)
  | 0, _ => none
  | rounds + 1, text =>
    match skipSpace text with
    | 'n' :: rest => (readWord ['u', 'l', 'l'] rest).map fun tail => (.null, tail)
    | 't' :: rest => (readWord ['r', 'u', 'e'] rest).map fun tail => (.bool true, tail)
    | 'f' :: rest => (readWord ['a', 'l', 's', 'e'] rest).map fun tail => (.bool false, tail)
    | '"' :: rest => (readString rest).map fun (items, tail) => (.string (strOfItems items), tail)
    | '[' :: rest =>
      match skipSpace rest with
      | ']' :: tail => some (.array [], tail)
      | text => (readItems rounds text).map fun (items, tail) => (.array items, tail)
    | '\x7b' :: rest =>
      match skipSpace rest with
      | '\x7d' :: tail => some (.object [], tail)
      | text => (readMembers rounds text).map fun (members, tail) => (.object members, tail)
    | text => (readNumber text).map fun (n, tail) => (.number n, tail)

/-- The items of an array up to its end. -/
def readItems : Nat → List Char → Option (List Value × List Char)
  | 0, _ => none
  | rounds + 1, text =>
    match readValue rounds text with
    | none => none
    | some (item, tail) =>
      match skipSpace tail with
      | ']' :: tail => some ([item], tail)
      | ',' :: tail => (readItems rounds tail).map fun (items, tail) => (item :: items, tail)
      | _ => none

/-- The members of an object up to its end. -/
def readMembers : Nat → List Char → Option (List (Str × Value) × List Char)
  | 0, _ => none
  | rounds + 1, text =>
    match skipSpace text with
    | '"' :: text =>
      match readString text with
      | none => none
      | some (key, tail) =>
        match skipSpace tail with
        | ':' :: tail =>
          match readValue rounds tail with
          | none => none
          | some (value, tail) =>
            match skipSpace tail with
            | '\x7d' :: tail => some ([(strOfItems key, value)], tail)
            | ',' :: tail =>
              (readMembers rounds tail).map fun (members, tail) =>
                ((strOfItems key, value) :: members, tail)
            | _ => none
        | _ => none
    | _ => none

end

/-- A document is one value with nothing but space around it. -/
def Value.ofText? (text : String) : Option Value :=
  match readValue (text.toList.length + 1) text.toList with
  | some (value, rest) => if skipSpace rest = [] then some value else none
  | none => none

/-! ## Reading records -/

/-- A field of a record: its name, and how a value is put in its place. -/
structure RecordField (α : Type) where
  name : String
  put : Value → α → Option α

/-- A field that is read by `read?` and stored by `store`. -/
def RecordField.of {α β : Type} (name : String) (read? : Value → Option β) (store : α → β → α) :
    RecordField α :=
  ⟨name, fun v a => (read? v).map (store a)⟩

/-- The members of an object, put into a record one after another. A member that is no field of the
record is passed over, and no field may be given twice. -/
def readObject {α : Type} (fields : List (RecordField α)) :
    List String → α → List (Str × Value) → Option α
  | _, a, [] => some a
  | _, _, (none, _) :: _ => none
  | seen, a, (some key, value) :: rest =>
    match fields.find? (·.name = key) with
    | none => readObject fields seen a rest
    | some field =>
      if key ∈ seen then none
      else (field.put value a).bind fun a => readObject fields (key :: seen) a rest

/-- The items of an array, put into the fields of a record in their order. There may be fewer items
than fields, and not more. -/
def readTuple {α : Type} : List (RecordField α) → α → List Value → Option α
  | _, a, [] => some a
  | [], _, _ :: _ => none
  | field :: fields, a, value :: rest => (field.put value a).bind fun a => readTuple fields a rest

/-- A record with its fields by name or by position; what is not given is as in `default`. -/
def Value.readRecord {α : Type} (fields : List (RecordField α)) (default : α) : Value → Option α
  | .object members => readObject fields [] default members
  | .array items => readTuple fields default items
  | _ => none

def Value.toText? : Value → Option String
  | .string s => s
  | _ => none

/-- A whole number below `bound`. -/
def Value.toNatBelow? (bound : Nat) : Value → Option Nat
  | .number n => n.toNat?.filter (· < bound)
  | _ => none

def Value.toWord8? (v : Value) : Option UInt8 := (v.toNatBelow? UInt8.size).map UInt8.ofNat

def Value.toWord32? (v : Value) : Option UInt32 := (v.toNatBelow? UInt32.size).map UInt32.ofNat

def Value.toWord64? (v : Value) : Option UInt64 := (v.toNatBelow? UInt64.size).map UInt64.ofNat

def Value.toSingle? : Value → Option Single
  | .number n => n.toSingle?
  | _ => none

/-- Nothing for `null`, and otherwise what `read?` makes of the value. -/
def Value.toOptional? {α : Type} (read? : Value → Option α) : Value → Option (Option α)
  | .null => some none
  | v => (read? v).map some

end Skirmish.Json
