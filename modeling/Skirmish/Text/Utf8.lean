/-!
# UTF-8

Bytes are read one at a time by a machine that knows which bytes may come next. It cuts a list of
bytes into pieces: characters, and faults, a fault being the longest run that begins a character and
cannot be finished. Both readings follow from the pieces: the strict one refuses every fault, the
lenient one writes U+FFFD for each.

Text is cut to a number of bytes by whole characters only (`fitting`).
-/

namespace Skirmish.Utf8

/-- The bytes of a text. -/
def encode (text : List Char) : List UInt8 := text.flatMap String.utf8EncodeChar

/-- A character of which some bytes have been read. -/
structure Partial where
  /-- The bytes so far, in order. -/
  seen : List UInt8
  /-- The bits of the code point so far. -/
  code : Nat
  /-- How many bytes follow the next one. -/
  owed : Nat
  /-- The least and the greatest byte that may come next. -/
  low : UInt8
  high : UInt8
deriving DecidableEq, Repr

/-- What a byte begins when it stands first. -/
inductive Opening where
  | single (c : Char)
  | several (p : Partial)
  | refused
deriving DecidableEq, Repr

/-- The first bytes of the well-formed sequences. The second byte of some is restricted, so that no
character has two forms and no surrogate or number past U+10FFFF has one. -/
def opening (b : UInt8) : Opening :=
  let n := b.toNat
  if n < 0x80 then .single (Char.ofNat n)
  else if n < 0xc2 then .refused
  else if n < 0xe0 then .several ⟨[b], n % 0x20, 0, 0x80, 0xbf⟩
  else if n = 0xe0 then .several ⟨[b], n % 0x10, 1, 0xa0, 0xbf⟩
  else if n = 0xed then .several ⟨[b], n % 0x10, 1, 0x80, 0x9f⟩
  else if n < 0xf0 then .several ⟨[b], n % 0x10, 1, 0x80, 0xbf⟩
  else if n = 0xf0 then .several ⟨[b], n % 0x08, 2, 0x90, 0xbf⟩
  else if n < 0xf4 then .several ⟨[b], n % 0x08, 2, 0x80, 0xbf⟩
  else if n = 0xf4 then .several ⟨[b], n % 0x08, 2, 0x80, 0x8f⟩
  else .refused

/-- A cut of a list of bytes. -/
inductive Piece where
  | char (c : Char)
  | fault (bytes : List UInt8)
deriving DecidableEq, Repr

/-- The pieces of the bytes that follow an open character, or of all bytes if there is none. -/
def piecesFrom : Option Partial → List UInt8 → List Piece
  | none, [] => []
  | some p, [] => [.fault p.seen]
  | none, b :: rest =>
    match opening b with
    | .single c => .char c :: piecesFrom none rest
    | .several p => piecesFrom (some p) rest
    | .refused => .fault [b] :: piecesFrom none rest
  | some p, b :: rest =>
    if p.low ≤ b ∧ b ≤ p.high then
      let code := p.code * 64 + b.toNat % 64
      match p.owed with
      | 0 => .char (Char.ofNat code) :: piecesFrom none rest
      | owed + 1 => piecesFrom (some ⟨p.seen ++ [b], code, owed, 0x80, 0xbf⟩) rest
    else
      -- the byte that does not fit is read once more, as a first byte
      .fault p.seen :: match opening b with
        | .single c => .char c :: piecesFrom none rest
        | .several q => piecesFrom (some q) rest
        | .refused => .fault [b] :: piecesFrom none rest

def pieces (bytes : List UInt8) : List Piece := piecesFrom none bytes

/-- The text that the bytes encode, if they encode one. -/
def decode? (bytes : List UInt8) : Option (List Char) :=
  (pieces bytes).mapM fun
    | .char c => some c
    | .fault _ => none

/-- The character that stands for what cannot be read. -/
def replacement : Char := '\uFFFD'

/-- The text with one replacement character for each fault. -/
def decodeLenient (bytes : List UInt8) : List Char :=
  (pieces bytes).map fun
    | .char c => c
    | .fault _ => replacement

/-- The longest prefix of whole characters that takes up at most `room` bytes. -/
def fitting (room : Nat) : List Char → List Char
  | [] => []
  | c :: rest => if c.utf8Size ≤ room then c :: fitting (room - c.utf8Size) rest else []

theorem fitting_prefix (room : Nat) (text : List Char) : fitting room text <+: text := by
  induction text generalizing room with
  | nil => exact List.prefix_rfl
  | cons c rest ih =>
    unfold fitting
    split
    · exact List.cons_prefix_cons.mpr ⟨rfl, ih _⟩
    · exact List.nil_prefix

theorem length_encode (text : List Char) :
    (encode text).length = text.foldr (fun c n => c.utf8Size + n) 0 := by
  induction text with
  | nil => rfl
  | cons c rest ih =>
    rw [encode, List.flatMap_cons, List.length_append, ← encode, ih]
    simp

theorem length_encode_fitting (room : Nat) (text : List Char) :
    (encode (fitting room text)).length ≤ room := by
  rw [length_encode]
  induction text generalizing room with
  | nil => simp [fitting]
  | cons c rest ih =>
    unfold fitting
    split
    · have := ih (room - c.utf8Size)
      simp only [List.foldr_cons]
      omega
    · simp

end Skirmish.Utf8
