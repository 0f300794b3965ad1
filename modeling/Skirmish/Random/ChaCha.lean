import Skirmish.Random.Generator
/-!
# The seeded generator

The words of a seeded generator are the key stream of the ChaCha cipher with twelve rounds, a zero
nonce and a 64-bit block counter that starts at zero. The key is made from a 64-bit seed by eight
steps of a linear congruential generator whose output is permuted.
-/

namespace Skirmish.ChaCha

/-- The sixteen words of a block. -/
abbrev Block := Vector UInt32 16

def rotateLeft (x : UInt32) (k : UInt32) : UInt32 := x <<< k ||| x >>> (32 - k)

/-- Mixes four words of a block. -/
def quarterRound (s : Block) (a b c d : Fin 16) : Block :=
  let s := s.set a (s[a] + s[b])
  let s := s.set d (rotateLeft (s[d] ^^^ s[a]) 16)
  let s := s.set c (s[c] + s[d])
  let s := s.set b (rotateLeft (s[b] ^^^ s[c]) 12)
  let s := s.set a (s[a] + s[b])
  let s := s.set d (rotateLeft (s[d] ^^^ s[a]) 8)
  let s := s.set c (s[c] + s[d])
  s.set b (rotateLeft (s[b] ^^^ s[c]) 7)

/-- The four columns, then the four diagonals. -/
def doubleRound (s : Block) : Block :=
  let s := quarterRound s 0 4 8 12
  let s := quarterRound s 1 5 9 13
  let s := quarterRound s 2 6 10 14
  let s := quarterRound s 3 7 11 15
  let s := quarterRound s 0 5 10 15
  let s := quarterRound s 1 6 11 12
  let s := quarterRound s 2 7 8 13
  quarterRound s 3 4 9 14

/-- A block before it is mixed: the constants, the key, the counter and the nonce. -/
def initial (key : Vector UInt32 8) (counter : UInt64) : Block :=
  #v[0x61707865, 0x3320646e, 0x79622d32, 0x6b206574,
    key[0], key[1], key[2], key[3], key[4], key[5], key[6], key[7],
    counter.toUInt32, (counter >>> 32).toUInt32, 0, 0]

/-- One block of the key stream. -/
def block (key : Vector UInt32 8) (counter : UInt64) : Block :=
  let start := initial key counter
  let mixed := Nat.repeat doubleRound 6 start
  mixed.zipWith (· + ·) start

/-- One step of the congruential generator. -/
def seedStep (state : UInt64) : UInt64 := state * 6364136223846793005 + 11634580027462260723

/-- The word that a state of the congruential generator gives. -/
def seedWord (state : UInt64) : UInt32 :=
  let x := (((state >>> 18) ^^^ state) >>> 27).toUInt32
  let k := (state >>> 59).toUInt32
  x >>> k ||| x <<< ((32 - k) % 32)

/-- The states after one, two, … steps. -/
def seedStates : Nat → UInt64 → List UInt64
  | 0, _ => []
  | n + 1, state => seedStep state :: seedStates n (seedStep state)

/-- The key that a seed stands for. -/
def keyOfSeed (seed : UInt64) : Vector UInt32 8 :=
  let words := (seedStates 8 seed).map seedWord
  Vector.ofFn fun i => words.getD i 0

end Skirmish.ChaCha

namespace Skirmish

/-- The generator of a seed. -/
def Generator.ofSeed (seed : UInt64) : Generator :=
  let key := ChaCha.keyOfSeed seed
  ⟨fun n => (ChaCha.block key (UInt64.ofNat (n / 16)))[n % 16], 0⟩

end Skirmish
