import Skirmish.Text.Character
/-!
# Numerals

Whole numbers written in a base of up to thirty-six. Reading takes digits of either case and one
leading `+`; a `-`, an empty text and a lone sign are refused. Writing uses lower case and the
fewest digits, and in a base of up to sixteen what is written reads back
(`readNumeral_writeNumeral`).
-/

namespace Skirmish.Text

/-- The value of a digit, letters counting on from nine. -/
def digitValue (c : Char) : Option Nat :=
  if '0' ≤ c ∧ c ≤ '9' then some (c.toNat - '0'.toNat)
  else if 'a' ≤ c ∧ c ≤ 'z' then some (c.toNat - 'a'.toNat + 10)
  else if 'A' ≤ c ∧ c ≤ 'Z' then some (c.toNat - 'A'.toNat + 10)
  else none

/-- The digits that follow a number already read, most significant first. -/
def readDigits (base : Nat) (value : Nat) : List Char → Option Nat
  | [] => some value
  | c :: rest =>
    match digitValue c with
    | some d => if d < base then readDigits base (value * base + d) rest else none
    | none => none

/-- A whole number: an optional `+` and at least one digit of the base. -/
def readNumeral (base : Nat) (text : List Char) : Option Nat :=
  let digits := match text with
    | '+' :: rest => rest
    | _ => text
  if digits = [] then none else readDigits base 0 digits

/-- A whole number below `bound`. -/
def readBelow (bound base : Nat) (text : List Char) : Option Nat :=
  (readNumeral base text).filter (· < bound)

/-- The digits of a number, most significant first. -/
def writeNumeral (base n : Nat) : List Char := Nat.toDigits base n

/-- At least `width` digits, zeros standing in front. -/
def writePadded (base width n : Nat) : List Char :=
  let digits := writeNumeral base n
  List.replicate (width - digits.length) '0' ++ digits

/-! ## What is written reads back -/

theorem digitValue_digitChar : ∀ d < 16, digitValue (Nat.digitChar d) = some d := by decide

theorem readDigits_append (base value : Nat) (xs ys : List Char) :
    readDigits base value (xs ++ ys) =
      (readDigits base value xs).bind fun value => readDigits base value ys := by
  induction xs generalizing value with
  | nil => rfl
  | cons c rest ih =>
    rw [List.cons_append, readDigits, readDigits]
    split
    · split
      · exact ih _
      · rfl
    · rfl

theorem readDigits_writeNumeral {base : Nat} (h : 1 < base) (h' : base ≤ 16) (n : Nat) :
    readDigits base 0 (writeNumeral base n) = some n := by
  -- the last digit is the rest of a division, and the others are written of the quotient
  have hone : ∀ value d, d < base → readDigits base value [Nat.digitChar d] = some (value * base + d) := by
    intro value d hd
    simp only [readDigits, digitValue_digitChar d (by omega), if_pos hd]
  induction n using Nat.strongRecOn with
  | ind n ih =>
    unfold writeNumeral at ih ⊢
    by_cases hn : n < base
    · rw [Nat.toDigits_of_lt_base hn, hone 0 n hn, Nat.zero_mul, Nat.zero_add]
    · rw [Nat.toDigits_of_base_le h (by omega), readDigits_append,
        ih (n / base) (Nat.div_lt_self (by omega) h), Option.bind_some,
        hone _ _ (Nat.mod_lt n (by omega)), Nat.div_add_mod']

theorem readNumeral_of_readDigits {base n : Nat} {text : List Char} (hne : text ≠ [])
    (h : readDigits base 0 text = some n) : readNumeral base text = some n := by
  unfold readNumeral
  dsimp only
  split
  · -- a sign is no digit
    cases h
  · rw [if_neg hne, h]

theorem readNumeral_writeNumeral {base : Nat} (h : 1 < base) (h' : base ≤ 16) (n : Nat) :
    readNumeral base (writeNumeral base n) = some n :=
  readNumeral_of_readDigits Nat.toDigits_ne_nil (readDigits_writeNumeral h h' n)

theorem readBelow_writeNumeral {bound base n : Nat} (h : 1 < base) (h' : base ≤ 16)
    (hn : n < bound) : readBelow bound base (writeNumeral base n) = some n := by
  rw [readBelow, readNumeral_writeNumeral h h']
  simp [hn]

/-- Digits are no blanks. -/
theorem not_isBlank_of_mem_writeNumeral {base n : Nat} (h : 1 < base) (h' : base ≤ 16) :
    ∀ c ∈ writeNumeral base n, isBlank c = false := by
  have hdigit : ∀ d < 16, isBlank (Nat.digitChar d) = false := by decide
  induction n using Nat.strongRecOn with
  | ind n ih =>
    unfold writeNumeral at ih ⊢
    intro c hc
    by_cases hn : n < base
    · rw [Nat.toDigits_of_lt_base hn, List.mem_singleton] at hc
      rw [hc]
      exact hdigit n (by omega)
    · rw [Nat.toDigits_of_base_le h (by omega), List.mem_append, List.mem_singleton] at hc
      have hmod := Nat.mod_lt n (show 0 < base by omega)
      rcases hc with hc | rfl
      · exact ih _ (Nat.div_lt_self (by omega) h) c hc
      · exact hdigit _ (by omega)

end Skirmish.Text
