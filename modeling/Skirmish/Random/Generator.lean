/-!
# Random words

A generator is an endless stream of 32-bit words and the number of words that have been drawn from
it. What is drawn next depends on that number alone, so a stream can be anything: the key stream of
a cipher, a list that repeats, or an arbitrary function.

A search for a word with a property looks at finitely many words (`Generator.find?`); it finds the
first word of that kind if there is one so near (`find?_eq_some_iff`).
-/

namespace Skirmish

structure Generator where
  word : Nat → UInt32
  drawn : Nat

namespace Generator

/-- The given words over and over, or zeros if there are none. -/
def cycle (words : List UInt32) : Generator :=
  ⟨fun n => words.getD (n % words.length) 0, 0⟩

/-- The word that is drawn next. -/
def peek (g : Generator) : UInt32 := g.word g.drawn

/-- The generator after `count` more words. -/
def advance (g : Generator) (count : Nat) : Generator := { g with drawn := g.drawn + count }

def next (g : Generator) : UInt32 × Generator := (g.peek, g.advance 1)

/-- How many words a search looks at before it gives up. -/
def patience : Nat := 65536

/-- The first of the next `limit` words that is accepted, and the generator after it. -/
def find? (accept : UInt32 → Bool) : Nat → Generator → Option (UInt32 × Generator)
  | 0, _ => none
  | limit + 1, g => if accept g.peek then some g.next else find? accept limit (g.advance 1)

@[simp]
theorem advance_zero (g : Generator) : g.advance 0 = g := rfl

theorem advance_advance (g : Generator) (m n : Nat) :
    (g.advance m).advance n = g.advance (m + n) := by
  simp [advance, Nat.add_assoc]

/-- A search finds the first accepted word; every word before it was looked at and passed over. -/
theorem find?_eq_some_iff {accept : UInt32 → Bool} {limit : Nat} {g : Generator}
    {r : UInt32 × Generator} :
    find? accept limit g = some r ↔
      ∃ n < limit, accept (g.word (g.drawn + n)) = true ∧
        (∀ m < n, accept (g.word (g.drawn + m)) = false) ∧
        r = (g.word (g.drawn + n), g.advance (n + 1)) := by
  induction limit generalizing g with
  | zero => simp [find?]
  | succ limit ih =>
    have hdrawn : ∀ n, (g.advance 1).drawn + n = g.drawn + (n + 1) := fun n => by
      simp only [advance]
      omega
    have hadvance : ∀ n, (g.advance 1).advance (n + 1) = g.advance (n + 1 + 1) := fun n => by
      rw [advance_advance, Nat.add_comm]
    have hword : (g.advance 1).word = g.word := rfl
    unfold find?
    by_cases h : accept g.peek = true
    · simp only [h, if_true, Option.some.injEq]
      constructor
      · rintro rfl
        exact ⟨0, by omega, h, by omega, rfl⟩
      · rintro ⟨n, hn, ha, hb, rfl⟩
        -- a word in front of the accepted one would have been accepted at once
        rcases Nat.eq_zero_or_pos n with rfl | hpos
        · rfl
        · exact absurd (hb 0 hpos) (by simpa [peek] using h)
    · -- the first word is passed over, so all places are shifted by one
      have hpeek : accept (g.word g.drawn) = false := by simpa [peek] using h
      simp only [h, ih, Bool.false_eq_true, if_false, hdrawn, hadvance, hword]
      constructor
      · rintro ⟨n, hn, ha, hb, rfl⟩
        refine ⟨n + 1, by omega, ha, fun m hm => ?_, rfl⟩
        rcases m with _ | m
        · exact hpeek
        · exact hb m (by omega)
      · rintro ⟨n, hn, ha, hb, rfl⟩
        rcases n with _ | n
        · exact absurd ha (by simp [hpeek])
        · exact ⟨n, by omega, ha, fun m hm => hb (m + 1) (by omega), rfl⟩

end Generator

end Skirmish
