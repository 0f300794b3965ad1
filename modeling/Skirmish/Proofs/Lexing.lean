import Mathlib.Data.Nat.Digits.Defs
import Skirmish.Text.Numeral
import Skirmish.Text.Word
/-!
# What words and numerals are

The library cuts a text into words with a function, and reads a number with another. Here both are
described by how the text is built up, with no function in sight: words with gaps of blanks between
them (`Spaced`), digits by their place values behind an optional sign (`IsNumeral`). Each function
finds exactly what the description allows, so a text has the words it is spaced into and no others
(`words_eq_iff`, `readNumeral_eq_some_iff`).
-/

namespace Skirmish.Text

/-! ## Words -/

def IsBlankText (text : List Char) : Prop := ∀ c ∈ text, isBlank c = true

/-- A list of words and a text that has them: a gap before each word, which may only be empty
before the first, and a gap at the end. -/
inductive Spaced : List (List Char) → List Char → Prop where
  | done {gap : List Char} : IsBlankText gap → Spaced [] gap
  | word {gap word rest : List Char} {words : List (List Char)} :
    IsBlankText gap → word ≠ [] → (∀ c ∈ word, isBlank c = false) →
    (∀ c ∈ rest.head?, isBlank c = true) → Spaced words rest →
    Spaced (word :: words) (gap ++ (word ++ rest))

theorem words_blank_append {gap : List Char} (h : IsBlankText gap) (text : List Char) :
    words (gap ++ text) = words text := by
  induction gap with
  | nil => rfl
  | cons c rest ih =>
    have hc : words (c :: (rest ++ text)) = words [] ++ words (rest ++ text) :=
      words_append (h c List.mem_cons_self) [] (rest ++ text)
    rw [List.cons_append, hc, ih fun c hc => h c (List.mem_cons_of_mem _ hc)]
    rfl

theorem words_word_append {word rest : List Char} (hne : word ≠ [])
    (h : ∀ c ∈ word, isBlank c = false) (hrest : ∀ c ∈ rest.head?, isBlank c = true) :
    words (word ++ rest) = word :: words rest := by
  cases rest with
  | nil =>
    rw [List.append_nil, words_of_not_isBlank hne h]
    rfl
  | cons c rest =>
    have hc := hrest c rfl
    have hgap : IsBlankText [c] := by simpa [IsBlankText] using hc
    rw [words_append hc, words_of_not_isBlank hne h, ← words_blank_append hgap rest]
    rfl

theorem Spaced.words_eq {ws : List (List Char)} {text : List Char} (h : Spaced ws text) :
    words text = ws := by
  induction h with
  | @done gap hgap =>
    rw [← List.append_nil gap, words_blank_append hgap]
    rfl
  | word hgap hne hword hrest _ ih =>
    rw [words_blank_append hgap, words_word_append hne hword hrest, ih]

/-- One more character in front is a blank, the start of the first word, or a word of its own. -/
theorem Spaced.exists_cons {ws : List (List Char)} {text : List Char} (h : Spaced ws text)
    (c : Char) : ∃ ws, Spaced ws (c :: text) := by
  have hgrow : ∀ {gap : List Char}, IsBlankText gap → isBlank c = true → IsBlankText (c :: gap) :=
    fun hgap hc => List.forall_mem_cons.mpr ⟨hc, hgap⟩
  have halone : isBlank c = false → ∀ a ∈ [c], isBlank a = false := by
    intro hc a ha
    rwa [List.mem_singleton.mp ha]
  -- one more character in front widens the gap, begins a word of its own or lengthens the first
  -- word
  cases hc : isBlank c with
  | true =>
    cases h with
    | done hgap => exact ⟨[], .done (hgrow hgap hc)⟩
    | word hgap hne hword hrest h => exact ⟨_, .word (hgrow hgap hc) hne hword hrest h⟩
  | false =>
    have hnone : IsBlankText [] := fun a ha => absurd ha List.not_mem_nil
    cases h with
    | done hgap =>
      refine ⟨[[c]], .word hnone (List.cons_ne_nil _ _) (halone hc) ?_ (.done hgap)⟩
      exact fun a ha => hgap a (List.mem_of_mem_head? ha)
    | @word gap word rest ws hgap hne hword hrest h =>
      cases gap with
      | nil =>
        exact ⟨(c :: word) :: ws, .word hnone (List.cons_ne_nil _ _)
          (List.forall_mem_cons.mpr ⟨hc, hword⟩) hrest h⟩
      | cons g gap =>
        refine ⟨[c] :: word :: ws, .word hnone (List.cons_ne_nil _ _) (halone hc) ?_
          (.word hgap hne hword hrest h)⟩
        intro a ha
        obtain rfl : g = a := Option.some.inj ha
        exact hgap g List.mem_cons_self

theorem exists_spaced (text : List Char) : ∃ ws, Spaced ws text := by
  induction text with
  | nil => exact ⟨[], .done fun a ha => absurd ha List.not_mem_nil⟩
  | cons c rest ih =>
    obtain ⟨ws, h⟩ := ih
    exact h.exists_cons c

/-- **The words of a text are the only ones it is spaced into.** -/
theorem words_eq_iff {ws : List (List Char)} {text : List Char} :
    words text = ws ↔ Spaced ws text := by
  refine ⟨fun h => ?_, Spaced.words_eq⟩
  obtain ⟨ws', h'⟩ := exists_spaced text
  rwa [← h, h'.words_eq]

theorem words_eq_nil_iff {text : List Char} : words text = [] ↔ IsBlankText text := by
  refine ⟨fun h => ?_, fun h => words_eq_iff.mpr (.done h)⟩
  cases words_eq_iff.mp h with
  | done hgap => exact hgap

/-- Where a character first stands is the only place where a text can be cut at it. -/
theorem splitFirst_eq_some_iff {mark : Char} {text before after : List Char} :
    splitFirst mark text = some (before, after) ↔
      text = before ++ mark :: after ∧ mark ∉ before := by
  refine ⟨splitFirst_eq_some, fun ⟨htext, hbefore⟩ => ?_⟩
  rw [htext, splitFirst_append hbefore]

/-! ## Numerals -/

/-- A numeral and what it comes to: digits of the base, at least one, by their place values; a `+`
may stand in front. -/
def IsNumeral (base : Nat) (text : List Char) (n : Nat) : Prop :=
  ∃ digits : List Nat, digits ≠ [] ∧ (∀ d ∈ digits, d < base) ∧
    n = Nat.ofDigits base digits.reverse ∧
    ∃ body, (text = body ∨ text = '+' :: body) ∧ body.map digitValue = digits.map some

theorem readDigits_eq_some_iff {base value n : Nat} {text : List Char} :
    readDigits base value text = some n ↔
      ∃ digits : List Nat, text.map digitValue = digits.map some ∧ (∀ d ∈ digits, d < base) ∧
        n = digits.foldl (fun value d => value * base + d) value := by
  -- along the text, for every value so far, since the digits read are folded from the left
  induction text generalizing value with
  | nil =>
    refine ⟨fun h => ⟨[], rfl, by simp, (Option.some.inj h).symm⟩, fun h => ?_⟩
    obtain ⟨digits, hmap, -, hn⟩ := h
    obtain rfl := List.map_eq_nil_iff.mp hmap.symm
    rw [hn]
    rfl
  | cons c rest ih =>
    rw [readDigits]
    refine ⟨fun h => ?_, fun h => ?_⟩
    · split at h
      · rename_i d hd
        split at h
        · rename_i hlt
          obtain ⟨digits, hmap, hall, hn⟩ := ih.mp h
          exact ⟨d :: digits, by simp [hd, hmap], List.forall_mem_cons.mpr ⟨hlt, hall⟩, hn⟩
        · cases h
      · cases h
    · obtain ⟨digits, hmap, hall, hn⟩ := h
      cases digits with
      | nil => simp at hmap
      | cons d digits =>
        rw [List.map_cons, List.map_cons, List.cons.injEq] at hmap
        -- the first digit may be read, so the reader goes on to the rest
        obtain ⟨hlt, hall⟩ := List.forall_mem_cons.mp hall
        rw [hmap.1]
        simp only [if_pos hlt]
        exact ih.mpr ⟨digits, hmap.2, hall, hn⟩

/-- Reading from the most significant digit on sums up the place values. -/
theorem foldl_eq_ofDigits (base : Nat) (digits : List Nat) :
    digits.foldl (fun value d => value * base + d) 0 = Nat.ofDigits base digits.reverse := by
  rw [Nat.ofDigits_eq_foldr, List.foldr_reverse]
  congr 1
  funext value d
  simp only [Nat.cast_id]
  rw [Nat.mul_comm, Nat.add_comm]

/-- The digits behind the sign, if there is one. -/
theorem readNumeral_eq_some_iff_body {base n : Nat} {text : List Char} :
    readNumeral base text = some n ↔
      ∃ body, (text = body ∨ text = '+' :: body) ∧ body ≠ [] ∧
        readDigits base 0 body = some n := by
  -- a sign is no digit, so a text begins with one sign at most
  have hsign : ∀ rest, readDigits base 0 ('+' :: rest) = none := fun rest => rfl
  unfold readNumeral
  dsimp only
  split
  · rename_i rest
    refine ⟨fun h => ?_, fun ⟨body, htext, hne, h⟩ => ?_⟩
    · split at h
      · cases h
      · rename_i hne
        exact ⟨rest, .inr rfl, hne, h⟩
    · rcases htext with rfl | htext
      · rw [hsign] at h
        cases h
      · obtain rfl := (List.cons.inj htext).2
        rw [if_neg hne, h]
  · rename_i hplain
    refine ⟨fun h => ?_, fun ⟨body, htext, hne, h⟩ => ?_⟩
    · split at h
      · cases h
      · rename_i hne
        exact ⟨text, .inl rfl, hne, h⟩
    · rcases htext with rfl | rfl
      · rw [if_neg hne, h]
      · exact absurd rfl (hplain body)

/-- **A numeral is read as what it comes to, and nothing else is read.** -/
theorem readNumeral_eq_some_iff {base n : Nat} {text : List Char} :
    readNumeral base text = some n ↔ IsNumeral base text n := by
  have hne : ∀ {body : List Char} {digits : List Nat}, body.map digitValue = digits.map some →
      (body = [] ↔ digits = []) := by
    intro body digits hmap
    rw [← List.map_eq_nil_iff (f := digitValue), hmap, List.map_eq_nil_iff]
  rw [readNumeral_eq_some_iff_body]
  refine ⟨fun ⟨body, htext, hbody, h⟩ => ?_, fun ⟨digits, hdigits, hall, hn, body, htext, hmap⟩ => ?_⟩
  · obtain ⟨digits, hmap, hall, hn⟩ := readDigits_eq_some_iff.mp h
    rw [foldl_eq_ofDigits] at hn
    exact ⟨digits, fun h => hbody ((hne hmap).mpr h), hall, hn, body, htext, hmap⟩
  · rw [← foldl_eq_ofDigits] at hn
    exact ⟨body, htext, fun h => hdigits ((hne hmap).mp h),
      readDigits_eq_some_iff.mpr ⟨digits, hmap, hall, hn⟩⟩

theorem readBelow_eq_some_iff {bound base n : Nat} {text : List Char} :
    readBelow bound base text = some n ↔ IsNumeral base text n ∧ n < bound := by
  rw [readBelow, Option.filter_eq_some_iff, readNumeral_eq_some_iff, decide_eq_true_eq]

end Skirmish.Text
