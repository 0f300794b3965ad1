import Skirmish.Text.Character
/-!
# Cutting text into words

`splitOn` cuts a list at every element of a class, so a cut between two lists separates their pieces
(`splitOn_append`). The words of a text are the pieces between blanks that are not empty, so they hold
no blank (`not_isBlank_of_mem_words`), and a blank separates the words before it from those after it
(`words_append`).
-/

namespace Skirmish.Text

/-- The pieces between the elements of a class, one more than there are such elements. -/
def splitOn {α : Type} (isCut : α → Bool) : List α → List (List α)
  | [] => [[]]
  | a :: rest =>
    if isCut a then [] :: splitOn isCut rest
    else match splitOn isCut rest with
      | [] => [[a]]
      | piece :: pieces => (a :: piece) :: pieces

/-- The words of a text, in order. -/
def words (text : List Char) : List (List Char) :=
  (splitOn isBlank text).filter (· ≠ [])

/-- What stands before the first occurrence of a character, and what stands after it. -/
def splitFirst (mark : Char) : List Char → Option (List Char × List Char)
  | [] => none
  | c :: rest =>
    if c = mark then some ([], rest)
    else (splitFirst mark rest).map fun (before, after) => (c :: before, after)

theorem splitOn_ne_nil {α : Type} (isCut : α → Bool) (xs : List α) : splitOn isCut xs ≠ [] := by
  cases xs with
  | nil => simp [splitOn]
  | cons a rest =>
    unfold splitOn
    split
    · simp
    · split <;> simp

/-- A cut between two lists separates their pieces. -/
theorem splitOn_append {α : Type} {isCut : α → Bool} {a : α} (h : isCut a = true) (xs ys : List α) :
    splitOn isCut (xs ++ a :: ys) = splitOn isCut xs ++ splitOn isCut ys := by
  induction xs with
  | nil => simp [splitOn, h]
  | cons x rest ih =>
    simp only [List.cons_append, splitOn, ih]
    split
    · simp
    · cases hs : splitOn isCut rest with
      | nil => exact absurd hs (splitOn_ne_nil _ _)
      | cons piece pieces => simp

/-- What follows belongs to the last piece and those after it. -/
theorem splitOn_append_right {α : Type} (isCut : α → Bool) (xs ys : List α) :
    splitOn isCut (xs ++ ys) = (splitOn isCut xs).dropLast ++
      splitOn isCut ((splitOn isCut xs).getLast?.getD [] ++ ys) := by
  induction xs with
  | nil => rfl
  | cons x rest ih =>
    cases hs : splitOn isCut rest with
    | nil => exact absurd hs (splitOn_ne_nil _ _)
    | cons piece pieces =>
      -- the last piece goes on with what follows, and only the first one can be lengthened by `x`
      rw [hs] at ih
      by_cases hx : isCut x = true
      · rw [List.cons_append, splitOn, if_pos hx, ih, splitOn, if_pos hx, hs]
        rfl
      · rw [List.cons_append, splitOn, if_neg hx, ih, splitOn, if_neg hx, hs]
        cases pieces with
        | nil =>
          show _ = [] ++ splitOn isCut (x :: (piece ++ ys))
          rw [splitOn, if_neg hx]
          rfl
        | cons next more => simp

theorem not_isCut_of_mem_splitOn {α : Type} {isCut : α → Bool} {xs piece : List α}
    (h : piece ∈ splitOn isCut xs) : ∀ a ∈ piece, isCut a = false := by
  induction xs generalizing piece with
  | nil => simp [splitOn] at h; simp [h]
  | cons x rest ih =>
    unfold splitOn at h
    split at h
    · rcases List.mem_cons.mp h with rfl | h
      · simp
      · exact ih h
    · rename_i hx
      -- a character that is no cut joins the first piece of the rest
      cases hs : splitOn isCut rest with
      | nil => exact absurd hs (splitOn_ne_nil _ _)
      | cons p ps =>
        rw [hs] at h ih
        rcases List.mem_cons.mp h with rfl | h
        · intro a ha
          rcases List.mem_cons.mp ha with rfl | ha
          · simpa using hx
          · exact ih List.mem_cons_self a ha
        · exact ih (List.mem_cons_of_mem _ h)

theorem splitOn_of_not_isCut {α : Type} {isCut : α → Bool} {xs : List α}
    (h : ∀ a ∈ xs, isCut a = false) : splitOn isCut xs = [xs] := by
  induction xs with
  | nil => rfl
  | cons x rest ih =>
    have hx : ¬ isCut x = true := by
      rw [h x List.mem_cons_self]
      simp
    rw [splitOn, if_neg hx, ih fun a ha => h a (List.mem_cons_of_mem _ ha)]

/-- A blank ends a word. -/
theorem words_append {c : Char} (h : isBlank c = true) (xs ys : List Char) :
    words (xs ++ c :: ys) = words xs ++ words ys := by
  rw [words, splitOn_append h, List.filter_append, ← words, ← words]

theorem words_of_not_isBlank {word : List Char} (hne : word ≠ [])
    (h : ∀ c ∈ word, isBlank c = false) : words word = [word] := by
  rw [words, splitOn_of_not_isCut h, List.filter_cons_of_pos (by simpa using hne)]
  rfl

theorem not_isBlank_of_mem_words {text word : List Char} (h : word ∈ words text) :
    ∀ c ∈ word, isBlank c = false :=
  not_isCut_of_mem_splitOn (List.mem_filter.mp h).1

theorem splitFirst_eq_some {mark : Char} {text before after : List Char}
    (h : splitFirst mark text = some (before, after)) :
    text = before ++ mark :: after ∧ mark ∉ before := by
  induction text generalizing before with
  | nil => simp [splitFirst] at h
  | cons c rest ih =>
    unfold splitFirst at h
    split at h
    · rename_i hc
      cases h
      simp [hc]
    · rename_i hc
      cases hr : splitFirst mark rest with
      | none => simp [hr] at h
      | some p =>
        simp only [hr, Option.map_some, Option.some.injEq, Prod.mk.injEq] at h
        obtain ⟨rfl, rfl⟩ := h
        obtain ⟨e, hm⟩ := ih hr
        refine ⟨by rw [e]; rfl, ?_⟩
        simpa [Ne.symm hc] using hm

theorem splitFirst_append {mark : Char} {before : List Char} (h : mark ∉ before)
    (after : List Char) : splitFirst mark (before ++ mark :: after) = some (before, after) := by
  induction before with
  | nil => simp [splitFirst]
  | cons c rest ih =>
    rw [List.mem_cons, not_or] at h
    rw [List.cons_append, splitFirst, if_neg (Ne.symm h.1), ih h.2]
    rfl

end Skirmish.Text
