import Skirmish.Number.Single
/-!
# Byte layouts

A layout describes a value of fixed width once, and both its writer and its reader follow from the
description. A layout is *lawful* when the two agree in both directions: what was written reads back
whatever follows it, and whatever can be read is what would have been written. Words stand with
their least significant byte first and no padding.
-/

namespace Skirmish.Wire

/-- How values of a type stand in bytes. Reading gives the value and the bytes that follow it. -/
structure Layout (α : Type) where
  width : Nat
  write : α → List UInt8
  read : List UInt8 → Option (α × List UInt8)

/-- Writer, reader and width describe the same format. -/
structure Layout.Lawful {α : Type} (l : Layout α) : Prop where
  length_write : ∀ a, (l.write a).length = l.width
  read_write : ∀ a rest, l.read (l.write a ++ rest) = some (a, rest)
  write_of_read : ∀ {bytes a rest}, l.read bytes = some (a, rest) → bytes = l.write a ++ rest
  read_isSome : ∀ {bytes}, l.width ≤ bytes.length → (l.read bytes).isSome

namespace Layout

variable {α β : Type}

def byte : Layout UInt8 where
  width := 1
  write b := [b]
  read
    | b :: rest => some (b, rest)
    | [] => none

/-- One value after another. -/
def pair (l : Layout α) (m : Layout β) : Layout (α × β) where
  width := l.width + m.width
  write p := l.write p.1 ++ m.write p.2
  read bytes :=
    match l.read bytes with
    | none => none
    | some (a, rest) => (m.read rest).map fun (b, rest) => ((a, b), rest)

/-- The same bytes for another type with the same values. -/
def via (l : Layout α) (pack : α → β) (unpack : β → α) : Layout β where
  width := l.width
  write b := l.write (unpack b)
  read bytes := (l.read bytes).map fun (a, rest) => (pack a, rest)

/-- As many values as the list says when writing, and `count` of them when reading. -/
def readMany (l : Layout α) : Nat → List UInt8 → Option (List α × List UInt8)
  | 0, bytes => some ([], bytes)
  | count + 1, bytes =>
    match l.read bytes with
    | none => none
    | some (a, rest) => (l.readMany count rest).map fun (as, rest) => (a :: as, rest)

/-- The value that fills the bytes exactly. -/
def readAll (l : Layout α) (bytes : List UInt8) : Option α :=
  match l.read bytes with
  | some (a, []) => some a
  | _ => none

/-! ## Words -/

def word16 : Layout UInt16 :=
  (byte.pair byte).via (fun (a, b) => a.toUInt16 ||| b.toUInt16 <<< 8)
    fun w => (w.toUInt8, (w >>> 8).toUInt8)

def word32 : Layout UInt32 :=
  (byte.pair (byte.pair (byte.pair byte))).via
    (fun (a, b, c, d) =>
      a.toUInt32 ||| b.toUInt32 <<< 8 ||| c.toUInt32 <<< 16 ||| d.toUInt32 <<< 24)
    fun w => (w.toUInt8, (w >>> 8).toUInt8, (w >>> 16).toUInt8, (w >>> 24).toUInt8)

/-- A byte in two's complement. -/
def signed8 : Layout Int8 := byte.via UInt8.toInt8 Int8.toUInt8

/-- A number by its bit pattern, whatever it is. -/
def single : Layout Single := word32.via Single.mk Single.bits

/-! ## The laws -/

theorem lawful_byte : byte.Lawful where
  length_write _ := rfl
  read_write _ _ := rfl
  write_of_read {bytes a rest} h := by
    cases bytes with
    | nil => cases h
    | cons b bs => cases h; rfl
  read_isSome {bytes} h := by
    cases bytes with
    | nil => exact absurd h (by simp [byte])
    | cons b bs => rfl

theorem Lawful.pair {l : Layout α} {m : Layout β} (hl : l.Lawful) (hm : m.Lawful) :
    (l.pair m).Lawful where
  length_write p := by simp [Layout.pair, hl.length_write, hm.length_write]
  read_write p rest := by
    simp [Layout.pair, List.append_assoc, hl.read_write, hm.read_write]
  write_of_read {bytes p rest} h := by
    simp only [Layout.pair] at h
    split at h
    · cases h
    · rename_i a tail ha
      obtain ⟨⟨b, tail'⟩, hb, e⟩ := Option.map_eq_some_iff.mp h
      cases e
      rw [hl.write_of_read ha, hm.write_of_read hb, Layout.pair, List.append_assoc]
  read_isSome {bytes} h := by
    simp only [Layout.pair] at h ⊢
    -- what the first layout has left is just long enough for the second
    have hsome : (l.read bytes).isSome := hl.read_isSome (by omega)
    obtain ⟨⟨a, tail⟩, ha⟩ := Option.isSome_iff_exists.mp hsome
    have hlen := congrArg List.length (hl.write_of_read ha)
    rw [List.length_append, hl.length_write] at hlen
    rw [ha]
    have htail : (m.read tail).isSome := hm.read_isSome (by omega)
    simpa using htail

theorem Lawful.via {l : Layout α} (hl : l.Lawful) {pack : α → β} {unpack : β → α}
    (h : ∀ b, pack (unpack b) = b) (h' : ∀ a, unpack (pack a) = a) :
    (l.via pack unpack).Lawful where
  length_write b := hl.length_write _
  read_write b rest := by simp [Layout.via, hl.read_write, h]
  write_of_read {bytes b rest} hb := by
    obtain ⟨⟨a, tail⟩, ha, e⟩ := Option.map_eq_some_iff.mp hb
    cases e
    show bytes = l.write (unpack (pack a)) ++ rest
    rw [h', hl.write_of_read ha]
  read_isSome {bytes} hb := by
    have hl : (l.read bytes).isSome := hl.read_isSome hb
    simpa [Layout.via] using hl

theorem lawful_word16 : word16.Lawful := by
  refine (lawful_byte.pair lawful_byte).via (fun w => ?_) (fun p => ?_)
  · apply UInt16.toBitVec_inj.mp
    simp only [UInt16.toBitVec_or, UInt16.toBitVec_shiftLeft, UInt8.toBitVec_toUInt16,
      UInt16.toBitVec_toUInt8, UInt16.toBitVec_shiftRight]
    ext i hi
    simp
    grind
  · refine Prod.ext (UInt8.toBitVec_inj.mp ?_) (UInt8.toBitVec_inj.mp ?_)
    · ext i hi
      simp
    · ext i hi
      simp
      grind

theorem lawful_word32 : word32.Lawful := by
  refine (lawful_byte.pair (lawful_byte.pair (lawful_byte.pair lawful_byte))).via
    (fun w => ?_) (fun p => ?_)
  · -- both ways bit by bit, since no byte has a bit of another one
    apply UInt32.toBitVec_inj.mp
    simp only [UInt32.toBitVec_or, UInt32.toBitVec_shiftLeft, UInt8.toBitVec_toUInt32,
      UInt32.toBitVec_toUInt8, UInt32.toBitVec_shiftRight]
    ext i hi
    simp
    grind
  · refine Prod.ext (UInt8.toBitVec_inj.mp ?_) (Prod.ext (UInt8.toBitVec_inj.mp ?_)
      (Prod.ext (UInt8.toBitVec_inj.mp ?_) (UInt8.toBitVec_inj.mp ?_)))
    · ext i hi
      simp
    · ext i hi
      simp
      grind
    · ext i hi
      simp
      grind
    · ext i hi
      simp
      grind

theorem lawful_signed8 : signed8.Lawful :=
  lawful_byte.via (fun _ => rfl) (fun _ => rfl)

theorem lawful_single : single.Lawful :=
  lawful_word32.via (fun _ => rfl) (fun _ => rfl)

theorem Lawful.readAll_eq_some_iff {l : Layout α} (hl : l.Lawful) {bytes : List UInt8} {a : α} :
    l.readAll bytes = some a ↔ bytes = l.write a := by
  constructor
  · intro h
    unfold readAll at h
    split at h
    · rename_i b hb
      cases h
      simpa using hl.write_of_read hb
    · cases h
  · rintro rfl
    have := hl.read_write a []
    rw [List.append_nil] at this
    simp [readAll, this]

/-- A layout reads from every byte string that is long enough, and from no other. -/
theorem Lawful.read_eq_none_iff {l : Layout α} (hl : l.Lawful) {bytes : List UInt8} :
    l.read bytes = none ↔ bytes.length < l.width := by
  constructor
  · intro hnone
    apply Nat.lt_of_not_le
    intro hlong
    have hsome := hl.read_isSome hlong
    simp [hnone] at hsome
  · intro hshort
    cases hread : l.read bytes with
    | none => rfl
    | some r =>
      have hlen := congrArg List.length (hl.write_of_read hread)
      rw [List.length_append, hl.length_write] at hlen
      omega

/-- From as many bytes as the layout is wide, reading leaves nothing. -/
theorem Lawful.read_of_length {l : Layout α} (hl : l.Lawful) {bytes : List UInt8}
    (h : bytes.length = l.width) : ∃ a, l.read bytes = some (a, []) := by
  obtain ⟨⟨a, rest⟩, ha⟩ := Option.isSome_iff_exists.mp (hl.read_isSome (Nat.le_of_eq h.symm))
  have hlen := congrArg List.length (hl.write_of_read ha)
  rw [List.length_append, hl.length_write, h] at hlen
  have hrest : rest = [] := List.length_eq_zero_iff.mp (by omega)
  exact ⟨a, by rw [ha, hrest]⟩

/-- A layout can be read from exactly the byte strings of its width. -/
theorem Lawful.readAll_isSome_iff {l : Layout α} (hl : l.Lawful) {bytes : List UInt8} :
    (l.readAll bytes).isSome ↔ bytes.length = l.width := by
  constructor
  · intro h
    obtain ⟨a, ha⟩ := Option.isSome_iff_exists.mp h
    rw [hl.readAll_eq_some_iff.mp ha, hl.length_write]
  · intro h
    obtain ⟨a, ha⟩ := hl.read_of_length h
    simp [readAll, ha]

theorem Lawful.readAll_eq_none_iff {l : Layout α} (hl : l.Lawful) {bytes : List UInt8} :
    l.readAll bytes = none ↔ bytes.length ≠ l.width := by
  rw [← Option.not_isSome_iff_eq_none, hl.readAll_isSome_iff]

/-- From as many bytes as so many values take up, all of them are read and nothing is left. -/
theorem Lawful.readMany_of_length {l : Layout α} (hl : l.Lawful) {count : Nat} {bytes : List UInt8}
    (h : bytes.length = count * l.width) : ∃ as, l.readMany count bytes = some (as, []) := by
  induction count generalizing bytes with
  | zero => exact ⟨[], by rw [List.length_eq_zero_iff.mp (by omega : bytes.length = 0)]; rfl⟩
  | succ count ih =>
    rw [Nat.succ_mul] at h
    have hsome : (l.read bytes).isSome := hl.read_isSome (by omega)
    obtain ⟨⟨a, tail⟩, ha⟩ := Option.isSome_iff_exists.mp hsome
    have hlen := congrArg List.length (hl.write_of_read ha)
    rw [List.length_append, hl.length_write] at hlen
    have htail : tail.length = count * l.width := by omega
    obtain ⟨as, has⟩ := ih htail
    exact ⟨a :: as, by simp [readMany, ha, has]⟩

theorem Lawful.readMany_write {l : Layout α} (hl : l.Lawful) (as : List α) (rest : List UInt8) :
    l.readMany as.length (as.flatMap l.write ++ rest) = some (as, rest) := by
  induction as with
  | nil => rfl
  | cons a as ih => simp [readMany, List.append_assoc, hl.read_write, ih]

theorem Lawful.write_of_readMany {l : Layout α} (hl : l.Lawful) {count : Nat} {as : List α}
    {bytes rest : List UInt8} (h : l.readMany count bytes = some (as, rest)) :
    bytes = as.flatMap l.write ++ rest ∧ as.length = count := by
  induction count generalizing bytes as with
  | zero => cases h; exact ⟨rfl, rfl⟩
  | succ count ih =>
    unfold readMany at h
    split at h
    · cases h
    · rename_i a tail ha
      obtain ⟨⟨bs, tail'⟩, hb, e⟩ := Option.map_eq_some_iff.mp h
      cases e
      obtain ⟨e, hc⟩ := ih hb
      exact ⟨by rw [hl.write_of_read ha, e, List.flatMap_cons, List.append_assoc], by simp [hc]⟩

end Layout

end Skirmish.Wire
