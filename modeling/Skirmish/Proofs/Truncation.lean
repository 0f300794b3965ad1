import Skirmish.Proofs.NormalForm
/-!
# Where a name is cut

A text may be cut where a character begins. On bytes this is a matter of a single byte: a byte that
goes on with a character lies between 0x80 and 0xbf, a byte that begins one does not
(`Utf8.encodeChar_eq_cons`). So the places where the bytes of a text can be cut are the lengths of
its prefixes (`Utf8.isBoundary_encode_iff`), and whoever steps back from the end of the room, byte by
byte, comes to the end of the longest prefix that has room (`Utf8.stepBack_encode`).

The field of a name is filled this way, with a copy that is only made of bytes that are there and
into places that are there (`Wire.NameField.fill?`). None of its steps can fail, and what it leaves
behind is the field that is written (`fill?_eq_some`).
-/

namespace Skirmish.Utf8

/-! ## Boundaries -/

/-- A byte goes on with a character. -/
def continues (b : UInt8) : Bool := 0x80 ≤ b && b < 0xc0

/-- Bytes can be cut at a place: at either end, or where the next byte does not go on with a
character. -/
def isBoundary (bytes : List UInt8) (place : Nat) : Bool :=
  place == 0 ||
    match bytes[place]? with
    | some b => !continues b
    | none => place == bytes.length

/-- The last boundary up to a place, looked for byte by byte; nothing lies before the first byte. -/
def stepBack (bytes : List UInt8) : Nat → Option Nat
  | 0 => if isBoundary bytes 0 then some 0 else none
  | place + 1 => if isBoundary bytes (place + 1) then some (place + 1) else stepBack bytes place

theorem continues_iff {b : UInt8} : continues b = true ↔ 0x80 ≤ b.toNat ∧ b.toNat < 0xc0 := by
  simp [continues, UInt8.le_iff_toNat_le, UInt8.lt_iff_toNat_lt]

theorem continues_tail (n : Nat) : continues (UInt8.ofNat (n % 64 + 0x80)) = true := by
  rw [continues_iff, UInt8.toNat_ofNat']
  omega

theorem not_continues_of {n : Nat} (h : n < 0x80 ∨ 0xc0 ≤ n ∧ n < 0x100) :
    continues (UInt8.ofNat n) = false := by
  rw [Bool.eq_false_iff]
  intro hc
  rw [continues_iff, UInt8.toNat_ofNat'] at hc
  omega

/-- A character is one byte that begins it and others that go on with it. -/
theorem encodeChar_eq_cons (c : Char) :
    ∃ first rest, String.utf8EncodeChar c = first :: rest ∧ continues first = false ∧
      ∀ b ∈ rest, continues b = true := by
  unfold String.utf8EncodeChar
  generalize c.val.toNat = v
  dsimp only
  have hnil : ∀ b ∈ ([] : List UInt8), continues b = true := fun _ h => nomatch h
  -- the cases of the encoder, by how many bytes a character takes
  by_cases h1 : v ≤ 0x7f
  · rw [if_pos h1]
    exact ⟨_, _, rfl, not_continues_of (by omega), hnil⟩
  · rw [if_neg h1]
    by_cases h2 : v ≤ 0x7ff
    · rw [if_pos h2]
      exact ⟨_, _, rfl, not_continues_of (by omega),
        List.forall_mem_cons.mpr ⟨continues_tail _, hnil⟩⟩
    · rw [if_neg h2]
      by_cases h3 : v ≤ 0xffff
      · rw [if_pos h3]
        exact ⟨_, _, rfl, not_continues_of (by omega), List.forall_mem_cons.mpr
          ⟨continues_tail _, List.forall_mem_cons.mpr ⟨continues_tail _, hnil⟩⟩⟩
      · rw [if_neg h3]
        exact ⟨_, _, rfl, not_continues_of (by omega), List.forall_mem_cons.mpr
          ⟨continues_tail _, List.forall_mem_cons.mpr
            ⟨continues_tail _, List.forall_mem_cons.mpr ⟨continues_tail _, hnil⟩⟩⟩⟩

/-- In a text the front needs no rule of its own: the first byte begins a character. -/
theorem isBoundary_encode (text : List Char) (place : Nat) :
    isBoundary (encode text) place =
      match (encode text)[place]? with
      | some b => !continues b
      | none => place == (encode text).length := by
  rcases place with _ | place
  · cases text with
    | nil => rfl
    | cons c rest =>
      obtain ⟨first, tail, hc, hfirst, -⟩ := encodeChar_eq_cons c
      simp [isBoundary, hc, hfirst]
  · rfl

/-- Within a character there is no boundary, and from its end on there are those of the rest. -/
theorem isBoundary_encode_cons {c : Char} {text : List Char} {place : Nat} (h : place ≠ 0) :
    isBoundary (encode (c :: text)) place = true ↔
      c.utf8Size ≤ place ∧ isBoundary (encode text) (place - c.utf8Size) = true := by
  obtain ⟨first, rest, hc, -, hrest⟩ := encodeChar_eq_cons c
  have hsize : c.utf8Size = rest.length + 1 := by
    rw [← String.length_utf8EncodeChar, hc, List.length_cons]
  obtain ⟨k, rfl⟩ : ∃ k, place = k + 1 := ⟨place - 1, by omega⟩
  rw [isBoundary_encode, isBoundary_encode, encode_cons, hc, hsize]
  have hnext : (first :: rest ++ encode text)[k + 1]? = (rest ++ encode text)[k]? := by
    rw [List.cons_append, List.getElem?_cons_succ]
  rw [hnext, Nat.add_le_add_iff_right, Nat.add_sub_add_right]
  -- within the first character every byte continues it; after it the place is one of the rest
  by_cases hk : k < rest.length
  · rw [List.getElem?_append_left hk, List.getElem?_eq_getElem hk]
    simp [hrest _ (List.getElem_mem hk), Nat.not_le.mpr hk]
  · rw [List.getElem?_append_right (by omega)]
    have hend : (k + 1 == (first :: rest ++ encode text).length) =
        (k - rest.length == (encode text).length) := by
      rw [Bool.eq_iff_iff, beq_iff_eq, beq_iff_eq, List.cons_append, List.length_cons,
        List.length_append]
      omega
    rw [hend]
    simp [Nat.not_lt.mp hk]

/-- The bytes of a prefix are in front. -/
theorem encode_of_front {front text : List Char} (h : front <+: text) :
    encode front <+: encode text := by
  obtain ⟨rest, rfl⟩ := h
  exact ⟨encode rest, (encode_append front rest).symm⟩

/-- **A text is cut between characters.** The places where its bytes can be cut are those where a
prefix of it ends. -/
theorem isBoundary_encode_iff {text : List Char} {place : Nat} :
    isBoundary (encode text) place = true ↔
      ∃ front, front <+: text ∧ (encode front).length = place := by
  -- along the text: a place is the beginning, or comes after the first character
  induction text generalizing place with
  | nil =>
    rw [isBoundary_encode]
    constructor
    · intro h
      exact ⟨[], List.nil_prefix, (beq_iff_eq.mp h).symm⟩
    · intro ⟨front, hfront, hlen⟩
      rw [List.prefix_nil.mp hfront] at hlen
      exact beq_iff_eq.mpr hlen.symm
  | cons c text ih =>
    by_cases h : place = 0
    · subst h
      exact iff_of_true rfl ⟨[], List.nil_prefix, rfl⟩
    · rw [isBoundary_encode_cons h, ih]
      constructor
      · intro ⟨hle, front, hfront, hlen⟩
        refine ⟨c :: front, List.cons_prefix_cons.mpr ⟨rfl, hfront⟩, ?_⟩
        rw [encode_cons, List.length_append, String.length_utf8EncodeChar]
        omega
      · intro ⟨front, hfront, hlen⟩
        -- a prefix that ends in a place other than the beginning has the first character in it
        cases front with
        | nil => exact absurd hlen.symm h
        | cons d front =>
          obtain ⟨rfl, htail⟩ := List.cons_prefix_cons.mp hfront
          rw [encode_cons, List.length_append, String.length_utf8EncodeChar] at hlen
          exact ⟨by omega, front, htail, by omega⟩

/-! ## Stepping back -/

/-- Whoever steps back stops at the last boundary up to the place. -/
theorem stepBack_eq_some_iff {bytes : List UInt8} {place stop : Nat} :
    stepBack bytes place = some stop ↔
      stop ≤ place ∧ isBoundary bytes stop = true ∧
        ∀ other, stop < other → other ≤ place → isBoundary bytes other = false := by
  -- on the place it starts at: the first place that is a boundary is where it stops
  induction place with
  | zero =>
    have hzero : isBoundary bytes 0 = true := rfl
    rw [stepBack, if_pos hzero, Option.some.injEq]
    constructor
    · intro h
      subst h
      exact ⟨Nat.le_refl 0, hzero, by omega⟩
    · intro ⟨h, _, _⟩
      omega
  | succ place ih =>
    rw [stepBack]
    by_cases hhere : isBoundary bytes (place + 1) = true
    · rw [if_pos hhere, Option.some.injEq]
      constructor
      · intro h
        subst h
        exact ⟨Nat.le_refl _, hhere, by omega⟩
      · -- this place is a boundary, so it cannot be skipped
        intro ⟨hle, _, hlast⟩
        rcases Nat.lt_or_ge stop (place + 1) with hlt | hge
        · rw [hlast (place + 1) hlt (Nat.le_refl _)] at hhere
          cases hhere
        · exact Nat.le_antisymm hge hle
    · rw [if_neg hhere, ih]
      have hhere := Bool.eq_false_iff.mpr hhere
      constructor
      · intro ⟨hle, hstop, hlast⟩
        refine ⟨by omega, hstop, fun other hlt hother => ?_⟩
        by_cases heq : other = place + 1
        · exact heq ▸ hhere
        · exact hlast other hlt (by omega)
      · intro ⟨hle, hstop, hlast⟩
        -- this place is none, so nothing stops here
        have hne : stop ≠ place + 1 := by
          intro heq
          rw [← heq, hstop] at hhere
          cases hhere
        exact ⟨by omega, hstop, fun other hlt hother => hlast other hlt (by omega)⟩

/-- **Stepping back finds the longest prefix that has room.** It starts at the end of the room, or at
the end of the text if that comes first. -/
theorem stepBack_encode (text : List Char) (room : Nat) :
    stepBack (encode text) (min (encode text).length room) =
      some (encode (fitting room text)).length := by
  have hfits := length_encode_fitting room text
  have hprefix := fitting_prefix room text
  rw [stepBack_eq_some_iff]
  refine ⟨?_, isBoundary_encode_iff.mpr ⟨_, hprefix, rfl⟩, ?_⟩
  · have := (encode_of_front hprefix).length_le
    omega
  · intro other hlt hle
    rw [Bool.eq_false_iff]
    intro hb
    -- a boundary further on would be the end of a longer prefix that has room
    obtain ⟨front, hfront, rfl⟩ := isBoundary_encode_iff.mp hb
    have := (encode_of_front (prefix_fitting hfront (by omega : _ ≤ room))).length_le
    omega

end Skirmish.Utf8

namespace Skirmish.Wire.NameField

/-! ## The field is filled -/

/-- Bytes with the first `count` of them overwritten; the source has to be as long as the part that
it goes into, and that part has to be there. -/
def overwrite? (bytes : List UInt8) (count : Nat) (source : List UInt8) : Option (List UInt8) :=
  if count ≤ bytes.length ∧ source.length = count then some (source ++ bytes.drop count) else none

/-- The first `count` bytes, if there are so many. -/
def front? (bytes : List UInt8) (count : Nat) : Option (List UInt8) :=
  if count ≤ bytes.length then some (bytes.take count) else none

/-- A field of zeros, with what a name has in front of its last boundary within fifteen bytes copied
into it. -/
def fill? (name : String) : Option (List UInt8) := do
  let bytes := Utf8.encode name.toList
  let stop ← Utf8.stepBack bytes (min bytes.length 15)
  let source ← front? bytes stop
  overwrite? (List.replicate 16 0) stop source

/-- The bytes up to where a prefix ends are the bytes of the prefix. -/
theorem front?_encode {front text : List Char} (h : front <+: text) :
    front? (Utf8.encode text) (Utf8.encode front).length = some (Utf8.encode front) := by
  have hbytes := Utf8.encode_of_front h
  rw [front?, if_pos hbytes.length_le, ← List.prefix_iff_eq_take.mp hbytes]

/-- **Filling a field cannot fail**, and what it makes is the field of the name. -/
theorem fill?_eq_some (name : String) : fill? name = some (encode name).bytes := by
  have hroom := Utf8.length_encode_fitting 15 name.toList
  have hzeros : (List.replicate 16 (0 : UInt8)).length = 16 := List.length_replicate
  simp only [fill?, Utf8.stepBack_encode, Option.bind_eq_bind, Option.bind_some,
    front?_encode (Utf8.fitting_prefix 15 name.toList)]
  rw [overwrite?, if_pos ⟨by omega, rfl⟩, List.drop_replicate, bytes_encode]

/-! ## What comes out of it -/

/-- A name survives its field if all of it fits and it has no NUL, and only then. -/
theorem kept_eq_iff (name : String) :
    kept name = name ↔
      (Utf8.encode name.toList).length ≤ 15 ∧ '\x00' ∉ name.toList := by
  constructor
  · intro h
    have hnul : '\x00' ∉ name.toList := by
      rw [← h]
      exact nul_not_mem_decode _
    refine ⟨?_, hnul⟩
    -- a prefix of what fits is all of the name, so all of it fits
    -- what is kept has to be the whole name, and it is no longer than what fits
    have hlist : (Utf8.fitting 15 name.toList).takeWhile (· ≠ '\x00') = name.toList := by
      rw [← String.toList_ofList (l := List.takeWhile _ _), ← kept_eq, h]
    have hle := (Utf8.encode_of_front (List.takeWhile_prefix (l := Utf8.fitting 15 name.toList)
      (· ≠ '\x00'))).length_le
    rw [hlist] at hle
    exact Nat.le_trans hle (Utf8.length_encode_fitting 15 name.toList)
  · intro ⟨hfits, hnul⟩
    -- nothing is cut off where it does not fit, and nothing at a zero character
    have hall : ∀ c ∈ name.toList, decide (c ≠ '\x00') = true := by
      intro c hc
      rw [decide_eq_true_eq]
      intro heq
      exact hnul (heq ▸ hc)
    rw [kept_eq, Utf8.fitting_of_fits hfits, ← List.append_nil name.toList,
      List.takeWhile_append_of_pos hall, List.takeWhile_nil, List.append_nil, String.ofList_toList]

/-- **A name in its field.** No step of filling the field fails. What it holds then are the bytes of
the longest prefix of the name that takes up at most fifteen, and zeros; so its last byte is zero, and
what stands in front of the padding is UTF-8. Reading gives that prefix up to its first NUL, which is
all of the name exactly if the name takes up at most fifteen bytes and has no NUL. -/
theorem fill?_longest (name : String) :
    ∃ front, IsLongestFit 15 name.toList front ∧
      fill? name = some (encode name).bytes ∧
      (encode name).bytes =
        Utf8.encode front ++ List.replicate (16 - (Utf8.encode front).length) 0 ∧
      (encode name).bytes.getLast? = some 0 ∧
      Utf8.decode? (Utf8.encode front) = some front ∧
      (encode name).decode = String.ofList (front.takeWhile (· ≠ '\x00')) ∧
      ((encode name).decode = name ↔
        (Utf8.encode name.toList).length ≤ 15 ∧ '\x00' ∉ name.toList) := by
  have hroom := Utf8.length_encode_fitting 15 name.toList
  have hlast : (encode name).bytes.getLast? = some 0 := by
    rw [bytes_encode, List.getLast?_append, List.getLast?_replicate, if_neg (by omega),
      Option.some_or]
  exact ⟨Utf8.fitting 15 name.toList, isLongestFit_fitting 15 _, fill?_eq_some name,
    bytes_encode name, hlast, Utf8.decode?_eq_some_iff.mpr rfl, kept_eq name, kept_eq_iff name⟩

end Skirmish.Wire.NameField
