import Skirmish.Text.Utf8
/-!
# Text survives its bytes

The machine that cuts bytes into pieces, run over the bytes of a text, gives back the characters of
that text and nothing else (`pieces_encode`). So both readings undo writing. The proof follows the
four lengths of a character: the first byte opens exactly the state that expects the others, and
each of the others adds its six bits.

Over any other bytes the machine invents nothing (`flatMap_bytes_pieces`): put together again, the
pieces are the bytes. The invariant is a promise (`Partial.Promises`): whatever the bounds of an
open character let through, the code point that comes out of it is written with just these bytes.

Two facts about shortened text are here as well. A cut in front of the first NUL can be made on
characters or on bytes, with the same outcome, for no other character has a zero byte. And the prefix
that is kept when there is not enough room is the longest that could be kept.
-/

namespace Skirmish.Utf8

/-! ## One character -/

/-- The byte that a continued character waits for lies within the bounds. -/
theorem within_bounds {low high n : Nat} (hlow : low ≤ n) (hhigh : n ≤ high) (hh : high < 256) :
    UInt8.ofNat low ≤ UInt8.ofNat n ∧ UInt8.ofNat n ≤ UInt8.ofNat high := by
  simp only [UInt8.le_iff_toNat_le, UInt8.toNat_ofNat']
  omega

theorem piecesFrom_last {seen : List UInt8} {code low high n : Nat} {rest : List UInt8}
    (hlow : low ≤ n) (hhigh : n ≤ high) (hh : high < 256) :
    piecesFrom (some ⟨seen, code, 0, UInt8.ofNat low, UInt8.ofNat high⟩)
        (UInt8.ofNat n :: rest) =
      .char (Char.ofNat (code * 64 + n % 64)) :: piecesFrom none rest := by
  have hn : (UInt8.ofNat n).toNat = n := UInt8.toNat_ofNat_of_lt' (show n < 256 by omega)
  have hb := within_bounds hlow hhigh hh
  simp only [piecesFrom, hb, and_self, if_true, hn]

theorem piecesFrom_next {seen : List UInt8} {code owed low high n : Nat} {rest : List UInt8}
    (hlow : low ≤ n) (hhigh : n ≤ high) (hh : high < 256) :
    piecesFrom (some ⟨seen, code, owed + 1, UInt8.ofNat low, UInt8.ofNat high⟩)
        (UInt8.ofNat n :: rest) =
      piecesFrom (some ⟨seen ++ [UInt8.ofNat n], code * 64 + n % 64, owed, .ofNat 0x80,
        .ofNat 0xbf⟩) rest := by
  have hn : (UInt8.ofNat n).toNat = n := UInt8.toNat_ofNat_of_lt' (show n < 256 by omega)
  have hb := within_bounds hlow hhigh hh
  simp only [piecesFrom, hb, and_self, if_true, hn]
  rfl

theorem opening_one {n : Nat} (h : n < 0x80) :
    opening (UInt8.ofNat n) = .single (Char.ofNat n) := by
  have hn : (UInt8.ofNat n).toNat = n := UInt8.toNat_ofNat_of_lt' (show n < 256 by omega)
  simp only [opening, hn, h, if_true]

theorem opening_two {n : Nat} (h : 0xc2 ≤ n) (h' : n < 0xe0) :
    opening (UInt8.ofNat n) =
      .several ⟨[UInt8.ofNat n], n % 0x20, 0, .ofNat 0x80, .ofNat 0xbf⟩ := by
  have hn : (UInt8.ofNat n).toNat = n := UInt8.toNat_ofNat_of_lt' (show n < 256 by omega)
  rw [opening]
  simp only [hn]
  rw [if_neg (by omega), if_neg (by omega), if_pos h']
  rfl

/-- The second byte of some characters of three bytes is restricted. -/
theorem opening_three {n : Nat} (h : 0xe0 ≤ n) (h' : n < 0xf0) :
    opening (UInt8.ofNat n) =
      .several ⟨[UInt8.ofNat n], n % 0x10, 1, .ofNat (if n = 0xe0 then 0xa0 else 0x80),
        .ofNat (if n = 0xed then 0x9f else 0xbf)⟩ := by
  have hn : (UInt8.ofNat n).toNat = n := UInt8.toNat_ofNat_of_lt' (show n < 256 by omega)
  rw [opening]
  simp only [hn]
  rw [if_neg (by omega), if_neg (by omega), if_neg (by omega)]
  by_cases h1 : n = 0xe0
  · subst h1
    rfl
  · by_cases h2 : n = 0xed
    · subst h2
      rfl
    · simp only [h1, h2, if_false, h', if_true]
      rfl

/-- The second byte of some characters of four bytes is restricted. -/
theorem opening_four {n : Nat} (h : 0xf0 ≤ n) (h' : n ≤ 0xf4) :
    opening (UInt8.ofNat n) =
      .several ⟨[UInt8.ofNat n], n % 0x08, 2, .ofNat (if n = 0xf0 then 0x90 else 0x80),
        .ofNat (if n = 0xf4 then 0x8f else 0xbf)⟩ := by
  have : n = 0xf0 ∨ n = 0xf1 ∨ n = 0xf2 ∨ n = 0xf3 ∨ n = 0xf4 := by omega
  rcases this with rfl | rfl | rfl | rfl | rfl <;> rfl

/-- What the machine reads when the bytes of a character come first. -/
theorem piecesFrom_encodeChar (c : Char) (rest : List UInt8) :
    piecesFrom none (String.utf8EncodeChar c ++ rest) = .char c :: piecesFrom none rest := by
  have hc : Char.ofNat c.val.toNat = c := Char.ofNat_toNat c
  have hv : c.val.toNat < 0xd800 ∨ 0xdfff < c.val.toNat ∧ c.val.toNat < 0x110000 := c.valid
  unfold String.utf8EncodeChar
  generalize c.val.toNat = v at hc hv
  subst hc
  dsimp only
  -- the decoder follows the encoder: one case for each length a character can have
  by_cases h1 : v ≤ 0x7f
  · rw [if_pos h1, List.singleton_append, piecesFrom, opening_one (by omega)]
  · rw [if_neg h1]
    by_cases h2 : v ≤ 0x7ff
    · rw [if_pos h2]
      simp only [List.cons_append, List.nil_append]
      rw [piecesFrom, opening_two (by omega) (by omega)]
      dsimp only
      rw [piecesFrom_last (by omega) (by omega) (by omega)]
      congr 3
      omega
    · rw [if_neg h2]
      by_cases h3 : v ≤ 0xffff
      · rw [if_pos h3]
        simp only [List.cons_append, List.nil_append]
        rw [piecesFrom, opening_three (by omega) (by omega)]
        dsimp only
        -- a restricted second byte is what keeps long forms and surrogates out
        rw [piecesFrom_next (by split <;> omega) (by split <;> omega) (by split <;> omega),
          piecesFrom_last (by omega) (by omega) (by omega)]
        congr 3
        omega
      · rw [if_neg h3]
        simp only [List.cons_append, List.nil_append]
        rw [piecesFrom, opening_four (by omega) (by omega)]
        dsimp only
        rw [piecesFrom_next (by split <;> omega) (by split <;> omega) (by split <;> omega),
          piecesFrom_next (by omega) (by omega) (by omega),
          piecesFrom_last (by omega) (by omega) (by omega)]
        congr 3
        omega

/-! ## Whole texts -/

@[simp]
theorem encode_cons (c : Char) (text : List Char) :
    encode (c :: text) = String.utf8EncodeChar c ++ encode text := rfl

/-- **Nothing is lost.** The pieces of the bytes of a text are its characters. -/
theorem pieces_encode (text : List Char) : pieces (encode text) = text.map Piece.char := by
  unfold pieces
  induction text with
  | nil => rfl
  | cons c rest ih => rw [encode_cons, piecesFrom_encodeChar, ih, List.map_cons]

theorem decodeLenient_encode (text : List Char) : decodeLenient (encode text) = text := by
  rw [decodeLenient, pieces_encode, List.map_map]
  exact List.map_id text

/-! ## Any bytes -/

/-- The bytes that a piece was cut from. -/
def Piece.bytes : Piece → List UInt8
  | char c => String.utf8EncodeChar c
  | fault bytes => bytes

/-- A number without its last `count` groups of six bits. -/
def above : Nat → Nat → Nat
  | 0, v => v
  | count + 1, v => above count v / 64

/-- The last `count` bytes of a character of several bytes, six bits in each. -/
def trail : Nat → Nat → List UInt8
  | 0, _ => []
  | count + 1, v => UInt8.ofNat (above count v % 64 + 0x80) :: trail count v

/-- Every way to go on that the bounds allow leads to a character that is written with the bytes
so far. -/
structure Partial.Promises (p : Partial) : Prop where
  low : 0x80 ≤ p.low.toNat
  high : p.high.toNat ≤ 0xbf
  finish : ∀ v, above (p.owed + 1) v = p.code →
    p.low.toNat ≤ above p.owed v % 64 + 0x80 → above p.owed v % 64 + 0x80 ≤ p.high.toNat →
      String.utf8EncodeChar (Char.ofNat v) = p.seen ++ trail (p.owed + 1) v

theorem toNat_val_ofNat {v : Nat} (h : v < 0xd800 ∨ 0xdfff < v ∧ v < 0x110000) :
    (Char.ofNat v).val.toNat = v := by
  have hv : v.isValidChar := h
  rw [Char.ofNat, dif_pos hv]
  rfl

theorem encodeChar_one {v : Nat} (h : v < 0x80) :
    String.utf8EncodeChar (Char.ofNat v) = [UInt8.ofNat v] := by
  rw [String.utf8EncodeChar, toNat_val_ofNat (.inl (by omega))]
  exact if_pos (by omega)

theorem encodeChar_two {v : Nat} (h : 0x80 ≤ v) (h' : v < 0x800) :
    String.utf8EncodeChar (Char.ofNat v) = UInt8.ofNat (above 1 v + 0xc0) :: trail 1 v := by
  rw [String.utf8EncodeChar, toNat_val_ofNat (.inl (by omega)), if_neg (by omega),
    if_pos (by omega), Nat.mod_eq_of_lt (by omega : v / 64 < 32)]
  rfl

theorem encodeChar_three {v : Nat} (h : 0x800 ≤ v)
    (h' : v < 0xd800 ∨ 0xdfff < v ∧ v < 0x10000) :
    String.utf8EncodeChar (Char.ofNat v) = UInt8.ofNat (above 2 v + 0xe0) :: trail 2 v := by
  rw [String.utf8EncodeChar, toNat_val_ofNat (by omega), if_neg (by omega), if_neg (by omega),
    if_pos (by omega), Nat.mod_eq_of_lt (by omega : v / 4096 < 16),
    (by omega : v / 4096 = v / 64 / 64)]
  rfl

theorem encodeChar_four {v : Nat} (h : 0x10000 ≤ v) (h' : v < 0x110000) :
    String.utf8EncodeChar (Char.ofNat v) = UInt8.ofNat (above 3 v + 0xf0) :: trail 3 v := by
  rw [String.utf8EncodeChar, toNat_val_ofNat (by omega), if_neg (by omega), if_neg (by omega),
    if_neg (by omega), Nat.mod_eq_of_lt (by omega : v / 262144 < 8),
    (by omega : v / 262144 = v / 64 / 64 / 64), (by omega : v / 4096 = v / 64 / 64)]
  rfl

theorem promises_two {n : Nat} (h : 0xc2 ≤ n) (h' : n < 0xe0) :
    Partial.Promises ⟨[UInt8.ofNat n], n % 0x20, 0, .ofNat 0x80, .ofNat 0xbf⟩ where
  low := Nat.le_refl _
  high := Nat.le_refl _
  finish := by
    intro v hcode _ _
    have hcode : v / 64 = n % 0x20 := hcode
    have hfirst : above 1 v + 0xc0 = n := (by omega : v / 64 + 0xc0 = n)
    rw [encodeChar_two (by omega) (by omega), hfirst]
    rfl

theorem promises_three {n : Nat} (h : 0xe0 ≤ n) (h' : n < 0xf0) :
    Partial.Promises ⟨[UInt8.ofNat n], n % 0x10, 1, .ofNat (if n = 0xe0 then 0xa0 else 0x80),
      .ofNat (if n = 0xed then 0x9f else 0xbf)⟩ where
  low := by
    rw [UInt8.toNat_ofNat']
    split <;> omega
  high := by
    rw [UInt8.toNat_ofNat']
    split <;> omega
  finish := by
    intro v hcode hlow hhigh
    have hcode : v / 64 / 64 = n % 0x10 := hcode
    rw [UInt8.toNat_ofNat'] at hlow hhigh
    have hlow : (if n = 0xe0 then 0xa0 else 0x80) % 256 ≤ v / 64 % 64 + 0x80 := hlow
    have hhigh : v / 64 % 64 + 0x80 ≤ (if n = 0xed then 0x9f else 0xbf) % 256 := hhigh
    have hfirst : above 2 v + 0xe0 = n := (by omega : v / 64 / 64 + 0xe0 = n)
    -- the least second byte keeps short characters out, the greatest one surrogates
    rw [encodeChar_three (by split at hlow <;> omega) (by split at hhigh <;> omega), hfirst]
    rfl

theorem promises_four {n : Nat} (h : 0xf0 ≤ n) (h' : n ≤ 0xf4) :
    Partial.Promises ⟨[UInt8.ofNat n], n % 0x08, 2, .ofNat (if n = 0xf0 then 0x90 else 0x80),
      .ofNat (if n = 0xf4 then 0x8f else 0xbf)⟩ where
  low := by
    rw [UInt8.toNat_ofNat']
    split <;> omega
  high := by
    rw [UInt8.toNat_ofNat']
    split <;> omega
  finish := by
    intro v hcode hlow hhigh
    have hcode : v / 64 / 64 / 64 = n % 0x08 := hcode
    rw [UInt8.toNat_ofNat'] at hlow hhigh
    have hlow : (if n = 0xf0 then 0x90 else 0x80) % 256 ≤ v / 64 / 64 % 64 + 0x80 := hlow
    have hhigh : v / 64 / 64 % 64 + 0x80 ≤ (if n = 0xf4 then 0x8f else 0xbf) % 256 := hhigh
    have hfirst : above 3 v + 0xf0 = n := (by omega : v / 64 / 64 / 64 + 0xf0 = n)
    -- the least second byte keeps short characters out, the greatest one what is past the last
    rw [encodeChar_four (by split at hlow <;> omega) (by split at hhigh <;> omega), hfirst]
    rfl

theorem opening_refused {n : Nat} (h : 0x80 ≤ n ∧ n < 0xc2 ∨ 0xf4 < n) (h' : n < 256) :
    opening (UInt8.ofNat n) = .refused := by
  have hn : (UInt8.ofNat n).toNat = n := UInt8.toNat_ofNat_of_lt' (show n < 256 by omega)
  rw [opening]
  simp only [hn]
  rw [if_neg (by omega)]
  by_cases h1 : n < 0xc2
  · rw [if_pos h1]
  · rw [if_neg h1, if_neg (by omega), if_neg (by omega), if_neg (by omega), if_neg (by omega),
      if_neg (by omega), if_neg (by omega), if_neg (by omega)]

/-- The first byte of a character is the character, or it promises one. -/
theorem opening_cases (b : UInt8) :
    (∃ c, opening b = .single c ∧ String.utf8EncodeChar c = [b]) ∨
      (∃ p, opening b = .several p ∧ p.Promises ∧ p.seen = [b]) ∨ opening b = .refused := by
  have hb : UInt8.ofNat b.toNat = b := UInt8.ofNat_toNat
  have hlt := b.toNat_lt
  generalize b.toNat = n at hb hlt
  subst hb
  by_cases h1 : n < 0x80
  · exact .inl ⟨_, opening_one h1, encodeChar_one h1⟩
  · refine .inr ?_
    by_cases h2 : 0xc2 ≤ n ∧ n < 0xe0
    · exact .inl ⟨_, opening_two h2.1 h2.2, promises_two h2.1 h2.2, rfl⟩
    · by_cases h3 : 0xe0 ≤ n ∧ n < 0xf0
      · exact .inl ⟨_, opening_three h3.1 h3.2, promises_three h3.1 h3.2, rfl⟩
      · by_cases h4 : 0xf0 ≤ n ∧ n ≤ 0xf4
        · exact .inl ⟨_, opening_four h4.1 h4.2, promises_four h4.1 h4.2, rfl⟩
        · exact .inr (opening_refused (by omega) hlt)

/-- A byte within the bounds finishes the character that was promised. -/
theorem Partial.Promises.last {p : Partial} (hp : p.Promises) (howed : p.owed = 0) {b : UInt8}
    (hlow : p.low ≤ b) (hhigh : b ≤ p.high) :
    String.utf8EncodeChar (Char.ofNat (p.code * 64 + b.toNat % 64)) = p.seen ++ [b] := by
  have hfinish := hp.finish (p.code * 64 + b.toNat % 64)
  have hl := hp.low
  have hh := hp.high
  rw [UInt8.le_iff_toNat_le] at hlow hhigh
  rw [howed] at hfinish
  have hlast : above 0 (p.code * 64 + b.toNat % 64) % 64 + 0x80 = b.toNat := by
    rw [above]
    omega
  have hcode : above 1 (p.code * 64 + b.toNat % 64) = p.code := by
    rw [above, above]
    omega
  rw [hfinish hcode (by omega) (by omega), trail, trail, hlast, UInt8.ofNat_toNat]

/-- A byte within the bounds leaves a promise if more are owed. -/
theorem Partial.Promises.next {p : Partial} (hp : p.Promises) {owed : Nat}
    (howed : p.owed = owed + 1) {b : UInt8} (hlow : p.low ≤ b) (hhigh : b ≤ p.high) :
    Partial.Promises ⟨p.seen ++ [b], p.code * 64 + b.toNat % 64, owed, 0x80, 0xbf⟩ where
  low := Nat.le_refl _
  high := Nat.le_refl _
  finish := by
    intro v hcode _ _
    have hcode : above (owed + 1) v = p.code * 64 + b.toNat % 64 := hcode
    have hfinish := hp.finish v
    have hl := hp.low
    have hh := hp.high
    rw [UInt8.le_iff_toNat_le] at hlow hhigh
    rw [howed] at hfinish
    have hnext : above (owed + 1) v % 64 + 0x80 = b.toNat := by omega
    have hbefore : above (owed + 1 + 1) v = p.code := by
      rw [above]
      omega
    rw [hfinish hbefore (by omega) (by omega), trail, hnext, UInt8.ofNat_toNat, List.append_assoc]
    rfl

/-- A byte that does not fit is read as a first byte after the fault. -/
theorem piecesFrom_misfit {p : Partial} {b : UInt8} (h : ¬ (p.low ≤ b ∧ b ≤ p.high))
    (rest : List UInt8) :
    piecesFrom (some p) (b :: rest) = .fault p.seen :: piecesFrom none (b :: rest) := by
  simp only [piecesFrom, if_neg h]

/-- What is open and what follows is what the pieces are cut from. -/
theorem flatMap_bytes_piecesFrom (bytes : List UInt8) :
    (piecesFrom none bytes).flatMap Piece.bytes = bytes ∧
      ∀ p, Partial.Promises p →
        (piecesFrom (some p) bytes).flatMap Piece.bytes = p.seen ++ bytes := by
  -- on the bytes, with any part of a character in front, since one that fails starts the next anew
  induction bytes with
  | nil => exact ⟨rfl, fun p _ => rfl⟩
  | cons b rest ih =>
    obtain ⟨ihnone, ihsome⟩ := ih
    have hfirst : (piecesFrom none (b :: rest)).flatMap Piece.bytes = b :: rest := by
      rw [piecesFrom]
      -- a byte opens a character, which it may also end, or it is refused
      rcases opening_cases b with ⟨c, hc, hbytes⟩ | ⟨p, hp, hpromises, hseen⟩ | hrefused
      · rw [hc]
        simp only [List.flatMap_cons, Piece.bytes, hbytes, ihnone, List.singleton_append]
      · rw [hp]
        simp only [ihsome p hpromises, hseen, List.singleton_append]
      · rw [hrefused]
        simp only [List.flatMap_cons, Piece.bytes, ihnone, List.singleton_append]
    refine ⟨hfirst, ?_⟩
    intro p hp
    by_cases hfits : p.low ≤ b ∧ b ≤ p.high
    · rw [piecesFrom, if_pos hfits]
      cases howed : p.owed with
      | zero =>
        simp only [List.flatMap_cons, Piece.bytes, hp.last howed hfits.1 hfits.2, ihnone,
          List.append_assoc, List.singleton_append]
      | succ owed =>
        simp only [ihsome _ (hp.next howed hfits.1 hfits.2), List.append_assoc,
          List.singleton_append]
    · rw [piecesFrom_misfit hfits, List.flatMap_cons, hfirst]
      rfl

/-- **Nothing is made up.** The pieces of any bytes are a cut of these bytes. -/
theorem flatMap_bytes_pieces (bytes : List UInt8) :
    (pieces bytes).flatMap Piece.bytes = bytes :=
  (flatMap_bytes_piecesFrom bytes).1

/-- A NUL is read only where there is a zero. -/
theorem nul_not_mem_decodeLenient {bytes : List UInt8} (h : 0 ∉ bytes) :
    '\x00' ∉ decodeLenient bytes := by
  intro hmem
  obtain ⟨piece, hpiece, heq⟩ := List.mem_map.mp hmem
  cases piece with
  | char c =>
    have hc : c = '\x00' := heq
    subst hc
    apply h
    rw [← flatMap_bytes_pieces bytes]
    exact List.mem_flatMap.mpr ⟨_, hpiece, List.mem_singleton.mpr rfl⟩
  | fault _ =>
    have hreplaced : replacement = '\x00' := heq
    exact absurd hreplaced (by decide)

/-! ## Cuts -/

/-- Only the characters of one byte have a byte below 0x80. -/
theorem eq_ofNat_of_mem {c : Char} {b : UInt8} (h : b ∈ String.utf8EncodeChar c)
    (hb : b.toNat < 0x80) : c = Char.ofNat b.toNat := by
  have hc : Char.ofNat c.val.toNat = c := Char.ofNat_toNat c
  unfold String.utf8EncodeChar at h
  generalize c.val.toNat = v at hc h
  have key : ∀ n, b = UInt8.ofNat n → n % 256 = b.toNat := by
    intro n hn
    rw [hn, UInt8.toNat_ofNat']
  have hv : v = b.toNat := by
    dsimp only at h
    split at h
    · have := key _ (List.mem_singleton.mp h)
      omega
    · -- the bytes of longer forms have their upper bits set
      exfalso
      split at h
      · simp only [List.mem_cons, List.not_mem_nil, or_false] at h
        rcases h with h | h <;> have := key _ h <;> omega
      · split at h
        · simp only [List.mem_cons, List.not_mem_nil, or_false] at h
          rcases h with h | h | h <;> have := key _ h <;> omega
        · simp only [List.mem_cons, List.not_mem_nil, or_false] at h
          rcases h with h | h | h | h <;> have := key _ h <;> omega
  rw [← hv, hc]

/-- Only NUL has a zero byte. -/
theorem eq_nul_of_zero_mem {c : Char} (h : 0 ∈ String.utf8EncodeChar c) : c = '\x00' :=
  eq_ofNat_of_mem h (by decide)

/-- A text cut in front of its first NUL, on bytes and on characters. -/
theorem takeWhile_encode (text : List Char) (rest : List UInt8) :
    (encode text ++ 0 :: rest).takeWhile (· ≠ 0) = encode (text.takeWhile (· ≠ '\x00')) := by
  induction text with
  | nil => rfl
  | cons c tail ih =>
    by_cases hc : c = '\x00'
    · subst hc
      rfl
    · have hz : ∀ b ∈ String.utf8EncodeChar c, decide (b ≠ 0) = true := by
        intro b hb
        rw [decide_eq_true_eq]
        intro heq
        subst heq
        exact hc (eq_nul_of_zero_mem hb)
      rw [encode_cons, List.append_assoc, List.takeWhile_append_of_pos hz, ih,
        List.takeWhile_cons_of_pos (by simpa using hc), encode_cons]

/-- No prefix of a text that fits is longer than the one that is kept. -/
theorem prefix_fitting {room : Nat} {text other : List Char} (h : other <+: text)
    (hroom : (encode other).length ≤ room) : other <+: fitting room text := by
  induction text generalizing room other with
  | nil => exact h
  | cons c rest ih =>
    cases other with
    | nil => exact List.nil_prefix
    | cons d tail =>
      obtain ⟨rfl, htail⟩ := List.cons_prefix_cons.mp h
      rw [encode_cons, List.length_append, String.length_utf8EncodeChar] at hroom
      rw [fitting, if_pos (by omega)]
      exact List.cons_prefix_cons.mpr ⟨rfl, ih htail (by omega)⟩

/-- A text that fits is kept whole. -/
theorem fitting_of_fits {room : Nat} {text : List Char} (h : (encode text).length ≤ room) :
    fitting room text = text := by
  have hkept := fitting_prefix room text
  exact hkept.eq_of_length_le (prefix_fitting List.prefix_rfl h).length_le

/-- Where a text has a byte below 0x80 it has the character of this byte. -/
theorem ofNat_mem_of_mem_encode {text : List Char} {b : UInt8} (h : b ∈ encode text)
    (hb : b.toNat < 0x80) : Char.ofNat b.toNat ∈ text := by
  obtain ⟨c, hc, hbyte⟩ := List.mem_flatMap.mp h
  rw [← eq_ofNat_of_mem hbyte hb]
  exact hc

/-- A text without NUL has no zero byte. -/
theorem zero_not_mem_encode {text : List Char} (h : '\x00' ∉ text) : 0 ∉ encode text :=
  fun hzero => h (ofNat_mem_of_mem_encode hzero (by decide))

/-! ## Strict reading -/

theorem encode_append (text rest : List Char) :
    encode (text ++ rest) = encode text ++ encode rest :=
  List.flatMap_append

/-- Where reading succeeds, all pieces are characters. -/
theorem pieces_of_decode? {bytes : List UInt8} {text : List Char}
    (h : decode? bytes = some text) : pieces bytes = text.map Piece.char := by
  unfold decode? at h
  generalize pieces bytes = ps at h
  induction ps generalizing text with
  | nil =>
    obtain rfl := Option.some.inj h
    rfl
  | cons p rest ih =>
    rw [List.mapM_cons] at h
    cases p with
    | fault => cases h
    | char c =>
      obtain ⟨_, hc, h⟩ := Option.bind_eq_some_iff.mp h
      obtain ⟨tail, htail, heq⟩ := Option.bind_eq_some_iff.mp h
      obtain rfl := Option.some.inj hc
      obtain rfl := Option.some.inj heq
      rw [ih htail, List.map_cons]

/-- **Bytes are read as the text that they encode**, and if there is none they are not read. -/
theorem decode?_eq_some_iff {bytes : List UInt8} {text : List Char} :
    decode? bytes = some text ↔ encode text = bytes := by
  constructor
  · intro h
    rw [← flatMap_bytes_pieces bytes, pieces_of_decode? h, List.flatMap_map]
    rfl
  · intro h
    subst h
    rw [decode?, pieces_encode, List.mapM_map]
    induction text with
    | nil => rfl
    | cons c rest ih =>
      rw [List.mapM_cons, ih]
      rfl

end Skirmish.Utf8
