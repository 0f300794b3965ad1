import Skirmish.Geometry
/-!
# How single-precision numbers compare

The order of numbers is that of what their patterns stand for (`Single.unpacked`). There it can be
seen that two numbers are never each below the other, that a number below or equal to another is
one, and that a positive number added to zero is not below zero, since packing the sum does not make
it negative (`zero_le_unpack_pack`). A coordinate that was brought between two bounds is then not
below the lower and not above the upper, a NaN included (`Single.not_lt_of_clamp?`).
-/

namespace Skirmish

open Float.Model (Format UnpackedFloat)
open Float.Model.UnpackedFloat (Sign packComponents unpackExponent unpackMantissa unpackSign)

/-! ## Unpacked numbers -/

theorem compare_swap (a b : UnpackedFloat) :
    UnpackedFloat.compare b a = (UnpackedFloat.compare a b).map Ordering.swap := by
  have hsign : ∀ s s' : Sign, compare s' s = (compare s s').swap := by
    intro s s'
    cases s <;> cases s' <;> rfl
  -- as both are compared: by what they are, and two finite numbers by sign, exponent and
  -- significand
  cases a with
  | notANumber => cases b <;> rfl
  | infinity s =>
    cases b with
    | infinity s' => exact congrArg some (hsign s s')
    | _ => cases s <;> rfl
  | zero s =>
    cases b with
    | infinity s' | finite s' => cases s' <;> rfl
    | _ => rfl
  | finite s m e h =>
    cases b with
    | notANumber => cases s <;> rfl
    | infinity s' => cases s' <;> rfl
    | zero => cases s <;> rfl
    | finite s' m' e' h' =>
      have hswap : (compare e' e).then (compare m' m) =
          ((compare e e').then (compare m m')).swap := by
        rw [Ordering.swap_then, ← Std.OrientedCmp.eq_swap, ← Std.OrientedCmp.eq_swap]
      -- with two negative signs the order of the magnitudes is turned around
      cases s <;> cases s'
      · exact congrArg some (by rw [hswap])
      · rfl
      · rfl
      · exact congrArg some hswap

/-! ### Packing what is not negative -/

theorem sign_packComponents (e : BitVec 8) (m : BitVec 23) :
    unpackSign (packComponents Format.binary32 .positive e m) = 0#1 := by
  delta unpackSign packComponents BitVec.extractLsb
  rw [BitVec.extractLsb'_append_eq_of_le (by decide), BitVec.extractLsb'_append_eq_of_le (by decide)]
  rfl

/-- Without a sign and with an exponent that is not the greatest, it is a number and not negative.
-/
theorem zero_le_unpack_packComponents {e : BitVec 8} (he : e ≠ -1#8) (m : BitVec 23) :
    UnpackedFloat.le (.zero .positive) (UnpackedFloat.unpack Format.binary32
      (packComponents Format.binary32 .positive e m)) = true := by
  have hexponent : unpackExponent (packComponents Format.binary32 .positive e m) = e :=
    UnpackedFloat.unpackExponent_packComponents
  unfold UnpackedFloat.unpack
  dsimp only
  rw [hexponent, if_neg he]
  by_cases hsmall : e = 0#8
  · rw [if_pos hsmall]
    by_cases hzero : unpackMantissa (packComponents Format.binary32 .positive e m) = 0#23
    · rw [dif_pos hzero]
      rfl
    · rw [dif_neg hzero, sign_packComponents]
      rfl
  · rw [if_neg hsmall, sign_packComponents]
    rfl

/-- **What is not below zero is not below zero after packing.** -/
theorem zero_le_unpack_pack {u : UnpackedFloat} (h : UnpackedFloat.le (.zero .positive) u = true) :
    UnpackedFloat.le (.zero .positive) (UnpackedFloat.unpack Format.binary32
      (UnpackedFloat.pack Format.binary32 u)) = true := by
  -- a number that is not negative is packed with a sign that is not; a finite one may become
  -- infinite
  cases u with
  | notANumber => cases h
  | infinity s =>
    cases s with
    | positive => rfl
    | negative => cases h
  | zero s => cases s <;> rfl
  | finite s m e hm =>
    cases s with
    | negative => cases h
    | positive =>
      unfold UnpackedFloat.pack
      dsimp only
      split
      case isTrue => rfl
      case isFalse hexponent =>
        split
        case isTrue =>
          refine zero_le_unpack_packComponents (fun hall => ?_) _
          -- the greatest exponent would have been packed as infinity
          have hall := congrArg BitVec.toNat hall
          rw [BitVec.toNat_ofNat, Nat.mod_eq_of_lt (by omega)] at hall
          change _ = 255 at hall
          change ¬ 256 ≤ _ + 1 at hexponent
          omega
        case isFalse => exact zero_le_unpack_packComponents (by decide) _

/-! ## Comparison -/

namespace Single

/-- What a pattern stands for. -/
def unpacked (x : Single) : UnpackedFloat := x.toFloat.toModel.unpack

variable {x y low high : Single}

theorem lt_iff : x < y ↔ UnpackedFloat.compare x.unpacked y.unpacked = some .lt := by
  have hfloat : x < y ↔ x.toFloat < y.toFloat := by
    show x.lt y = true ↔ _
    rw [lt, decide_eq_true_iff]
  have hmodel : x.toFloat.lt y.toFloat = true ↔ x.toFloat.toModel < y.toFloat.toModel := by
    rw [Float32.lt, decide_eq_true_iff]
  have hunpacked : x.toFloat.toModel < y.toFloat.toModel ↔
      (UnpackedFloat.compare x.unpacked y.unpacked == some .lt) = true := Iff.rfl
  exact (hfloat.trans hmodel).trans (hunpacked.trans beq_iff_eq)

theorem le_iff : x ≤ y ↔ UnpackedFloat.le x.unpacked y.unpacked = true := by
  have hfloat : x ≤ y ↔ x.toFloat ≤ y.toFloat := by
    show x.le y = true ↔ _
    rw [le, decide_eq_true_iff]
  have hmodel : x.toFloat.le y.toFloat = true ↔ x.toFloat.toModel ≤ y.toFloat.toModel := by
    rw [Float32.le, decide_eq_true_iff]
  exact hfloat.trans hmodel

theorem not_lt_of_le (h : x ≤ y) : ¬ y < x := by
  intro hlt
  rw [lt_iff, compare_swap] at hlt
  rw [le_iff, UnpackedFloat.le] at h
  cases hc : UnpackedFloat.compare x.unpacked y.unpacked with
  | none => simp [hc] at h
  | some o => cases o <;> simp [hc] at h hlt

theorem le_of_lt (h : x < y) : x ≤ y := by
  rw [le_iff, UnpackedFloat.le, lt_iff.mp h]
  rfl

theorem lt_irrefl (x : Single) : ¬ x < x := fun h => not_lt_of_le (le_of_lt h) h

/-- **What comes out between two bounds is not below the one and not above the other.** -/
theorem not_lt_of_clamp? (h : x.clamp? low high = some y) : ¬ y < low ∧ ¬ high < y := by
  unfold clamp? at h
  split at h
  · rename_i hle
    have hbounds := not_lt_of_le hle
    split at h
    · obtain rfl := Option.some.inj h
      exact ⟨lt_irrefl low, hbounds⟩
    · split at h
      · obtain rfl := Option.some.inj h
        exact ⟨hbounds, lt_irrefl high⟩
      · rename_i hlow hhigh
        obtain rfl := Option.some.inj h
        exact ⟨hlow, hhigh⟩
  · cases h

theorem clamp?_isSome : (x.clamp? low high).isSome ↔ low ≤ high := by
  unfold clamp?
  split <;> simp [*]

/-! ## NaN -/

theorem toNat_exponent (b : BitVec Format.binary32.numBits) :
    (unpackExponent b).toNat = b.toNat / 8388608 % 256 := by
  rw [unpackExponent, BitVec.toNat_cast, BitVec.extractLsb_toNat, Nat.shiftRight_eq_div_pow]
  rfl

theorem toNat_mantissa (b : BitVec Format.binary32.numBits) :
    (unpackMantissa b).toNat = b.toNat % 8388608 := by
  rw [unpackMantissa, BitVec.toNat_cast, BitVec.extractLsb_toNat, Nat.shiftRight_zero]
  rfl

theorem toNat_magnitude (x : Single) : x.magnitude.toNat = x.bits.toNat % 2147483648 := by
  rw [magnitude, UInt32.toNat_and]
  exact Nat.and_two_pow_sub_one_eq_mod x.bits.toNat 31

/-- The patterns above that of infinity are those of no number. -/
theorem unpack_of_isNaN (h : x.isNaN = true) :
    UnpackedFloat.unpack Format.binary32 x.bits.toBitVec = .notANumber := by
  have hmagnitude : 0x7f800000 < x.bits.toNat % 2147483648 := by
    rw [isNaN, decide_eq_true_iff, UInt32.lt_iff_toNat_lt, toNat_magnitude] at h
    exact h
  have hexponent : @unpackExponent Format.binary32 x.bits.toBitVec = -1#8 := by
    apply BitVec.eq_of_toNat_eq
    rw [toNat_exponent]
    show x.bits.toNat / 8388608 % 256 = 255
    omega
  have hmantissa : @unpackMantissa Format.binary32 x.bits.toBitVec ≠ 0#23 := by
    intro hzero
    have hzero := congrArg BitVec.toNat hzero
    rw [toNat_mantissa] at hzero
    change x.bits.toNat % 8388608 = 0 at hzero
    omega
  unfold UnpackedFloat.unpack
  dsimp only
  rw [if_pos hexponent, if_neg hmantissa]

theorem unpacked_of_isNaN (h : x.isNaN = true) : x.unpacked = .notANumber := by
  show UnpackedFloat.unpack Format.binary32 (UnpackedFloat.pack Format.binary32
    (UnpackedFloat.unpack Format.binary32 x.bits.toBitVec)) = .notANumber
  rw [unpack_of_isNaN h]
  rfl

theorem isNaN_left_of_le (h : x ≤ y) : x.isNaN = false := by
  cases hx : x.isNaN with
  | false => rfl
  | true =>
    rw [le_iff, unpacked_of_isNaN hx] at h
    cases h

theorem isNaN_right_of_le (h : x ≤ y) : y.isNaN = false := by
  cases hy : y.isNaN with
  | false => rfl
  | true =>
    rw [le_iff, UnpackedFloat.le, compare_swap, unpacked_of_isNaN hy] at h
    cases h

/-! ## A positive number added to zero -/

/-- Nothing is added to a positive number by zero. -/
theorem zero_add_of_pos {u : UnpackedFloat}
    (h : UnpackedFloat.compare (.zero .positive) u = some .lt) :
    UnpackedFloat.add Format.binary32 (.zero .positive) u = u := by
  cases u with
  | notANumber | zero => cases h
  | infinity | finite => rfl

/-- **A positive number added to zero is a number, and not below zero.** -/
theorem zero_le_zero_add {w : Single} (h : .zero < w) : .zero ≤ .zero + w := by
  have hpos : UnpackedFloat.compare (.zero .positive) w.unpacked = some .lt := lt_iff.mp h
  have hadd : zero.toFloat + w.toFloat = .ofModel (Float32.Model.pack w.unpacked) :=
    calc zero.toFloat + w.toFloat
      _ = .ofModel (Float32.Model.pack
          (UnpackedFloat.add Format.binary32 (.zero .positive) w.unpacked)) := rfl
      _ = .ofModel (Float32.Model.pack w.unpacked) := by rw [zero_add_of_pos hpos]
  have hpacked : UnpackedFloat.le (.zero .positive) (UnpackedFloat.unpack Format.binary32
      (UnpackedFloat.pack Format.binary32 w.unpacked)) = true :=
    zero_le_unpack_pack (by rw [UnpackedFloat.le, hpos]; rfl)
  have hnumber : (Float32.ofModel (Float32.Model.pack w.unpacked)).isNaN = false := by
    show (UnpackedFloat.unpack Format.binary32
      (UnpackedFloat.pack Format.binary32 w.unpacked)).isNaN = false
    generalize UnpackedFloat.unpack Format.binary32 _ = u at hpacked
    cases u with
    | notANumber => cases hpacked
    | infinity | zero | finite => rfl
  have hsum : .zero + w = ⟨(Float32.ofModel (Float32.Model.pack w.unpacked)).toBits⟩ := by
    show arith (· + ·) zero w = _
    rw [arith, isNaN_left_of_le (le_of_lt h), isNaN_right_of_le (le_of_lt h)]
    show ofFloat (zero.toFloat + w.toFloat) = _
    rw [hadd, ofFloat, hnumber]
    rfl
  -- the sum is packed once when it is rounded and once more when its pattern is read
  rw [le_iff, hsum]
  exact zero_le_unpack_pack hpacked

end Single

end Skirmish
