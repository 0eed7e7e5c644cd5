/-
Which floating-point numbers are finite.

* `beq_self_of_isFinite` — a finite number equals itself;
* `beq_of_infinite` — and an infinity every other on its side of zero;
* `isFinite_ofInt` — an integer that fits an unsigned 64-bit word, but no signed one, becomes a
  finite number.

Design notes: a number is finite if its exponent is below the one that is kept for infinities.
Rounding an integer of 64 bits raises the exponent a few times at most, so no exact account of what
it does to the mantissa is needed.
-/
import Mathlib

namespace ClassSchema.Decimal

open Float.Model (Format UnpackedFloat totalExponent)
open Float.Model.UnpackedFloat

theorem beq_self_of_isFinite {x : Float} (h : x.isFinite = true) : (x == x) = true := by
  have hfinite : x.toModel.unpack.isFinite = true := h
  have hnumber : x.toModel.unpack ≠ .notANumber := by
    intro hnan
    rw [hnan] at hfinite
    cases hfinite
  exact (beq_iff_ne_notANumber_and_eq _ _).mpr ⟨hnumber, hnumber, Or.inl rfl⟩

/-! ### Infinities -/

/-- What is neither finite nor NaN is an infinity, and the negative one exactly if it is below
zero. -/
theorem exists_infinity {x : Float} (hfinite : x.isFinite = false) (hnan : x.isNaN = false) :
    ∃ s, x.toModel.unpack = .infinity s ∧ (x < 0 ↔ s = .negative) := by
  have hfinite : x.toModel.unpack.isFinite = false := hfinite
  have hnan : x.toModel.unpack.isNaN = false := hnan
  cases hx : x.toModel.unpack with
  | infinity s =>
    refine ⟨s, rfl, ?_⟩
    have hzero : (0 : Float).toModel.unpack = .zero .positive := rfl
    show x.lt 0 = true ↔ _
    rw [Float.lt, decide_eq_true_iff]
    show x.toModel.unpack.lt (0 : Float).toModel.unpack = true ↔ _
    rw [hx, hzero]
    cases s with
    | negative => exact iff_of_true rfl rfl
    | positive => exact iff_of_false Bool.false_ne_true (by rintro ⟨⟩)
  | notANumber =>
    rw [hx] at hnan
    cases hnan
  | zero s =>
    rw [hx] at hfinite
    cases hfinite
  | finite s m e hm =>
    rw [hx] at hfinite
    cases hfinite

/-- Infinities on one side of zero are equal. -/
theorem beq_of_infinite {x y : Float} (hx : x.isFinite = false) (hxnan : x.isNaN = false)
    (hy : y.isFinite = false) (hynan : y.isNaN = false) (hsign : x < 0 ↔ y < 0) :
    (x == y) = true := by
  obtain ⟨s, hs, hxneg⟩ := exists_infinity hx hxnan
  obtain ⟨t, ht, hyneg⟩ := exists_infinity hy hynan
  rw [hxneg, hyneg] at hsign
  have hst : s = t := by
    cases s with
    | negative => exact (hsign.mp rfl).symm
    | positive =>
      cases t with
      | negative => exact hsign.mpr rfl
      | positive => rfl
  show x.toModel.unpack.beq y.toModel.unpack = true
  rw [hs, ht, hst]
  cases t with
  | negative => rfl
  | positive => rfl

/-! ### Exponents -/

/-- The number is zero, or its exponent is not so great that it would be packed as infinite. -/
def Moderate : UnpackedFloat → Prop
  | .zero _ => True
  | .finite _ _ e _ => e ≤ 970
  | .infinity _ => False
  | .notANumber => False

/-- A number is infinite or none at all only if its exponent has all bits set. -/
theorem isFinite_unpack {b : BitVec Format.binary64.numBits} (h : unpackExponent b ≠ -1#11) :
    (unpack Format.binary64 b).isFinite = true := by
  unfold unpack
  simp only [if_neg h]
  split
  · split <;> rfl
  · rfl

theorem isFinite_pack {x : UnpackedFloat} (h : Moderate x) :
    (Float.Model.pack x).isFinite = true := by
  refine isFinite_unpack ?_
  show unpackExponent (pack Format.binary64 x) ≠ _
  cases x with
  | infinity s => exact h.elim
  | notANumber => exact h.elim
  | zero s =>
    rw [pack, packedZero, unpackExponent_packComponents]
    decide
  | finite s m e hm =>
    have he : e ≤ 970 := h
    have hbits : Format.binary64.exponentBits = 11 := rfl
    have hbias : Format.binary64.exponentBias = 1023 := rfl
    have hmantissa : Format.binary64.mantissaBitsWithoutImplicit = 52 := rfl
    -- the biased exponent stays below 2047
    have hsmall : ¬ 2 ^ Format.binary64.exponentBits ≤ (e + Format.binary64.exponentBias +
        Format.binary64.mantissaBitsWithoutImplicit).toNat + 1 := by
      rw [hbits, hbias, hmantissa]
      omega
    simp only [pack, if_neg hsmall]
    split
    · rw [unpackExponent_packComponents]
      intro heq
      have hnat := congrArg BitVec.toNat heq
      have hall : (-1#11).toNat = 2047 := by decide
      rw [hall, BitVec.toNat_ofNat, hbias] at hnat
      omega
    · rw [unpackExponent_packComponents]
      decide

/-! ### Rounding -/

theorem mantissa_shiftRight_le (em : ExtendedMantissa) (k : Nat) :
    (em >>> k).mantissa ≤ em.mantissa := by
  induction k with
  | zero => exact le_rfl
  | succ k ih =>
    have hstep : (em >>> (k + 1)).mantissa = (em >>> k).mantissa / 2 := rfl
    rw [hstep]
    omega

theorem roundedMantissa_le (em : ExtendedMantissa) : em.roundedMantissa ≤ em.mantissa + 1 := by
  unfold ExtendedMantissa.roundedMantissa
  rcases em.accuracy with _ | order
  · exact Nat.le_succ _
  · cases order with
    | lt => exact Nat.le_succ _
    | eq =>
      show em.mantissa + em.mantissa % 2 ≤ em.mantissa + 1
      omega
    | gt => exact le_rfl

/-- Shifting a mantissa of at most 118 bits to its place raises its exponent by 65 at most. -/
theorem exponent_shiftToTargetExponent_le {m : Nat} {e bound : Int} (hm : m < 2 ^ 118)
    (he : e ≤ bound) (hbound : -1000 ≤ bound) :
    (shiftToTargetExponent Format.binary64 m e .exact).2 ≤ bound + 65 := by
  have hlog : m.log2 < 118 := by
    by_cases hzero : m = 0
    · rw [hzero]
      decide
    · exact (Nat.log2_lt hzero).mpr hm
  have hbits : Format.binary64.mantissaBits = 53 := rfl
  have hmin : Format.binary64.minExponent = -1074 := rfl
  have htotal : totalExponent m e = m.log2 + 1 + e := rfl
  simp only [shiftToTargetExponent, shiftToExponent, Format.targetExponent, hbits, hmin, htotal]
  omega

/-- A mantissa of at most 117 bits is rounded to a number that is not great. -/
theorem moderate_roundWithAccuracy (s : Sign) {m : Nat} {e : Int} (hm : m < 2 ^ 117)
    (he : e ≤ 0) : Moderate (roundWithAccuracy Format.binary64 s m e .exact) := by
  have hmantissa : (shiftToTargetExponent Format.binary64 m e .exact).1.mantissa ≤ m :=
    mantissa_shiftRight_le (.ofMantissaAndAccuracy m .exact) _
  have hexponent := exponent_shiftToTargetExponent_le (m := m) (by omega) he (by omega)
  unfold roundWithAccuracy
  rcases hshift : shiftToTargetExponent Format.binary64 m e .exact with ⟨em, e'⟩
  rw [hshift] at hmantissa hexponent
  dsimp only at hmantissa hexponent
  -- rounding up may carry into one more bit
  have hrounded : em.roundedMantissa < 2 ^ 118 := by
    have hup := roundedMantissa_le em
    omega
  have hfinal := exponent_shiftToTargetExponent_le hrounded hexponent (by omega)
  dsimp only
  split
  · trivial
  · exact hfinal.trans (by omega)

/-! ### Integers -/

theorem isFinite_ofInt {n : Int} (hlow : 2 ^ 63 ≤ n) (hhigh : n < 2 ^ 64) :
    (Float.ofInt n).isFinite = true := by
  obtain ⟨k, rfl⟩ := Int.eq_ofNat_of_zero_le (a := n) (by omega)
  have hlarge : ¬ (k < 2 ^ 53 ∧ 0 ≤ 22) := by omega
  have hzero : k ≠ 0 := by omega
  have hbits : Format.binary64.exponentBits = 11 := rfl
  obtain ⟨m, hm⟩ : ∃ m, m = k <<< 53 * 1 := ⟨_, rfl⟩
  have hround : UnpackedFloat.ofScientific Format.binary64 k 0 =
      roundWithAccuracy Format.binary64 .positive m (-53) .exact := by
    rw [UnpackedFloat.ofScientific, dif_neg hzero, hbits, if_neg (by omega), if_neg (by omega),
      if_pos le_rfl, hm]
    rfl
  have hmantissa : m < 2 ^ 117 := by
    rw [hm, Nat.shiftLeft_eq]
    omega
  have hfinite := isFinite_pack (moderate_roundWithAccuracy .positive hmantissa (e := -53)
    (by omega))
  rw [← hround] at hfinite
  have hmodel : Float.ofInt (Int.ofNat k) =
      ⟨Float.Model.pack (UnpackedFloat.ofScientific Format.binary64 k 0)⟩ := dif_neg hlarge
  show (Float.ofInt (Int.ofNat k)).isFinite = true
  rw [hmodel]
  exact hfinite

end ClassSchema.Decimal
