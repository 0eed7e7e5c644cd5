/-
The shortest digits of a number, and that they tell it from every other number.

* `Scaled.worth` — the rational that a decimal is;
* `Binary.Owns`, `readsBack_iff` — what reads back lies between two halfway points;
* `readsBack_shortest` — the shortest digits of a positive number read back to it;
* `ofMagnitude` — the number whose bits, without the sign, are worth `n`;
* `high_le_low` — between two numbers lies a halfway point, which at most one of them owns;
* `eq_of_worth_shortest` — so the shortest digits of two numbers are never worth the same.

Design notes: all halfway points are multiples of `2 ^ (-1076)`, so they are compared as natural
numbers.  How many digits are tried does not matter: where the search ends without any, the number
itself is written out, which reads back as well.
-/
import Mathlib
import ClassSchema.Decimal.Shortest

namespace ClassSchema.Decimal

/-! ### Decimals as rationals -/

/-- The rational that a decimal is. -/
def Scaled.worth (d : Scaled) : ℚ := d.digits * 10 ^ d.exponent

/-- A power of a whole exponent, with its negative part on the other side. -/
theorem zpow_mul_pow_toNat_neg {b : ℚ} (hb : b ≠ 0) (i : ℤ) :
    b ^ i * b ^ (-i).toNat = b ^ i.toNat := by
  rw [← zpow_natCast, ← zpow_natCast, ← zpow_add₀ hb]
  congr 1
  omega

/-- The comparison of natural numbers is that of the rationals that are meant. -/
theorem compareScaled_eq (a : ℕ) (i : ℤ) (n : ℕ) (j : ℤ) :
    compareScaled a i n j = compare ((a : ℚ) * 10 ^ i) (n * 2 ^ j) := by
  -- both sides are multiplied by the powers that the negative exponents stand for
  have hfactor : (0 : ℚ) < 2 ^ (-j).toNat * 10 ^ (-i).toNat := by positivity
  have hleft : ((a * Nat.pow 10 i.toNat * Nat.pow 2 (-j).toNat : ℕ) : ℚ) =
      (a : ℚ) * 10 ^ i * (2 ^ (-j).toNat * 10 ^ (-i).toNat) := by
    simp only [Nat.pow_eq]
    push_cast
    rw [← zpow_mul_pow_toNat_neg (b := 10) (by norm_num) i]
    ring
  have hright : ((n * Nat.pow 2 j.toNat * Nat.pow 10 (-i).toNat : ℕ) : ℚ) =
      (n : ℚ) * 2 ^ j * (2 ^ (-j).toNat * 10 ^ (-i).toNat) := by
    simp only [Nat.pow_eq]
    push_cast
    rw [← zpow_mul_pow_toNat_neg (b := 2) (by norm_num) j]
    ring
  rw [compareScaled]
  rcases lt_trichotomy ((a : ℚ) * 10 ^ i) (n * 2 ^ j) with h | h | h
  · rw [compare_lt_iff_lt.mpr h, compare_lt_iff_lt]
    refine (Nat.cast_lt (α := ℚ)).mp ?_
    rw [hleft, hright]
    exact mul_lt_mul_of_pos_right h hfactor
  · rw [compare_eq_iff_eq.mpr h, compare_eq_iff_eq]
    refine (Nat.cast_inj (R := ℚ)).mp ?_
    rw [hleft, hright, h]
  · rw [compare_gt_iff_gt.mpr h, compare_gt_iff_gt]
    refine (Nat.cast_lt (α := ℚ)).mp ?_
    rw [hleft, hright]
    exact mul_lt_mul_of_pos_right h hfactor

namespace Binary

/-! ### What reads back -/

/-- Four times the mantissa of the halfway point to the number below. -/
def lowMantissa (x : Binary) : ℕ := if x.narrow then 4 * x.mantissa - 1 else 4 * x.mantissa - 2

/-- The halfway point to the number below. -/
def low (x : Binary) : ℚ := x.lowMantissa * 2 ^ (x.exponent - 2)

/-- The halfway point to the number above. -/
def high (x : Binary) : ℚ := (4 * x.mantissa + 2 : ℕ) * 2 ^ (x.exponent - 2)

/-- The rational lies among those that round to the number. -/
def Owns (x : Binary) (v : ℚ) : Prop :=
  (x.low < v ∨ (x.mantissa % 2 = 0 ∧ x.low = v)) ∧ (v < x.high ∨ (x.mantissa % 2 = 0 ∧ v = x.high))

/-- What reads back lies between two halfway points. -/
theorem readsBack_iff {x : Binary} {d : Scaled} : x.readsBack d = true ↔ x.Owns d.worth := by
  unfold readsBack
  simp only [compareScaled_eq, Bool.and_eq_true, Bool.or_eq_true, beq_iff_eq, decide_eq_true_eq,
    compare_lt_iff_lt, compare_gt_iff_gt, compare_eq_iff_eq]
  rw [Owns, low, high, lowMantissa, eq_comm (a := _ * _) (b := d.worth)]
  rfl

theorem low_nonneg (x : Binary) : 0 ≤ x.low := by
  unfold low
  positivity

/-- The halfway point to the number below a positive one is positive where it is owned. -/
theorem Owns.pos {x : Binary} {v : ℚ} (h : x.Owns v) (hpos : 0 < x.mantissa) : 0 < v := by
  rcases h.1 with hlow | ⟨heven, hlow⟩
  · exact x.low_nonneg.trans_lt hlow
  · have hmantissa : 0 < x.lowMantissa := by
      unfold lowMantissa
      split <;> omega
    rw [← hlow, low]
    positivity

/-! ### The shortest digits -/

end Binary

theorem Scaled.worth_stripZeros (bound : ℕ) (d : Scaled) :
    (d.stripZeros bound).worth = d.worth := by
  induction bound generalizing d with
  | zero => rfl
  | succ bound ih =>
    rw [stripZeros]
    split
    · next h =>
      have hdigits : (d.digits : ℚ) = 10 * (d.digits / 10 : ℕ) := by
        exact_mod_cast (by omega : d.digits = 10 * (d.digits / 10))
      rw [ih, worth, worth, hdigits, zpow_add_one₀ (by norm_num)]
      ring
    · rfl

namespace Binary

variable {x : Binary}

theorem readsBack_onGrid {exponent : ℤ} {d : Scaled} (h : x.onGrid exponent = some d) :
    x.readsBack d = true := by
  unfold onGrid at h
  dsimp only at h
  split at h
  · cases h
  · next hbelow _ => exact Option.some.inj h ▸ hbelow
  · next _ habove => exact Option.some.inj h ▸ habove
  · next hbelow habove =>
    split at h
    · exact Option.some.inj h ▸ hbelow
    · exact Option.some.inj h ▸ habove
    · obtain rfl := Option.some.inj h
      split
      · exact hbelow
      · exact habove

/-- A positive number is its own. -/
theorem owns_self (hpos : 0 < x.mantissa) : x.Owns (x.mantissa * 2 ^ x.exponent) := by
  have hscale : (0 : ℚ) < 2 ^ (x.exponent - 2) := by positivity
  have hself : (x.mantissa : ℚ) * 2 ^ x.exponent = (4 * x.mantissa : ℕ) * 2 ^ (x.exponent - 2) := by
    rw [zpow_sub₀ (by norm_num)]
    push_cast
    ring
  have hlow : x.lowMantissa < 4 * x.mantissa := by
    unfold lowMantissa
    split <;> omega
  rw [hself]
  refine ⟨Or.inl ?_, Or.inl ?_⟩
  · exact mul_lt_mul_of_pos_right (by exact_mod_cast hlow) hscale
  · exact mul_lt_mul_of_pos_right (by exact_mod_cast Nat.lt_add_of_pos_right two_pos) hscale

/-- The shortest digits of a positive number read back to it. -/
theorem readsBack_shortest (hpos : 0 < x.mantissa) : x.readsBack x.shortest = true := by
  unfold shortest
  dsimp only
  split
  · next d hd =>
    obtain ⟨n, -, hgrid⟩ := List.exists_of_findSome?_eq_some hd
    rw [readsBack_iff, Scaled.worth_stripZeros, ← readsBack_iff]
    exact readsBack_onGrid hgrid
  · have hexact : (⟨x.mantissa * Nat.pow 2 x.exponent.toNat * Nat.pow 5 (-x.exponent).toNat,
        -((-x.exponent).toNat : ℤ)⟩ : Scaled).worth = x.mantissa * 2 ^ x.exponent := by
      have hfive : (10 : ℚ) ^ (-((-x.exponent).toNat : ℤ)) * 5 ^ (-x.exponent).toNat =
          (2 ^ (-x.exponent).toNat)⁻¹ := by
        rw [zpow_neg, zpow_natCast, show (10 : ℚ) = 2 * 5 by norm_num, mul_pow, mul_inv]
        field_simp
      have htwo := zpow_mul_pow_toNat_neg (b := 2) (by norm_num) x.exponent
      rw [Scaled.worth]
      simp only [Nat.pow_eq]
      push_cast
      calc (x.mantissa : ℚ) * 2 ^ x.exponent.toNat * 5 ^ (-x.exponent).toNat *
            10 ^ (-((-x.exponent).toNat : ℤ))
          = x.mantissa * 2 ^ x.exponent.toNat * (10 ^ (-((-x.exponent).toNat : ℤ)) *
              5 ^ (-x.exponent).toNat) := by ring
        _ = x.mantissa * 2 ^ x.exponent := by
          rw [hfive, ← htwo]
          field_simp
    rw [readsBack_iff, Scaled.worth_stripZeros, hexact]
    exact owns_self hpos

/-! ### Numbers by their bits -/

/-- The number whose bits, without the sign, are worth `n`. -/
def ofMagnitude (n : ℕ) : Binary :=
  if n / 2 ^ 52 = 0 then ⟨n % 2 ^ 52, -1074, false⟩
  else ⟨2 ^ 52 + n % 2 ^ 52, (n / 2 ^ 52 : ℕ) - 1075, decide (n % 2 ^ 52 = 0 ∧ n / 2 ^ 52 > 1)⟩

theorem ofBits_eq (bits : UInt64) : ofBits bits = ofMagnitude (bits.toNat % 2 ^ 63) := by
  have hexponent : ((bits >>> 52) &&& 0x7FF).toNat = bits.toNat % 2 ^ 63 / 2 ^ 52 := by
    rw [UInt64.toNat_and, UInt64.toNat_shiftRight,
      show (0x7FF : UInt64).toNat = 2 ^ 11 - 1 from rfl, Nat.and_two_pow_sub_one_eq_mod,
      show (52 : UInt64).toNat % 64 = 52 from rfl, Nat.shiftRight_eq_div_pow]
    omega
  have hfraction : (bits &&& 0xFFFFFFFFFFFFF).toNat = bits.toNat % 2 ^ 63 % 2 ^ 52 := by
    rw [UInt64.toNat_and, show (0xFFFFFFFFFFFFF : UInt64).toNat = 2 ^ 52 - 1 from rfl,
      Nat.and_two_pow_sub_one_eq_mod]
    omega
  rw [ofBits, hexponent, hfraction]
  rfl

/-- How often the gap between neighbours has doubled. -/
def grade (n : ℕ) : ℕ := n / 2 ^ 52 - 1

theorem exponent_ofMagnitude (n : ℕ) : (ofMagnitude n).exponent = grade n - 1074 := by
  unfold ofMagnitude grade
  split
  · next h => rw [h]; rfl
  · dsimp only
    omega

theorem mantissa_ofMagnitude_lt (n : ℕ) : (ofMagnitude n).mantissa < 2 ^ 53 := by
  unfold ofMagnitude
  split <;> dsimp only <;> omega

theorem mantissa_ofMagnitude_pos {n : ℕ} (h : 0 < n) : 0 < (ofMagnitude n).mantissa := by
  unfold ofMagnitude
  split <;> dsimp only <;> omega

theorem grade_mono {m n : ℕ} (h : m ≤ n) : grade m ≤ grade n :=
  Nat.sub_le_sub_right (Nat.div_le_div_right h) 1

/-- Behind a power of two the gaps are wider, and the mantissa starts again. -/
theorem lowMantissa_of_grade_lt {m n : ℕ} (h : grade m < grade n) :
    2 ^ 54 - 1 ≤ (ofMagnitude n).lowMantissa := by
  unfold grade at h
  have hnormal : n / 2 ^ 52 ≠ 0 := by omega
  simp only [lowMantissa, ofMagnitude, if_neg hnormal]
  split
  · omega
  · next hwide =>
    rw [decide_eq_true_eq] at hwide
    omega

/-- Where the gaps have one width, the mantissas tell which number is greater, and the gap below
the greater is as wide as the one above. -/
theorem mantissa_lt_of_grade_eq {m n : ℕ} (h : m < n) (hgrade : grade m = grade n) :
    (ofMagnitude m).mantissa < (ofMagnitude n).mantissa ∧ (ofMagnitude n).narrow = false := by
  unfold grade at hgrade
  constructor
  · unfold ofMagnitude
    split <;> split <;> dsimp only <;> omega
  · unfold ofMagnitude
    split
    · rfl
    · dsimp only
      rw [decide_eq_false_iff_not]
      omega

/-- Between two numbers lies a halfway point, which at most one of them owns. -/
theorem high_le_low {m n : ℕ} (h : m < n) :
    (4 * (ofMagnitude m).mantissa + 2) * 2 ^ grade m ≤
        (ofMagnitude n).lowMantissa * 2 ^ grade n ∧
      ((ofMagnitude m).mantissa % 2 = 0 → (ofMagnitude n).mantissa % 2 = 0 →
        (4 * (ofMagnitude m).mantissa + 2) * 2 ^ grade m <
          (ofMagnitude n).lowMantissa * 2 ^ grade n) := by
  rcases (grade_mono h.le).lt_or_eq with hgrade | hgrade
  · have hlow := lowMantissa_of_grade_lt hgrade
    have hhigh := mantissa_ofMagnitude_lt m
    have hpower : 2 * 2 ^ grade m ≤ 2 ^ grade n := by
      rw [mul_comm, ← pow_succ]
      exact Nat.pow_le_pow_right two_pos hgrade
    have hbeyond : (2 ^ 55 - 2) * 2 ^ grade m ≤ (ofMagnitude n).lowMantissa * 2 ^ grade n :=
      calc (2 ^ 55 - 2) * 2 ^ grade m = (2 ^ 54 - 1) * (2 * 2 ^ grade m) := by ring
        _ ≤ (ofMagnitude n).lowMantissa * 2 ^ grade n := Nat.mul_le_mul hlow hpower
    refine ⟨(Nat.mul_le_mul_right _ (by omega)).trans hbeyond, fun heven _ => ?_⟩
    exact (Nat.mul_lt_mul_of_pos_right (by omega) (by positivity)).trans_le hbeyond
  · obtain ⟨hmantissa, hwide⟩ := mantissa_lt_of_grade_eq h hgrade
    rw [← hgrade, lowMantissa, hwide, if_neg Bool.false_ne_true]
    refine ⟨Nat.mul_le_mul_right _ (by omega), fun _ _ => ?_⟩
    exact Nat.mul_lt_mul_of_pos_right (by omega) (by positivity)

/-- A rational rounds to one number only. -/
theorem eq_of_owns {m n : ℕ} {v : ℚ} (hm : (ofMagnitude m).Owns v) (hn : (ofMagnitude n).Owns v) :
    m = n := by
  wlog hlt : m < n generalizing m n
  · rcases lt_trichotomy m n with h | h | h
    · exact absurd h hlt
    · exact h
    · exact (this hn hm h).symm
  exfalso
  have hscale : (0 : ℚ) < 2 ^ (-1076 : ℤ) := by positivity
  have hunit : ∀ k (a : ℕ), (a : ℚ) * 2 ^ ((ofMagnitude k).exponent - 2) =
      (a * 2 ^ grade k : ℕ) * 2 ^ (-1076 : ℤ) := by
    intro k a
    rw [exponent_ofMagnitude, show (grade k : ℤ) - 1074 - 2 = grade k + -1076 by ring,
      zpow_add₀ (by norm_num), zpow_natCast, ← mul_assoc, Nat.cast_mul, Nat.cast_pow,
      Nat.cast_ofNat]
  obtain ⟨hle, hstrict⟩ := high_le_low hlt
  have hends : (ofMagnitude m).high ≤ (ofMagnitude n).low := by
    rw [high, low, hunit, hunit]
    exact mul_le_mul_of_nonneg_right (by exact_mod_cast hle) hscale.le
  rcases hm.2 with hhigh | ⟨heven, hhigh⟩
  · rcases hn.1 with hlow | ⟨-, hlow⟩
    · exact lt_irrefl v (hhigh.trans_le (hends.trans hlow.le))
    · exact lt_irrefl v (hhigh.trans_le (hends.trans hlow.le))
  · rcases hn.1 with hlow | ⟨heven', hlow⟩
    · exact lt_irrefl v (hhigh.le.trans_lt (hends.trans_lt hlow))
    · have hends' : (ofMagnitude m).high < (ofMagnitude n).low := by
        rw [high, low, hunit, hunit]
        exact mul_lt_mul_of_pos_right (by exact_mod_cast hstrict heven heven') hscale
      exact lt_irrefl v (hhigh.le.trans_lt (hends'.trans_le hlow.le))

/-- Decimals of one worth are the shortest digits of one number only. -/
theorem eq_of_worth_shortest {a b : UInt64} (ha : 0 < a.toNat % 2 ^ 63) (hb : 0 < b.toNat % 2 ^ 63)
    (h : (ofBits a).shortest.worth = (ofBits b).shortest.worth) :
    a.toNat % 2 ^ 63 = b.toNat % 2 ^ 63 := by
  rw [ofBits_eq, ofBits_eq] at h
  have howns := readsBack_iff.mp (readsBack_shortest (mantissa_ofMagnitude_pos ha))
  have howns' := readsBack_iff.mp (readsBack_shortest (mantissa_ofMagnitude_pos hb))
  rw [h] at howns
  exact eq_of_owns howns howns'

theorem worth_shortest_pos {a : UInt64} (ha : 0 < a.toNat % 2 ^ 63) :
    0 < (ofBits a).shortest.worth := by
  rw [ofBits_eq]
  have hpos := mantissa_ofMagnitude_pos ha
  exact (readsBack_iff.mp (readsBack_shortest hpos)).pos hpos

end Binary
end ClassSchema.Decimal
