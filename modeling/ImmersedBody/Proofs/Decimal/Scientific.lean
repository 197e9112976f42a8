import ImmersedBody.Proofs.Decimal.Patterns

/-!
# Decimals as double precision numbers

`Float.ofScientific` takes digits and a power of ten.  A decimal with few digits and a small power
is one product or quotient of numbers that are exact; any other is computed with unbounded
integers.  Either way it is rounded once, so the result is the number whose magnitude captures the
decimal.
-/

open Float.Model Float.Model.UnpackedFloat

namespace ImmersedBody

namespace Magnitude

/-! ## Integers -/

/-- The magnitude of an integer with at most 53 bits. -/
def ofNat (n : ℕ) : Magnitude :=
  ⟨n * 2 ^ (52 - n.log2), n.log2 - 52, n * 2 ^ (52 - n.log2) == 2 ^ 52⟩

section

variable {n : ℕ}

theorem ofNat_value (small : n < 2 ^ 53) :
    ((ofNat n).significand : ℚ) * 2 ^ (ofNat n).exponent = n := by
  have bits : n.log2 ≤ 52 := by
    rcases Nat.eq_zero_or_pos n with rfl | positive
    · simp
    · exact Nat.le_of_lt_succ ((Nat.log2_lt positive.ne').mpr small)
  have power : ((2 ^ (52 - n.log2) : ℕ) : ℚ) * 2 ^ ((n.log2 : ℤ) - 52) = 1 := by
    rw [Nat.cast_pow, Nat.cast_two, ← zpow_natCast, ← zpow_add₀ two_ne_zero,
      ← zpow_zero (2 : ℚ)]
    congr 1
    omega
  rw [ofNat]
  push_cast at power ⊢
  rw [mul_assoc, power, mul_one]

theorem canonical_ofNat (positive : 0 < n) (small : n < 2 ^ 53) : (ofNat n).Canonical := by
  have bits : n.log2 ≤ 52 := Nat.le_of_lt_succ ((Nat.log2_lt positive.ne').mpr small)
  have low : 2 ^ n.log2 ≤ n := Nat.log2_self_le positive.ne'
  have high : n < 2 ^ (n.log2 + 1) := Nat.lt_log2_self
  have least : 2 ^ 52 ≤ n * 2 ^ (52 - n.log2) := by
    calc
      2 ^ 52 = 2 ^ n.log2 * 2 ^ (52 - n.log2) := by
        rw [← pow_add]
        congr 1
        omega
      _ ≤ n * 2 ^ (52 - n.log2) := Nat.mul_le_mul_right _ low
  have most : n * 2 ^ (52 - n.log2) < 2 ^ 53 := by
    calc
      n * 2 ^ (52 - n.log2) < 2 ^ (n.log2 + 1) * 2 ^ (52 - n.log2) :=
        Nat.mul_lt_mul_of_pos_right high (by positivity)
      _ = 2 ^ 53 := by
        rw [← pow_add]
        congr 1
        omega
  refine ⟨Nat.lt_of_lt_of_le (by decide) least, most, ?_, fun less => ?_, ?_⟩
  · show -1074 ≤ (n.log2 : ℤ) - 52
    omega
  · exact absurd least (Nat.not_le.mpr less)
  · show (n * 2 ^ (52 - n.log2) == 2 ^ 52) = true ↔
      n * 2 ^ (52 - n.log2) = 2 ^ 52 ∧ -1074 < (n.log2 : ℤ) - 52
    rw [beq_iff_eq, iff_self_and]
    omega

theorem round_ofNat (positive : 0 < n) (small : n < 2 ^ 53) :
    UnpackedFloat.round Format.binary64 .positive n 0 =
      .finite .positive (ofNat n).significand (ofNat n).exponent
        (canonical_ofNat positive small).pos := by
  have bits : n.log2 ≤ 52 := Nat.le_of_lt_succ ((Nat.log2_lt positive.ne').mpr small)
  have target : Format.binary64.targetExponent (totalExponent n 0) = (ofNat n).exponent := by
    rw [targetExponent_eq, totalExponent]
    show _ = (n.log2 : ℤ) - 52
    omega
  have decreased : decreaseExponent n 0 (ofNat n).exponent =
      ((ofNat n).significand, (ofNat n).exponent) := by
    have shift : (0 - ((n.log2 : ℤ) - 52)).toNat = 52 - n.log2 := by omega
    have last : (0 : ℤ) - ((52 - n.log2 : ℕ) : ℤ) = n.log2 - 52 := by omega
    simp only [decreaseExponent, ofNat, shift, last, Nat.shiftLeft_eq]
  have canonical := canonical_ofNat positive small
  have whole : Leaves .exact 0 := rfl
  rw [UnpackedFloat.round, target, decreased]
  exact (captures_self (ofNat n)).roundWithAccuracy canonical whole (by rw [add_zero])
    canonical.targetExponent.ge .positive

/-- An integer with at most 53 bits is converted exactly. -/
theorem unpack_toFloat (positive : 0 < n) (small : n < 2 ^ 53) :
    n.toUInt64.toFloat.toModel.unpack =
      .finite .positive (ofNat n).significand (ofNat n).exponent
        (canonical_ofNat positive small).pos := by
  have bits : n.log2 ≤ 52 := Nat.le_of_lt_succ ((Nat.log2_lt positive.ne').mpr small)
  have word : n.toUInt64.toNat = n := Nat.mod_eq_of_lt (small.trans (by decide))
  have order : compare (n : ℤ) 0 = .gt := Int.compare_eq_gt.mpr (by omega)
  have converted : n.toUInt64.toFloat.toModel.unpack =
      UnpackedFloat.unpack Format.binary64 (UnpackedFloat.pack Format.binary64
        (UnpackedFloat.ofNat Format.binary64 n.toUInt64.toNat)) := rfl
  rw [converted, word, UnpackedFloat.ofNat, UnpackedFloat.ofInt]
  simp only [UnpackedFloat.normalize, order, Int.toNat_natCast, round_ofNat positive small]
  apply (canonical_ofNat positive small).unpack_pack
  show (n.log2 : ℤ) - 52 ≤ 971
  omega

end

end Magnitude

/-! ## Powers of ten -/

/-- A number as it is stored is a power of ten. -/
def isPowerOfTen (power : ℕ) (x : Float) : Bool :=
  match Binary64.ofFloat x with
  | .finite false m =>
    -52 ≤ m.exponent && 2 ^ 52 ≤ m.significand &&
      m.significand * 2 ^ (m.exponent + 52).toNat == 10 ^ power * 2 ^ 52
  | _ => false

theorem isPowerOfTen_stored : ∀ power < 23,
    isPowerOfTen power (Float.exactlyRepresentablePowersOfTen[power]!) = true := by
  decide +kernel

theorem unpack_of_isPowerOfTen {power : ℕ} {x : Float} (stored : isPowerOfTen power x = true) :
    ∃ (significand : ℕ) (exponent : ℤ) (positive : 0 < significand),
      x.toModel.unpack = .finite .positive significand exponent positive ∧
        2 ^ 52 ≤ significand ∧ (significand : ℚ) * 2 ^ exponent = 10 ^ power := by
  have unpacked := unpack_toModel x
  rw [isPowerOfTen] at stored
  rcases value : Binary64.ofFloat x with _ | _ | ⟨_ | _, m⟩ <;> simp only [value] at stored
  · exact absurd stored Bool.false_ne_true
  · exact absurd stored Bool.false_ne_true
  · simp only [Bool.and_eq_true, decide_eq_true_eq, beq_iff_eq] at stored
    rcases stored with ⟨⟨least, long⟩, equal⟩
    have positive : 0 < m.significand := Nat.lt_of_lt_of_le (by decide) long
    rw [value, Binary64.unpacked, dif_neg positive.ne'] at unpacked
    refine ⟨m.significand, m.exponent, positive, unpacked, long, ?_⟩
    have sum : m.exponent = ((m.exponent + 52).toNat : ℤ) - (52 : ℕ) := by omega
    have cast : (m.significand : ℚ) * 2 ^ (m.exponent + 52).toNat = 10 ^ power * 2 ^ 52 := by
      exact_mod_cast equal
    rw [sum, zpow_sub₀ two_ne_zero, zpow_natCast, zpow_natCast, ← mul_div_assoc, cast]
    exact mul_div_cancel_right₀ _ (by norm_num)
  · exact absurd stored Bool.false_ne_true

/-! ## Decimals -/

namespace Magnitude

section

variable {m : Magnitude} {units : ℚ} {digits : ℕ} {scale : ℤ}

theorem Captures.pos (captures : m.Captures units) (canonical : m.Canonical) : 0 < units := by
  have one : (1 : ℚ) ≤ m.significand := by exact_mod_cast canonical.pos
  linarith [captures.low, m.reach_le]

/-- The range of values that round to a number. -/
theorem Captures.range (captures : m.Captures units) (canonical : m.Canonical)
    (most : m.exponent ≤ 971) :
    (2 : ℚ) ^ (-1075 : ℤ) ≤ units * 2 ^ m.exponent ∧ units * 2 ^ m.exponent < 2 ^ (1024 : ℤ) := by
  have scale : (0 : ℚ) < 2 ^ m.exponent := zpow_pos two_pos _
  have half : (2 : ℚ) ^ (-1 : ℤ) ≤ units := by
    have one : (1 : ℚ) ≤ m.significand := by exact_mod_cast canonical.pos
    norm_num
    linarith [captures.low, m.reach_le]
  have bounded : units < 2 ^ (53 : ℤ) := by
    have integral : (m.significand : ℚ) + 1 ≤ 2 ^ 53 := by exact_mod_cast canonical.below
    norm_num at integral ⊢
    linarith [captures.high]
  have least := canonical.least
  constructor
  · calc
      (2 : ℚ) ^ (-1075 : ℤ) ≤ 2 ^ ((-1 : ℤ) + m.exponent) :=
        zpow_le_zpow_right₀ one_le_two (by omega)
      _ = 2 ^ (-1 : ℤ) * 2 ^ m.exponent := zpow_add₀ two_ne_zero _ _
      _ ≤ units * 2 ^ m.exponent := by gcongr
  · calc
      units * 2 ^ m.exponent < 2 ^ (53 : ℤ) * 2 ^ m.exponent := by gcongr
      _ = 2 ^ (53 + m.exponent) := (zpow_add₀ two_ne_zero _ _).symm
      _ ≤ 2 ^ (1024 : ℤ) := zpow_le_zpow_right₀ one_le_two (by omega)

/-- A captured decimal is rounded to the magnitude, whatever its digits. -/
theorem Captures.unpacked_ofScientific (captures : m.Captures units) (canonical : m.Canonical)
    (most : m.exponent ≤ 971) (value : digits * (10 : ℚ) ^ scale = units * 2 ^ m.exponent) :
    UnpackedFloat.ofScientific Format.binary64 digits scale =
      .finite .positive m.significand m.exponent canonical.pos := by
  rcases captures.range canonical most with ⟨above, below⟩
  rw [← value] at above below
  have some : digits ≠ 0 := by
    rintro rfl
    rw [Nat.cast_zero, zero_mul] at above
    exact absurd above (not_le.mpr (by positivity))
  have positive := Nat.pos_of_ne_zero some
  have one : (1 : ℚ) ≤ digits := by exact_mod_cast positive
  have small : scale ≤ 1024 := by
    by_contra large
    have power : (2 : ℚ) ^ (1024 : ℤ) ≤ 10 ^ scale :=
      (zpow_le_zpow_right₀ one_le_two (by omega)).trans
        (zpow_le_zpow_left₀ (by omega) two_pos.le (by norm_num))
    have most : (10 : ℚ) ^ scale ≤ digits * 10 ^ scale := le_mul_of_one_le_left (by positivity) one
    exact absurd below (not_lt.mpr (power.trans most))
  have large : -(2048 + (digits.log2 : ℤ)) ≤ scale := by
    by_contra small
    have power : (10 : ℚ) ^ scale ≤ 2 ^ scale := by
      rcases Int.eq_ofNat_of_zero_le (by omega : 0 ≤ -scale) with ⟨count, equal⟩
      rw [neg_eq_iff_eq_neg.mp equal, zpow_neg, zpow_neg, zpow_natCast, zpow_natCast]
      gcongr
      norm_num
    have bits : (digits : ℚ) ≤ 2 ^ (((digits.log2 + 1 : ℕ) : ℤ)) := by
      rw [zpow_natCast]
      exact_mod_cast Nat.lt_log2_self.le
    have short : (2 : ℚ) ^ (-1075 : ℤ) ≤ 2 ^ (((digits.log2 + 1 : ℕ) : ℤ) + scale) := by
      rw [zpow_add₀ two_ne_zero]
      exact above.trans (mul_le_mul bits power (by positivity) (by positivity))
    rw [zpow_le_zpow_iff_right₀ one_lt_two] at short
    omega
  rw [UnpackedFloat.ofScientific, dif_neg some, if_neg (by show ¬ (2 : ℤ) ^ 11 < scale; omega),
    if_neg (by show ¬ scale < -((2 : ℤ) ^ 11 + digits.log2); omega)]
  split_ifs with up
  · have power : (10 : ℚ) ^ scale = ((10 ^ scale.toNat : ℕ) : ℚ) := by
      rw [Nat.cast_pow, Nat.cast_ofNat, ← zpow_natCast, Int.toNat_of_nonneg up]
    refine captures.mul canonical ?_ ?_ .positive .positive _ _
    · rw [← value, power, Nat.shiftLeft_eq]
      show ((digits * 2 ^ 53 : ℕ) : ℚ) * 2 ^ (-53 : ℤ) * (_ * 2 ^ (0 : ℤ)) = _
      push_cast
      norm_num
      ring
    · rw [Nat.shiftLeft_eq]
      show 2 ^ 53 ≤ digits * 2 ^ 53 * 10 ^ scale.toNat
      have ten : 0 < 10 ^ scale.toNat := by positivity
      nlinarith
  · have power : (10 : ℚ) ^ scale = ((10 ^ (-scale).toNat : ℕ) : ℚ)⁻¹ := by
      rw [Nat.cast_pow, Nat.cast_ofNat, ← zpow_natCast, Int.toNat_of_nonneg (by omega), zpow_neg,
        inv_inv]
    refine captures.div canonical ?_ .positive .positive _ _
    rw [← value, power, zpow_zero, mul_one, mul_one, div_eq_mul_inv]

/-- A captured decimal with few digits and a small power of ten. -/
theorem Captures.fast (captures : m.Captures units) (canonical : m.Canonical)
    (positive : 0 < digits) (small : digits < 2 ^ 53) {power : ℕ} (few : power < 23) (down : Bool)
    (value : (if down then (digits : ℚ) / 10 ^ power else digits * 10 ^ power) =
      units * 2 ^ m.exponent) :
    (if down then digits.toUInt64.toFloat / Float.exactlyRepresentablePowersOfTen[power]!
      else digits.toUInt64.toFloat * Float.exactlyRepresentablePowersOfTen[power]!) =
      canonical.number := by
  rcases unpack_of_isPowerOfTen (isPowerOfTen_stored power few) with
    ⟨significand, exponent, nonzero, unpacked, long, equal⟩
  have whole := ofNat_value small
  have first := unpack_toFloat positive small
  have fits : (ofNat digits).exponent ≤ 971 := by
    have bits := (Nat.log2_lt positive.ne').mpr small
    show (digits.log2 : ℤ) - 52 ≤ 971
    omega
  have normal : 2 ^ 52 ≤ (ofNat digits).significand := by
    by_contra less
    have least : (digits.log2 : ℤ) - 52 = -1074 :=
      (canonical_ofNat positive small).normal (Nat.lt_of_not_le less)
    omega
  cases down with
  | false =>
      have product : digits.toUInt64.toFloat * Float.exactlyRepresentablePowersOfTen[power]! =
        .ofModel (.pack (UnpackedFloat.mul Format.binary64 digits.toUInt64.toFloat.toModel.unpack
          (Float.exactlyRepresentablePowersOfTen[power]!).toModel.unpack)) := rfl
      rw [if_neg Bool.false_ne_true] at value ⊢
      rw [product, unpacked, first, captures.mul canonical ?_ ?_ .positive .positive]
      · rfl
      · rw [whole, equal, value]
      · nlinarith
  | true =>
      have quotient : digits.toUInt64.toFloat / Float.exactlyRepresentablePowersOfTen[power]! =
        .ofModel (.pack (UnpackedFloat.div Format.binary64 digits.toUInt64.toFloat.toModel.unpack
          (Float.exactlyRepresentablePowersOfTen[power]!).toModel.unpack)) := rfl
      rw [if_pos rfl] at value ⊢
      rw [quotient, unpacked, first, captures.div canonical ?_ .positive .positive]
      · rfl
      · rw [whole, equal, value]

/-- A captured decimal is the number with the magnitude, on either path of the conversion. -/
theorem Captures.ofScientific_eq (captures : m.Captures units) (canonical : m.Canonical)
    (most : m.exponent ≤ 971) (down : Bool) (power : ℕ)
    (value : (if down then (digits : ℚ) / 10 ^ power else digits * 10 ^ power) =
      units * 2 ^ m.exponent) :
    Float.ofScientific digits down power = canonical.number := by
  have positive : 0 < digits := by
    rcases Nat.eq_zero_or_pos digits with rfl | positive
    · have some := mul_pos (captures.pos canonical) (zpow_pos two_pos m.exponent)
      rw [← value] at some
      simp at some
    · exact positive
  rw [Float.ofScientific]
  by_cases short : digits < 2 ^ 53 ∧ power ≤ 22
  · have stored := captures.fast canonical positive short.1 (Nat.lt_succ_of_le short.2) down value
    rw [getElem!_pos] at stored
    rw [dif_pos short]
    exact stored
  · rw [dif_neg short]
    cases down with
    | false =>
        rw [if_neg Bool.false_ne_true, ← zpow_natCast] at value
        show Float.ofModel (.pack (UnpackedFloat.ofScientific Format.binary64 digits power)) = _
        rw [captures.unpacked_ofScientific canonical most value]
        rfl
    | true =>
        rw [if_pos rfl, div_eq_mul_inv, ← zpow_natCast, ← zpow_neg] at value
        have same : Int.negOfNat power = -(power : ℤ) := Int.negOfNat_eq
        show Float.ofModel (.pack (UnpackedFloat.ofScientific Format.binary64 digits
          (Int.negOfNat power))) = _
        rw [same, captures.unpacked_ofScientific canonical most value]
        rfl

/-- A decimal with a positive or a negative power of ten. -/
theorem Captures.ofScientific (captures : m.Captures units) (canonical : m.Canonical)
    (most : m.exponent ≤ 971) (value : digits * (10 : ℚ) ^ scale = units * 2 ^ m.exponent) :
    (if scale < 0 then Float.ofScientific digits true scale.natAbs
      else Float.ofScientific digits false scale.natAbs) = canonical.number := by
  split_ifs with down
  · apply captures.ofScientific_eq canonical most
    rw [if_pos rfl, ← value, ← zpow_natCast, Int.ofNat_natAbs_of_nonpos down.le, zpow_neg,
      div_inv_eq_mul]
  · apply captures.ofScientific_eq canonical most
    rw [if_neg Bool.false_ne_true, ← value, ← zpow_natCast, Int.natAbs_of_nonneg (not_lt.mp down)]

end

end Magnitude

end ImmersedBody
