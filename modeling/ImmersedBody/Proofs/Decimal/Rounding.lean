import Mathlib
import ImmersedBody.Decimal.Shortest

/-!
# Rounding to double precision

Products and quotients of floating point numbers come as a mantissa, an exponent, and an account
of the part of a unit that was cut off.  Such a result has an exact rational value, and rounding
takes it to the one magnitude whose interval of values it lies in.

`Magnitude.Captures` is that interval.  It is stated in units of the last place of the magnitude,
and below a power of two it reaches only half as far.  The main results say that rounding,
multiplication and division yield the magnitude that captures the exact result.
-/

open Float.Model Float.Model.UnpackedFloat

namespace ImmersedBody

/-! ## Mantissas with residual bits -/

/-- What an accuracy says about the part of a unit that was cut off. -/
def Leaves : Accuracy → ℚ → Prop
  | .exact, part => part = 0
  | .inexact .lt, part => 0 < part ∧ part < 1 / 2
  | .inexact .eq, part => part = 1 / 2
  | .inexact .gt, part => 1 / 2 < part ∧ part < 1

theorem leaves_bounds {accuracy : Accuracy} {part : ℚ} (leaves : Leaves accuracy part) :
    0 ≤ part ∧ part < 1 := by
  rcases accuracy with _ | _ | _ | _ <;> simp only [Leaves] at leaves <;>
    constructor <;> linarith

/-- A mantissa with its residual bits stands for a value, in units of its last place. -/
def Represents (em : ExtendedMantissa) (units : ℚ) : Prop :=
  Leaves em.accuracy (units - em.mantissa)

theorem represents_ofMantissaAndAccuracy {accuracy : Accuracy} {part : ℚ} (mantissa : ℕ)
    (leaves : Leaves accuracy part) :
    Represents (.ofMantissaAndAccuracy mantissa accuracy) (mantissa + part) := by
  have cut : (mantissa : ℚ) + part - mantissa = part := add_sub_cancel_left _ _
  rcases accuracy with _ | _ | _ | _ <;>
    simpa only [Represents, ExtendedMantissa.ofMantissaAndAccuracy, ExtendedMantissa.accuracy,
      cut] using leaves

/-- Dropping the last bit halves the value. -/
theorem Represents.shiftRightOne {em : ExtendedMantissa} {units : ℚ}
    (represents : Represents em units) : Represents em.shiftRightOne (units / 2) := by
  rcases em with ⟨mantissa, roundBit, stickyBit⟩
  have halves : ((mantissa % 2 : ℕ) : ℚ) + 2 * ((mantissa / 2 : ℕ) : ℚ) = mantissa := by
    exact_mod_cast Nat.mod_add_div mantissa 2
  have odd : (1 != 0) = true := rfl
  rcases Nat.mod_two_eq_zero_or_one mantissa with parity | parity <;>
    rw [parity] at halves <;> push_cast at halves <;>
    cases roundBit <;> cases stickyBit <;>
    simp only [Represents, ExtendedMantissa.shiftRightOne, ExtendedMantissa.accuracy, Leaves,
      parity, odd, bne_self_eq_false, Bool.or_self, Bool.or_true, Bool.or_false] at represents ⊢ <;>
    first
      | linarith
      | constructor <;> linarith

theorem Represents.shiftRight {em : ExtendedMantissa} {units : ℚ}
    (represents : Represents em units) (count : ℕ) :
    Represents (em >>> count) (units / 2 ^ count) := by
  show Represents (count.repeat ExtendedMantissa.shiftRightOne em) _
  induction count with
  | zero =>
      simpa [Nat.repeat] using represents
  | succ count ih =>
      rw [Nat.repeat, pow_succ, ← div_div]
      exact ih.shiftRightOne

theorem le_of_cast_lt {a b : ℕ} (less : (a : ℚ) < b + 1) : a ≤ b :=
  Nat.le_of_lt_succ (by exact_mod_cast less)

/-- Rounding takes the nearest integer, and of two the even one. -/
theorem Represents.roundedMantissa {em : ExtendedMantissa} {units : ℚ} {nearest : ℕ}
    (represents : Represents em units) (low : (nearest : ℚ) - 1 / 2 ≤ units)
    (high : units ≤ nearest + 1 / 2)
    (even : units = nearest - 1 / 2 ∨ units = nearest + 1 / 2 → nearest % 2 = 0) :
    em.roundedMantissa = nearest := by
  rcases em with ⟨mantissa, roundBit, stickyBit⟩
  cases roundBit <;> cases stickyBit <;>
    simp only [Represents, ExtendedMantissa.accuracy, Leaves] at represents <;>
    simp only [ExtendedMantissa.roundedMantissa, ExtendedMantissa.accuracy,
      Accuracy.roundToNearestEven]
  · exact le_antisymm (le_of_cast_lt (by linarith)) (le_of_cast_lt (by linarith))
  · exact le_antisymm (le_of_cast_lt (by linarith)) (le_of_cast_lt (by linarith))
  · have above : mantissa ≤ nearest := le_of_cast_lt (by linarith)
    have below : nearest ≤ mantissa + 1 := le_of_cast_lt (by push_cast; linarith)
    have tie : nearest % 2 = 0 := by
      rcases Nat.eq_or_lt_of_le above with same | less
      · subst same
        exact even (.inr (by linarith))
      · have next : nearest = mantissa + 1 := by omega
        subst next
        push_cast at even
        exact even (.inl (by linarith))
    omega
  · exact le_antisymm (le_of_cast_lt (by push_cast; linarith))
      (le_of_cast_lt (by push_cast; linarith))

/-! ## Magnitudes -/

namespace Magnitude

/-- A magnitude as it is stored: the significand has 53 bits, or fewer at the least exponent. -/
structure Canonical (m : Magnitude) : Prop where
  pos : 0 < m.significand
  below : m.significand < 2 ^ 53
  least : -1074 ≤ m.exponent
  normal : m.significand < 2 ^ 52 → m.exponent = -1074
  narrow : m.narrowBelow = true ↔ m.significand = 2 ^ 52 ∧ -1074 < m.exponent

/-- Half the distance to the next smaller number, in units of the last place. -/
def reach (m : Magnitude) : ℚ :=
  if m.narrowBelow then 1 / 4 else 1 / 2

/-- A value in units of the last place rounds to the magnitude. -/
structure Captures (m : Magnitude) (units : ℚ) : Prop where
  low : m.significand - m.reach ≤ units
  high : units ≤ m.significand + 1 / 2
  even : units = m.significand - m.reach ∨ units = m.significand + 1 / 2 →
    m.significand % 2 = 0

variable {m : Magnitude} {units : ℚ}

theorem reach_le (m : Magnitude) : m.reach ≤ 1 / 2 := by
  rw [reach]
  split_ifs <;> norm_num

theorem reach_pos (m : Magnitude) : 0 < m.reach := by
  rw [reach]
  split_ifs <;> norm_num

/-- A magnitude captures its own value. -/
theorem captures_self (m : Magnitude) : m.Captures m.significand where
  low := by linarith [m.reach_pos]
  high := by linarith
  even := by
    rintro (equal | equal) <;> linarith [m.reach_pos]

end Magnitude

/-! ## The exponent of a rounded result -/

section

variable {mantissa : ℕ} {exponent bound : ℤ} {part : ℚ}

theorem targetExponent_eq (total : ℤ) :
    Format.binary64.targetExponent total = max (total - 53) (-1074) :=
  rfl

theorem zpow_two_lt {a b : ℤ} : (2 : ℚ) ^ a < 2 ^ b ↔ a < b :=
  zpow_lt_zpow_iff_right₀ one_lt_two

theorem totalExponent_le (positive : 0 < mantissa) (nonneg : 0 ≤ part)
    (less : (mantissa + part) * 2 ^ exponent < (2 : ℚ) ^ bound) :
    totalExponent mantissa exponent ≤ bound := by
  have digits : (2 : ℚ) ^ mantissa.log2 ≤ mantissa := by
    exact_mod_cast Nat.log2_self_le positive.ne'
  have scale : (0 : ℚ) < 2 ^ exponent := zpow_pos two_pos exponent
  have power : (2 : ℚ) ^ ((mantissa.log2 : ℤ) + exponent) < 2 ^ bound := by
    rw [zpow_add₀ two_ne_zero, zpow_natCast]
    nlinarith
  rw [zpow_two_lt] at power
  rw [totalExponent]
  omega

theorem lt_totalExponent (cut : part < 1)
    (reaches : (2 : ℚ) ^ bound ≤ (mantissa + part) * 2 ^ exponent) :
    bound < totalExponent mantissa exponent := by
  have digits : (mantissa : ℚ) + 1 ≤ 2 ^ (mantissa.log2 + 1) := by
    exact_mod_cast Nat.lt_log2_self
  have scale : (0 : ℚ) < 2 ^ exponent := zpow_pos two_pos exponent
  have power : (2 : ℚ) ^ bound < 2 ^ (((mantissa.log2 + 1 : ℕ) : ℤ) + exponent) := by
    rw [zpow_add₀ two_ne_zero, zpow_natCast]
    nlinarith
  rw [zpow_two_lt] at power
  exact_mod_cast power

end

namespace Magnitude

variable {m : Magnitude} {units part : ℚ} {mantissa : ℕ} {exponent : ℤ}

/-- A captured value below a power of two is just below the least significand. -/
theorem Captures.significand_eq (captures : m.Captures units) (canonical : m.Canonical)
    (least : -1074 < m.exponent) (less : units < 2 ^ 52) : m.significand = 2 ^ 52 := by
  have normal : 2 ^ 52 ≤ m.significand := by
    by_contra small
    have := canonical.normal (Nat.lt_of_not_le small)
    omega
  have near : m.significand ≤ 2 ^ 52 := by
    apply le_of_cast_lt
    push_cast
    linarith [captures.low, m.reach_le]
  exact le_antisymm near normal

/--
The exponent to which a captured value is cut before it is rounded: that of the magnitude, or the
next smaller one for a value just below a power of two.
-/
theorem Captures.targetExponent (captures : m.Captures units) (canonical : m.Canonical)
    (nonneg : 0 ≤ part) (cut : part < 1)
    (value : (mantissa + part) * 2 ^ exponent = units * 2 ^ m.exponent)
    (fine : exponent ≤ Format.binary64.targetExponent (totalExponent mantissa exponent)) :
    Format.binary64.targetExponent (totalExponent mantissa exponent) = m.exponent ∨
      (Format.binary64.targetExponent (totalExponent mantissa exponent) = m.exponent - 1 ∧
        m.significand = 2 ^ 52 ∧ m.narrowBelow = true ∧ units < 2 ^ 52) := by
  have scale : (0 : ℚ) < 2 ^ m.exponent := zpow_pos two_pos _
  have least := canonical.least
  have scaled (bits : ℕ) : (2 : ℚ) ^ ((bits : ℤ) + m.exponent) = 2 ^ bits * 2 ^ m.exponent := by
    rw [zpow_add₀ two_ne_zero, zpow_natCast]
  have reaches (bits : ℕ) (enough : (2 : ℚ) ^ bits ≤ units) :
      bits + m.exponent < totalExponent mantissa exponent := by
    apply lt_totalExponent cut
    rw [value, scaled]
    exact mul_le_mul_of_nonneg_right enough scale.le
  have stays (bits : ℕ) (less : units < (2 : ℚ) ^ bits) (positive : 0 < mantissa) :
      totalExponent mantissa exponent ≤ bits + m.exponent := by
    apply totalExponent_le positive nonneg
    rw [value, scaled]
    exact mul_lt_mul_of_pos_right less scale
  -- An empty mantissa is only left by the quotients below the least exponent.
  have empty : mantissa = 0 → totalExponent mantissa exponent ≤ -1073 := by
    rintro rfl
    rw [targetExponent_eq] at fine
    rw [totalExponent, Nat.log2_zero] at fine ⊢
    omega
  have bounded : units < 2 ^ 53 := by
    have integral : (m.significand : ℚ) + 1 ≤ 2 ^ 53 := by exact_mod_cast canonical.below
    linarith [captures.high]
  have most : totalExponent mantissa exponent ≤ 53 + m.exponent := by
    rcases Nat.eq_zero_or_pos mantissa with none | positive
    · have := empty none
      omega
    · exact stays 53 bounded positive
  rw [targetExponent_eq] at fine ⊢
  rcases le_or_gt ((2 : ℚ) ^ 52) units with reached | less
  · have := reaches 52 reached
    omega
  · have small : totalExponent mantissa exponent ≤ 52 + m.exponent := by
      rcases Nat.eq_zero_or_pos mantissa with none | positive
      · have := empty none
        omega
      · exact stays 52 less positive
    rcases eq_or_lt_of_le least with equal | above
    · omega
    · have power := captures.significand_eq canonical above less
      have half : (2 : ℚ) ^ 51 ≤ units := by
        have low := captures.low
        rw [power] at low
        push_cast at low
        linarith [m.reach_le]
      have := reaches 51 half
      refine .inr ⟨by omega, power, canonical.narrow.mpr ⟨power, above⟩, less⟩

/-- A canonical significand keeps its exponent when it is cut. -/
theorem Canonical.targetExponent (canonical : m.Canonical) :
    Format.binary64.targetExponent (totalExponent m.significand m.exponent) = m.exponent := by
  have least := canonical.least
  have most : m.significand.log2 < 53 := (Nat.log2_lt canonical.pos.ne').mpr canonical.below
  rw [targetExponent_eq, totalExponent]
  rcases Nat.lt_or_ge m.significand (2 ^ 52) with subnormal | normal
  · have := canonical.normal subnormal
    omega
  · have := (Nat.le_log2 canonical.pos.ne').mpr normal
    omega

theorem shiftToExponent_of_le (mantissa : ℕ) (accuracy : Accuracy) {target : ℤ}
    (fine : exponent ≤ target) :
    shiftToExponent mantissa exponent accuracy target =
      (ExtendedMantissa.ofMantissaAndAccuracy mantissa accuracy >>> (target - exponent).toNat,
        target) := by
  rw [shiftToExponent]
  congr 1
  omega

theorem represents_shifted (mantissa : ℕ) {accuracy : Accuracy} {target : ℤ}
    (leaves : Leaves accuracy part) (fine : exponent ≤ target) :
    Represents (ExtendedMantissa.ofMantissaAndAccuracy mantissa accuracy >>>
      (target - exponent).toNat) ((mantissa + part) * 2 ^ exponent / 2 ^ target) := by
  have shifted := (represents_ofMantissaAndAccuracy mantissa leaves).shiftRight
    (target - exponent).toNat
  have power : (2 : ℚ) ^ target = 2 ^ (target - exponent).toNat * 2 ^ exponent := by
    rw [← zpow_natCast, ← zpow_add₀ two_ne_zero]
    congr 1
    omega
  rw [power, mul_div_mul_right _ _ (zpow_ne_zero _ two_ne_zero)]
  exact shifted

/-- Rounding, once the exponent, the rounded mantissa and the cut behind it are known. -/
theorem roundWithAccuracy_eq {accuracy : Accuracy} {nearest last : ℕ} {middle final : ℤ}
    (sign : Sign)
    (target : Format.binary64.targetExponent (totalExponent mantissa exponent) = middle)
    (fine : exponent ≤ middle)
    (rounded : (ExtendedMantissa.ofMantissaAndAccuracy mantissa accuracy >>>
      (middle - exponent).toNat).roundedMantissa = nearest)
    (again : shiftToTargetExponent Format.binary64 nearest middle .exact =
      (⟨last, false, false⟩, final))
    (positive : 0 < last) :
    roundWithAccuracy Format.binary64 sign mantissa exponent accuracy =
      .finite sign last final positive := by
  have cut : shiftToTargetExponent Format.binary64 mantissa exponent accuracy =
      (ExtendedMantissa.ofMantissaAndAccuracy mantissa accuracy >>> (middle - exponent).toNat,
        middle) := by
    rw [shiftToTargetExponent, target, shiftToExponent_of_le mantissa accuracy fine]
  simp only [roundWithAccuracy, cut, rounded, again]
  exact dif_neg positive.ne'

theorem Canonical.shiftToTargetExponent (canonical : m.Canonical) :
    shiftToTargetExponent Format.binary64 m.significand m.exponent .exact =
      (⟨m.significand, false, false⟩, m.exponent) := by
  rw [Float.Model.UnpackedFloat.shiftToTargetExponent, canonical.targetExponent,
    shiftToExponent_of_le _ _ le_rfl, sub_self]
  rfl

/-- A mantissa that rounding made too long is cut once more. -/
theorem shiftToTargetExponent_carry {last : ℤ} (least : -1074 < last) :
    shiftToTargetExponent Format.binary64 (2 ^ 53) (last - 1) .exact =
      (⟨2 ^ 52, false, false⟩, last) := by
  have target : Format.binary64.targetExponent (totalExponent (2 ^ 53) (last - 1)) = last := by
    rw [targetExponent_eq, totalExponent, Nat.log2_two_pow]
    omega
  have step : (last - (last - 1)).toNat = 1 := by omega
  rw [Float.Model.UnpackedFloat.shiftToTargetExponent, target,
    shiftToExponent_of_le _ _ (by omega), step]
  rfl

/-- Rounding yields the magnitude that captures the exact value. -/
theorem Captures.roundWithAccuracy (captures : m.Captures units) (canonical : m.Canonical)
    {accuracy : Accuracy} (leaves : Leaves accuracy part)
    (value : (mantissa + part) * 2 ^ exponent = units * 2 ^ m.exponent)
    (fine : exponent ≤ Format.binary64.targetExponent (totalExponent mantissa exponent))
    (sign : Sign) :
    roundWithAccuracy Format.binary64 sign mantissa exponent accuracy =
      .finite sign m.significand m.exponent canonical.pos := by
  have stands := represents_shifted mantissa leaves fine
  rw [value] at stands
  rcases captures.targetExponent canonical (leaves_bounds leaves).1 (leaves_bounds leaves).2 value
    fine with target | ⟨target, power, narrow, less⟩
  · rw [target] at stands fine
    rw [mul_div_cancel_right₀ _ (zpow_ne_zero _ two_ne_zero)] at stands
    have rounded := stands.roundedMantissa (by linarith [captures.low, m.reach_le]) captures.high
      (by
        rintro (equal | equal)
        · have reach : m.reach = 1 / 2 := by linarith [captures.low, m.reach_le]
          exact captures.even (.inl (by rw [reach, equal]))
        · exact captures.even (.inr equal))
    exact roundWithAccuracy_eq sign target fine rounded canonical.shiftToTargetExponent
      canonical.pos
  · have quarter : m.reach = 1 / 4 := by rw [reach, if_pos narrow]
    have low := captures.low
    rw [quarter, power] at low
    push_cast at low
    rw [target] at stands fine
    rw [zpow_sub_one₀ two_ne_zero, ← div_eq_mul_inv, div_div_eq_mul_div,
      mul_right_comm, mul_div_cancel_right₀ _ (zpow_ne_zero _ two_ne_zero)] at stands
    have rounded : _ = 2 ^ 53 := stands.roundedMantissa (by push_cast; linarith)
      (by push_cast; linarith) (fun _ => rfl)
    simp only [power]
    exact roundWithAccuracy_eq sign target fine rounded
      (shiftToTargetExponent_carry (canonical.narrow.mp narrow).2) (by decide)

/-! ## Products and quotients -/

section

variable {first second : ℕ} {scale scale' : ℤ}

/-- A product with enough bits is rounded to the magnitude that captures it. -/
theorem Captures.mul (captures : m.Captures units) (canonical : m.Canonical)
    (value : (first * 2 ^ scale) * (second * 2 ^ scale') = units * 2 ^ m.exponent)
    (long : 2 ^ 53 ≤ first * second) (sign sign' : Sign) (positive : 0 < first)
    (positive' : 0 < second) :
    mul Format.binary64 (.finite sign first scale positive)
        (.finite sign' second scale' positive') =
      .finite (sign * sign') m.significand m.exponent canonical.pos := by
  have whole : Leaves .exact 0 := rfl
  refine captures.roundWithAccuracy canonical whole ?_ ?_ _
  · rw [← value, zpow_add₀ two_ne_zero]
    push_cast
    ring
  · have bits := (Nat.le_log2 (Nat.mul_pos positive positive').ne').mpr long
    rw [targetExponent_eq, totalExponent]
    omega

/-- The accuracy of a quotient says what its remainder amounts to. -/
theorem leaves_accuracyOfFraction {remainder : ℕ} (proper : remainder < second) :
    Leaves (accuracyOfFraction remainder second) (remainder / second) := by
  have positive : (0 : ℚ) < second := by exact_mod_cast Nat.zero_lt_of_lt proper
  have whole : (remainder : ℚ) < second := by exact_mod_cast proper
  rw [accuracyOfFraction]
  split_ifs with none
  · rw [none, Nat.cast_zero, zero_div]
    rfl
  · have some : (0 : ℚ) < remainder := by exact_mod_cast Nat.pos_of_ne_zero none
    rcases order : compare (2 * remainder) second
    · have less : (2 * remainder : ℚ) < second := by exact_mod_cast Nat.compare_eq_lt.mp order
      constructor
      · positivity
      · rw [div_lt_div_iff₀ positive two_pos]
        linarith
    · have equal : (2 * remainder : ℚ) = second := by exact_mod_cast Nat.compare_eq_eq.mp order
      show (remainder : ℚ) / second = 1 / 2
      rw [div_eq_div_iff positive.ne' two_ne_zero]
      linarith
    · have more : (second : ℚ) < 2 * remainder := by exact_mod_cast Nat.compare_eq_gt.mp order
      constructor
      · rw [div_lt_div_iff₀ two_pos positive]
        linarith
      · rw [div_lt_one positive]
        exact whole

/-- The exponent of a quotient is at least the difference of the exponents. -/
theorem zpow_totalExponent_le (positive : 0 < first) (positive' : 0 < second) :
    (2 : ℚ) ^ (totalExponent first scale - totalExponent second scale' - 1) ≤
      (first * 2 ^ scale) / (second * 2 ^ scale') := by
  have digits : (2 : ℚ) ^ first.log2 ≤ first := by exact_mod_cast Nat.log2_self_le positive.ne'
  have digits' : (second : ℚ) ≤ 2 ^ (second.log2 + 1) := by exact_mod_cast Nat.lt_log2_self.le
  have below : (0 : ℚ) < second * 2 ^ scale' := by positivity
  have total : totalExponent first scale - totalExponent second scale' - 1 =
      ((first.log2 : ℕ) : ℤ) + scale - (((second.log2 + 1 : ℕ) : ℤ) + scale') := by
    simp only [totalExponent]
    push_cast
    ring
  rw [total, zpow_sub₀ two_ne_zero, zpow_add₀ two_ne_zero, zpow_add₀ two_ne_zero, zpow_natCast,
    zpow_natCast]
  gcongr

/-- A quotient is rounded to the magnitude that captures it. -/
theorem Captures.div (captures : m.Captures units) (canonical : m.Canonical)
    (value : (first * 2 ^ scale) / (second * 2 ^ scale') = units * 2 ^ m.exponent)
    (sign sign' : Sign) (positive : 0 < first) (positive' : 0 < second) :
    div Format.binary64 (.finite sign first scale positive)
        (.finite sign' second scale' positive') =
      .finite (sign / sign') m.significand m.exponent canonical.pos := by
  have divisor : (second : ℚ) ≠ 0 := by exact_mod_cast positive'.ne'
  let difference := totalExponent first scale - totalExponent second scale'
  let last := min (scale - scale') (Format.binary64.targetExponent difference)
  let shifted := first <<< (scale - scale' - last).toNat
  have least : last ≤ scale - scale' := min_le_left _ _
  have cut : (shifted % second : ℕ) / (second : ℚ) < 1 := by
    rw [div_lt_one (by exact_mod_cast positive')]
    exact_mod_cast Nat.mod_lt _ positive'
  have exact : (((shifted / second : ℕ) : ℚ) + (shifted % second : ℕ) / second) * 2 ^ last =
      (first * 2 ^ scale) / (second * 2 ^ scale') := by
    have parts : ((shifted / second : ℕ) : ℚ) * second + (shifted % second : ℕ) = shifted := by
      exact_mod_cast Nat.div_add_mod' shifted second
    have power : (shifted : ℚ) * 2 ^ last = first * 2 ^ (scale - scale') := by
      have sum : scale - scale' = ((scale - scale' - last).toNat : ℤ) + last := by omega
      rw [sum, zpow_add₀ two_ne_zero, zpow_natCast]
      push_cast [shifted, Nat.shiftLeft_eq]
      ring
    calc
      _ = (shifted : ℚ) * 2 ^ last / second := by
        rw [← parts]
        field_simp
      _ = first * (2 ^ scale / 2 ^ scale') / second := by
        rw [power, zpow_sub₀ two_ne_zero]
      _ = _ := by
        field_simp
  refine captures.roundWithAccuracy canonical (leaves_accuracyOfFraction (Nat.mod_lt _ positive'))
    (exact.trans value) ?_ _
  have reached := lt_totalExponent cut ((zpow_totalExponent_le positive positive').trans exact.ge)
  have below : last ≤ Format.binary64.targetExponent difference := min_le_right _ _
  rw [targetExponent_eq] at below ⊢
  omega

end

end Magnitude

end ImmersedBody
