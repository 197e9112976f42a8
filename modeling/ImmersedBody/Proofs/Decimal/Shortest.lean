import ImmersedBody.Proofs.Decimal.Rounding

/-!
# The fewest digits read back

On a decimal grid that is finer than the interval of values that round to a number, one of the two
neighbours of the number lies in that interval.  Seventeen digits make a grid that is fine enough
for every double precision number, so the search for the fewest digits always finds some, and what
it finds rounds to the number.
-/

namespace ImmersedBody

/-! ## Numbers of digits -/

theorem lt_pow_digitCount (n : ℕ) : n < 10 ^ Decimal.digitCount n :=
  (Nat.length_toDigits_le_iff (by decide) Nat.length_toDigits_pos).mp le_rfl

theorem pow_digitCount_le {n : ℕ} (positive : 0 < n) : 10 ^ (Decimal.digitCount n - 1) ≤ n := by
  by_contra less
  rcases Nat.eq_zero_or_pos (Decimal.digitCount n - 1) with one | more
  · rw [one] at less
    omega
  · have fewer := (Nat.length_toDigits_le_iff (by decide) more).mpr (Nat.lt_of_not_le less)
    have : Decimal.digitCount n ≤ Decimal.digitCount n - 1 := fewer
    omega

theorem digitCount_pos (n : ℕ) : 0 < Decimal.digitCount n :=
  Nat.length_toDigits_pos

/-- The value of a decimal. -/
def Decimal.value (d : Decimal) : ℚ :=
  d.significand * 10 ^ d.exponent

namespace Magnitude

variable {m : Magnitude}

/-- The value of a magnitude. -/
def value (m : Magnitude) : ℚ :=
  m.significand * 2 ^ m.exponent

/-! ## Quotients -/

theorem quotient_pos (m : Magnitude) (quarters : ℕ) (power : ℤ) :
    0 < (m.quotient quarters power).2 := by
  simp only [quotient, Nat.pow_eq]
  positivity

theorem zpow_toNat {base : ℚ} (nonzero : base ≠ 0) (exponent : ℤ) :
    base ^ exponent = base ^ exponent.toNat / base ^ (-exponent).toNat := by
  rw [← zpow_natCast, ← zpow_natCast, ← zpow_sub₀ nonzero]
  congr 1
  omega

theorem quotient_value (m : Magnitude) (quarters : ℕ) (power : ℤ) :
    ((m.quotient quarters power).1 : ℚ) / (m.quotient quarters power).2 =
      quarters / 4 * 2 ^ m.exponent / 10 ^ power := by
  have four : (2 : ℚ) ^ m.exponent = 4 * 2 ^ (m.exponent - 2) := by
    rw [zpow_sub₀ two_ne_zero]
    ring
  rw [four, zpow_toNat two_ne_zero (m.exponent - 2), zpow_toNat (by norm_num) power]
  simp only [quotient, Nat.pow_eq]
  push_cast
  field_simp

/-- The place of a candidate on a decimal grid, in units of the last place of the magnitude. -/
def place (m : Magnitude) (power : ℤ) (candidate : ℕ) : ℚ :=
  candidate * 10 ^ power / 2 ^ m.exponent

section

variable {power : ℤ} {quarters candidate : ℕ}

theorem quotient_le_iff :
    (m.quotient quarters power).1 ≤ candidate * (m.quotient quarters power).2 ↔
      (quarters : ℚ) / 4 ≤ m.place power candidate := by
  have denominator : (0 : ℚ) < (m.quotient quarters power).2 := by
    exact_mod_cast m.quotient_pos quarters power
  rw [← Nat.cast_le (α := ℚ), Nat.cast_mul, ← div_le_iff₀ denominator, quotient_value, place,
    div_le_iff₀ (by positivity), le_div_iff₀ (by positivity)]

theorem le_quotient_iff :
    candidate * (m.quotient quarters power).2 ≤ (m.quotient quarters power).1 ↔
      m.place power candidate ≤ (quarters : ℚ) / 4 := by
  have denominator : (0 : ℚ) < (m.quotient quarters power).2 := by
    exact_mod_cast m.quotient_pos quarters power
  rw [← Nat.cast_le (α := ℚ), Nat.cast_mul, ← le_div_iff₀ denominator, quotient_value, place,
    div_le_iff₀ (by positivity), le_div_iff₀ (by positivity)]

theorem quotient_lt_iff :
    (m.quotient quarters power).1 < candidate * (m.quotient quarters power).2 ↔
      (quarters : ℚ) / 4 < m.place power candidate := by
  rw [← Nat.not_le, le_quotient_iff, not_le]

theorem lt_quotient_iff :
    candidate * (m.quotient quarters power).2 < (m.quotient quarters power).1 ↔
      m.place power candidate < (quarters : ℚ) / 4 := by
  rw [← Nat.not_le, quotient_le_iff, not_le]

/-- The lower bound of what reads back, in quarters of a unit of the last place. -/
def lowQuarters (m : Magnitude) : ℕ :=
  4 * m.significand - (if m.narrowBelow then 1 else 2)

theorem lowQuarters_div (positive : 0 < m.significand) :
    (m.lowQuarters : ℚ) / 4 = m.significand - m.reach := by
  rw [lowQuarters, reach]
  split_ifs
  · rw [Nat.cast_sub (by omega)]
    push_cast
    ring
  · rw [Nat.cast_sub (by omega)]
    push_cast
    ring

theorem readsBack_eq :
    m.readsBack power candidate =
      if m.significand % 2 = 0 then
        decide ((m.quotient m.lowQuarters power).1 ≤
            candidate * (m.quotient m.lowQuarters power).2) &&
          decide (candidate * (m.quotient (4 * m.significand + 2) power).2 ≤
            (m.quotient (4 * m.significand + 2) power).1)
      else
        decide ((m.quotient m.lowQuarters power).1 <
            candidate * (m.quotient m.lowQuarters power).2) &&
          decide (candidate * (m.quotient (4 * m.significand + 2) power).2 <
            (m.quotient (4 * m.significand + 2) power).1) :=
  rfl

/-- What reads back is what the magnitude captures. -/
theorem readsBack_iff (positive : 0 < m.significand) :
    m.readsBack power candidate = true ↔ m.Captures (m.place power candidate) := by
  have high : ((4 * m.significand + 2 : ℕ) : ℚ) / 4 = m.significand + 1 / 2 := by
    push_cast
    ring
  rw [readsBack_eq]
  split_ifs with even
  · rw [Bool.and_eq_true, decide_eq_true_eq, decide_eq_true_eq, quotient_le_iff, le_quotient_iff,
      lowQuarters_div positive, high]
    exact ⟨fun ⟨low, high⟩ => ⟨low, high, fun _ => even⟩,
      fun captures => ⟨captures.low, captures.high⟩⟩
  · rw [Bool.and_eq_true, decide_eq_true_eq, decide_eq_true_eq, quotient_lt_iff, lt_quotient_iff,
      lowQuarters_div positive, high]
    constructor
    · rintro ⟨low, high⟩
      refine ⟨low.le, high.le, ?_⟩
      rintro (equal | equal)
      · exact absurd equal low.ne'
      · exact absurd equal high.ne
    · intro captures
      exact ⟨lt_of_le_of_ne captures.low fun equal => even (captures.even (.inl equal.symm)),
        lt_of_le_of_ne captures.high fun equal => even (captures.even (.inr equal))⟩

/-- The neighbour on a grid that does not lie above the magnitude. -/
def floor (m : Magnitude) (power : ℤ) : ℕ :=
  (m.quotient (4 * m.significand) power).1 / (m.quotient (4 * m.significand) power).2

theorem place_floor (m : Magnitude) (power : ℤ) :
    m.place power (m.floor power) ≤ m.significand ∧
      m.significand < m.place power (m.floor power + 1) := by
  have whole : ((4 * m.significand : ℕ) : ℚ) / 4 = m.significand := by
    push_cast
    ring
  have denominator := m.quotient_pos (4 * m.significand) power
  rw [← whole, ← le_quotient_iff, ← quotient_lt_iff]
  exact ⟨Nat.div_mul_le_self _ _, Nat.lt_mul_of_div_lt (Nat.lt_succ_self _) denominator⟩

theorem place_succ (m : Magnitude) (power : ℤ) (candidate : ℕ) :
    m.place power (candidate + 1) = m.place power candidate + 10 ^ power / 2 ^ m.exponent := by
  simp only [place]
  push_cast
  ring

/-- A neighbour that is found reads back. -/
theorem readsBack_of_neighbour {ties : Ties} (found : m.neighbour? ties power = some candidate) :
    m.readsBack power candidate = true := by
  simp only [neighbour?] at found
  split at found
  · next below above =>
      cases ties <;> dsimp only at found <;> split_ifs at found <;> cases found <;>
        first
          | exact below
          | exact above
  · next below above =>
      cases found
      exact below
  · next below above =>
      cases found
      exact above
  · cases found

theorem neighbour_none {ties : Ties} (missing : m.neighbour? ties power = none) :
    ¬ m.readsBack power (m.floor power) = true ∧
      ¬ m.readsBack power (m.floor power + 1) = true := by
  simp only [neighbour?] at missing
  split at missing
  · cases ties <;> dsimp only at missing <;> split_ifs at missing
  · cases missing
  · cases missing
  · next below above =>
      exact ⟨Bool.eq_false_iff.mp below, Bool.eq_false_iff.mp above⟩

/-- A grid that is finer than the interval of what reads back has a neighbour that does. -/
theorem exists_neighbour (ties : Ties) (positive : 0 < m.significand)
    (fine : (10 : ℚ) ^ power / 2 ^ m.exponent < m.reach + 1 / 2) :
    ∃ candidate, m.neighbour? ties power = some candidate := by
  rw [← Option.ne_none_iff_exists']
  intro missing
  rcases neighbour_none missing with ⟨below, above⟩
  rw [readsBack_iff positive] at below above
  rcases m.place_floor power with ⟨low, high⟩
  have reach := m.reach_pos
  have under : m.place power (m.floor power) ≤ m.significand - m.reach := by
    by_contra inside
    refine below ⟨(not_le.mp inside).le, by linarith, ?_⟩
    rintro (equal | equal)
    · exact absurd equal.le inside
    · linarith
  have beyond : m.significand + 1 / 2 ≤ m.place power (m.floor power + 1) := by
    by_contra inside
    refine above ⟨by linarith, (not_le.mp inside).le, ?_⟩
    rintro (equal | equal)
    · linarith
    · exact absurd equal.ge inside
  rw [place_succ] at beyond
  linarith

end

/-! ## The first digit -/

theorem leading_of_le {numerator denominator : ℕ}
    (parts : m.quotient (4 * m.significand) 0 = (numerator, denominator))
    (large : denominator ≤ numerator) :
    m.leading = ((Decimal.digitCount (numerator / denominator) - 1 : ℕ) : ℤ) := by
  simp only [leading, parts, large, ↓reduceIte]

theorem leading_of_lt {numerator denominator : ℕ}
    (parts : m.quotient (4 * m.significand) 0 = (numerator, denominator))
    (small : numerator < denominator) :
    m.leading = -(Decimal.digitCount ((denominator - 1) / numerator) : ℤ) := by
  simp only [leading, parts, Nat.not_le.mpr small, ↓reduceIte]

/-- The power of ten of the first digit. -/
theorem leading_spec (positive : 0 < m.significand) :
    (10 : ℚ) ^ m.leading ≤ m.value ∧ m.value < 10 ^ (m.leading + 1) := by
  have ten : (10 : ℚ) ≠ 0 := by norm_num
  rcases parts : m.quotient (4 * m.significand) 0 with ⟨numerator, denominator⟩
  have exact := m.quotient_value (4 * m.significand) 0
  have divisor := m.quotient_pos (4 * m.significand) 0
  simp only [parts] at exact divisor
  have value : m.value = (numerator : ℚ) / denominator := by
    rw [exact, value]
    push_cast
    ring
  have divisor' : (0 : ℚ) < denominator := by exact_mod_cast divisor
  have some : (0 : ℚ) < numerator := by
    have scale : 0 < m.value := mul_pos (by exact_mod_cast positive) (zpow_pos two_pos _)
    rw [value] at scale
    exact (div_pos_iff_of_pos_right divisor').mp scale
  rw [value]
  rcases Nat.lt_or_ge numerator denominator with small | large
  · have positive' : 0 < numerator := by exact_mod_cast some
    have quotient : 0 < (denominator - 1) / numerator := Nat.div_pos (by omega) positive'
    have low := (Nat.le_div_iff_mul_le positive').mp (pow_digitCount_le quotient)
    have high := (Nat.div_lt_iff_lt_mul positive').mp
      (lt_pow_digitCount ((denominator - 1) / numerator))
    have count := digitCount_pos ((denominator - 1) / numerator)
    rw [leading_of_lt parts small]
    generalize Decimal.digitCount ((denominator - 1) / numerator) = digits at low high count ⊢
    have below : (10 : ℚ) ^ (digits - 1) * numerator < denominator := by
      exact_mod_cast (by omega : 10 ^ (digits - 1) * numerator < denominator)
    have above : (denominator : ℚ) ≤ 10 ^ digits * numerator := by
      exact_mod_cast (by omega : denominator ≤ 10 ^ digits * numerator)
    have next : -(digits : ℤ) + 1 = -((digits - 1 : ℕ) : ℤ) := by omega
    rw [next, zpow_neg, zpow_neg, zpow_natCast, zpow_natCast, inv_eq_one_div, inv_eq_one_div,
      div_le_div_iff₀ (by positivity) divisor', div_lt_div_iff₀ divisor' (by positivity)]
    constructor <;> linarith
  · have quotient : 0 < numerator / denominator := Nat.div_pos large divisor
    have low := (Nat.le_div_iff_mul_le divisor).mp (pow_digitCount_le quotient)
    have high := (Nat.div_lt_iff_lt_mul divisor).mp (lt_pow_digitCount (numerator / denominator))
    have count := digitCount_pos (numerator / denominator)
    rw [leading_of_le parts large]
    generalize Decimal.digitCount (numerator / denominator) = digits at low high count ⊢
    have next : ((digits - 1 : ℕ) : ℤ) + 1 = (digits : ℤ) := by omega
    rw [next, zpow_natCast, zpow_natCast, le_div_iff₀ divisor', div_lt_iff₀ divisor']
    exact ⟨by exact_mod_cast low, by exact_mod_cast high⟩

/-- Seventeen digits are enough. -/
theorem Canonical.fine (canonical : m.Canonical) :
    (10 : ℚ) ^ (m.leading - 16) / 2 ^ m.exponent < m.reach + 1 / 2 := by
  have scale : (0 : ℚ) < 2 ^ m.exponent := zpow_pos two_pos _
  have spacing : (10 : ℚ) ^ (m.leading - 16) / 2 ^ m.exponent ≤ m.significand / 10 ^ 16 := by
    have low := (leading_spec canonical.pos).1
    rw [zpow_sub₀ (by norm_num), div_right_comm]
    have ten : (10 : ℚ) ^ (16 : ℤ) = 10 ^ 16 := by norm_num
    rw [ten, div_le_div_iff_of_pos_right (by positivity), div_le_iff₀ scale]
    exact low
  have bound : (m.significand : ℚ) < 9007199254740992 := by exact_mod_cast canonical.below
  rw [reach]
  split_ifs with narrow
  · have power : (m.significand : ℚ) = 2 ^ 52 := by
      exact_mod_cast (canonical.narrow.mp narrow).1
    rw [power] at spacing
    norm_num at spacing ⊢
    linarith
  · norm_num at spacing ⊢
    linarith

/-! ## The search -/

/-- What the search makes of a grid with so many digits behind the first. -/
def attempt (ties : Ties) (m : Magnitude) (n : ℕ) : Option Decimal :=
  (m.neighbour? ties (m.leading - (n : ℤ))).map fun c =>
    if c = Nat.pow 10 (n + 1) then ⟨1, m.leading + 1⟩ else ⟨c, m.leading - (n : ℤ)⟩

theorem captures_attempt {ties : Ties} {n : ℕ} {d : Decimal} (positive : 0 < m.significand)
    (found : m.attempt ties n = some d) : m.Captures (d.value / 2 ^ m.exponent) := by
  rcases Option.map_eq_some_iff.mp found with ⟨candidate, near, rfl⟩
  have captures := (readsBack_iff positive).mp (readsBack_of_neighbour near)
  split_ifs with power
  · have same : (1 : ℕ) * (10 : ℚ) ^ (m.leading + 1) = candidate * 10 ^ (m.leading - (n : ℤ)) := by
      have sum : m.leading + 1 = ((n + 1 : ℕ) : ℤ) + (m.leading - n) := by
        push_cast
        ring
      rw [power, Nat.pow_eq, sum, zpow_add₀ (by norm_num), zpow_natCast]
      push_cast
      ring
    rw [Decimal.value, same]
    exact captures
  · exact captures

/-- The decimal with the fewest digits rounds to the magnitude. -/
theorem captures_shortest (canonical : m.Canonical) (ties : Ties) :
    m.Captures ((m.shortest ties).value / 2 ^ m.exponent) := by
  have searched : m.shortest ties =
      ((List.range 17).findSome? (m.attempt ties)).getD ⟨0, 0⟩ := by
    rw [shortest, if_neg canonical.pos.ne']
    rfl
  have last : (m.attempt ties 16).isSome = true := by
    rcases exists_neighbour ties canonical.pos canonical.fine with ⟨candidate, near⟩
    rw [attempt, Option.isSome_map]
    exact Option.isSome_iff_exists.mpr ⟨candidate, near⟩
  have some : ((List.range 17).findSome? (m.attempt ties)).isSome = true := by
    rw [List.findSome?_isSome_iff]
    exact ⟨16, by decide, last⟩
  rcases Option.isSome_iff_exists.mp some with ⟨d, found⟩
  rcases List.exists_of_findSome?_eq_some found with ⟨n, -, attempted⟩
  rw [searched, found, Option.getD_some]
  exact captures_attempt canonical.pos attempted

end Magnitude

end ImmersedBody
