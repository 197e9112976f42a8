import ImmersedBody.Proofs.Decimal.Scientific
import ImmersedBody.Proofs.Json.Numerals

/-!
# Reading double precision numbers that were written

A finite number is written with the fewest digits that read back, and reading converts them with
one rounding.  Both ends agree on which decimals stand for which number, so every finite number
comes back as it was, with its sign, and zero with its sign too.  A number that is not finite is
written as null, which no reader of numbers takes.
-/

namespace ImmersedBody

/-! ## The size of decimals -/

section

variable {d : Decimal} {m : Magnitude}

theorem decimal_bounds (positive : 0 < d.significand) :
    (10 : ℚ) ^ (d.exponent + Decimal.digitCount d.significand - 1) ≤ d.value ∧
      d.value < 10 ^ (d.exponent + Decimal.digitCount d.significand) := by
  have ten : (10 : ℚ) ≠ 0 := by norm_num
  have count := digitCount_pos d.significand
  have scale : (0 : ℚ) < 10 ^ d.exponent := by positivity
  have low : (10 : ℚ) ^ (Decimal.digitCount d.significand - 1) ≤ d.significand := by
    exact_mod_cast pow_digitCount_le positive
  have high : (d.significand : ℚ) < 10 ^ Decimal.digitCount d.significand := by
    exact_mod_cast lt_pow_digitCount d.significand
  have first : d.exponent + Decimal.digitCount d.significand - 1 =
      ((Decimal.digitCount d.significand - 1 : ℕ) : ℤ) + d.exponent := by
    omega
  rw [first, add_comm d.exponent, zpow_add₀ ten, zpow_add₀ ten, zpow_natCast, zpow_natCast,
    Decimal.value]
  exact ⟨mul_le_mul_of_nonneg_right low scale.le, mul_lt_mul_of_pos_right high scale⟩

theorem pos_of_captured (captures : m.Captures (d.value / 2 ^ m.exponent))
    (canonical : m.Canonical) : 0 < d.significand := by
  by_contra none
  have positive := captures.pos canonical
  rw [Decimal.value, Nat.eq_zero_of_not_pos none, Nat.cast_zero, zero_mul, zero_div] at positive
  exact positive.false

/-- The digits of a decimal that rounds to a number are not far from the decimal point. -/
theorem size_of_captured (captures : m.Captures (d.value / 2 ^ m.exponent))
    (canonical : m.Canonical) (most : m.exponent ≤ 971) :
    -400 ≤ d.exponent + Decimal.digitCount d.significand ∧
      d.exponent + Decimal.digitCount d.significand ≤ 400 := by
  have range := captures.range canonical most
  rw [div_mul_cancel₀ _ (zpow_ne_zero _ two_ne_zero)] at range
  have bounds := decimal_bounds (pos_of_captured captures canonical)
  have small : (10 : ℚ) ^ (-400 : ℤ) ≤ 2 ^ (-1075 : ℤ) := by
    rw [zpow_neg, zpow_neg]
    exact inv_anti₀ (by positivity)
      (by exact_mod_cast (by decide +kernel : 2 ^ 1075 ≤ 10 ^ 400))
  have large : (2 : ℚ) ^ (1024 : ℤ) ≤ 10 ^ (399 : ℤ) := by
    exact_mod_cast (by decide +kernel : 2 ^ 1024 ≤ 10 ^ 399)
  have low := (small.trans range.1).trans_lt bounds.2
  have high := (bounds.1.trans_lt range.2).trans_le large
  rw [zpow_lt_zpow_iff_right₀ (by norm_num)] at low high
  omega

end

/-! ## Numerals -/

variable {x : Float} {negative : Bool} {m : Magnitude} {n : Numeral}

theorem shortest_of_zero (none : m.significand = 0) (ties : Ties) :
    m.shortest ties = ⟨0, 0⟩ := by
  rw [Magnitude.shortest, if_pos none]

theorem toFloat?_of_zero (value : Binary64.ofFloat x = .finite negative m)
    (none : m.significand = 0) (sign : n.negative = negative) (zero : n.significand = 0) :
    n.toFloat? = some x := by
  have same := signed_zero value none
  rw [Numeral.toFloat?]
  simp only [zero, sign, decide_true, Bool.true_or, ↓reduceIte, same]

/-- A numeral with the value of what was written for a number is that number. -/
theorem toFloat?_of_shortest (value : Binary64.ofFloat x = .finite negative m)
    (sign : n.negative = negative)
    (equal : (n.significand : ℚ) * 10 ^ n.scale = (m.shortest .even).value) :
    n.toFloat? = some x := by
  rcases Nat.eq_zero_or_pos m.significand with none | positive
  · refine toFloat?_of_zero value none sign ?_
    rw [shortest_of_zero none, Decimal.value, Nat.cast_zero, zero_mul] at equal
    exact_mod_cast (mul_eq_zero_iff_right (zpow_ne_zero n.scale (by norm_num))).mp equal
  · rcases Magnitude.canonical_of_finite value positive with ⟨canonical, most⟩
    have captures : m.Captures
        ((⟨n.significand, n.scale⟩ : Decimal).value / 2 ^ m.exponent) := by
      rw [Decimal.value, equal]
      exact Magnitude.captures_shortest canonical .even
    have size := size_of_captured captures canonical most
    have some : 0 < n.significand := pos_of_captured captures canonical
    have whole := captures.ofScientific canonical most
      (div_mul_cancel₀ _ (zpow_ne_zero _ two_ne_zero)).symm
    have bounded := canonical.isInf_number most
    have same := signed_number value canonical most
    simp only [Decimal.digitCount] at size
    rw [Numeral.toFloat?]
    simp only [whole, bounded, sign, same, Bool.false_eq_true, ↓reduceIte]
    rw [if_neg, if_neg]
    · omega
    · simp only [Bool.or_eq_true, decide_eq_true_eq]
      omega

namespace Reader

/-! ## Numbers as values -/

/-- What is written for a magnitude is read as the number. -/
theorem spells_shortest (value : Binary64.ofFloat x = .finite negative m) :
    Spells negative (NumberStyle.json.decimalText (m.shortest .even)) (m.shortest .even) := by
  rcases Nat.eq_zero_or_pos m.significand with none | positive
  · rw [shortest_of_zero none]
    exact spells_decimalText negative (fun _ => rfl) (by decide)
  · rcases Magnitude.canonical_of_finite value positive with ⟨canonical, most⟩
    have captures := Magnitude.captures_shortest canonical .even
    have some := pos_of_captured captures canonical
    have size := size_of_captured captures canonical most
    have place := leading_add_one (m.shortest .even)
    refine spells_decimalText negative (fun none => absurd none some.ne') ?_
    rw [exponentLimit]
    simp only [Decimal.digitCount] at size
    simp only [Decimal.digits] at place
    omega

theorem answers_float_of_finite (value : Binary64.ofFloat x = .finite negative m) :
    Answers float (.number x) (some x) := by
  have written : ∀ layout, JsonText.number x layout =
      signChars negative ++ NumberStyle.json.decimalText (m.shortest .even) := by
    intro layout
    simp only [JsonText.number, NumberStyle.text, value]
    rfl
  have spells := spells_shortest value
  have begins : ∃ c others, signChars negative ++
      NumberStyle.json.decimalText (m.shortest .even) = c :: others ∧ startsNumber c = true := by
    rcases spells.starts with ⟨c, others, equal, digit⟩
    cases negative with
    | false =>
        exact ⟨c, others, equal, startsNumber_of_isDigit digit⟩
    | true =>
        exact ⟨'-', _, rfl, rfl⟩
  rcases begins with ⟨c, others, equal, starts⟩
  refine ⟨fun layout => ⟨c, others, (written layout).trans equal,
    startsValue_of_startsNumber starts⟩, ?_⟩
  intro layout space rest blank delimited
  rcases spells.reads rest delimited with ⟨n, read, sign, same⟩
  rw [equal, List.map_cons, List.cons_append] at read
  rw [written, equal, List.map_cons, List.cons_append, float,
    bind_of_ok ((anyNumber_of_blank starts blank).trans read),
    toFloat?_of_shortest value sign same]
  rfl

/-- A value without content is not a number. -/
theorem answers_float_null : Answers float .null none where
  starts := fun _ => ⟨'n', _, rfl, by decide⟩
  reads := by
    intro layout space rest blank delimited
    have other : startsNumber 'n' = false := by decide
    have refused : anyNumber (space ++ .char 'n' :: .char 'u' :: .char 'l' :: .char 'l' :: rest) =
        .error .malformed := by
      rw [anyNumber, bind_of_ok (skipSpace_of_blank blank (by decide)), bind_of_ok peek_cons]
      simp only [other, Bool.false_eq_true, ↓reduceIte]
      rfl
    exact bind_of_error refused

theorem number_eq_null (other : ¬ x.isFinite = true) : JsonText.number x = .null := by
  funext layout
  rcases value : Binary64.ofFloat x with _ | _ | ⟨sign, m⟩
  · simp only [JsonText.number, value]
  · simp only [JsonText.number, value]
  · exact absurd ((isFinite_iff x).mpr ⟨sign, m, value⟩) other

/-- A finite number is read back; any other is refused. -/
theorem answers_float (x : Float) :
    Answers float (.number x) (if x.isFinite then some x else none) := by
  split_ifs with finite
  · rcases (isFinite_iff x).mp finite with ⟨negative, m, value⟩
    exact answers_float_of_finite value
  · rw [number_eq_null finite]
    exact answers_float_null

end Reader

end ImmersedBody
