import Mathlib
import ImmersedBody.Proofs.Decimal.Shortest
import ImmersedBody.Proofs.Json.Answers

/-!
# Reading numerals that were written

A number is written as digits, with decimals or an exponent where its style asks for them.  Each
part is read back for itself, and what follows the number ends it.  The numeral that is read has
the value of the decimal that was written, whatever the layout of its digits.
-/

namespace ImmersedBody

namespace Reader

variable {cs : List Char} {rest : List Symbol}

/-! ## Digits -/

/-- Nothing but decimal digits. -/
def Digital (cs : List Char) : Prop :=
  ∀ c ∈ cs, c.isDigit = true

instance (cs : List Char) : Decidable (Digital cs) :=
  inferInstanceAs (Decidable (∀ c ∈ cs, c.isDigit = true))

/-- What follows does not go on with a digit. -/
def Stops (rest : List Symbol) : Prop :=
  ∀ symbol ∈ rest.head?, digit? symbol = none

/-- The values of digits. -/
def values (cs : List Char) : List ℕ :=
  cs.map fun c => c.toNat - '0'.toNat

theorem digital_toDigits (n : ℕ) : Digital (Nat.toDigits 10 n) :=
  fun _ member => Nat.isDigit_of_mem_toDigits (by decide) (by decide) member

theorem digit?_of_isDigit {c : Char} (digit : c.isDigit = true) :
    digit? (.char c) = some (c.toNat - '0'.toNat) := by
  rw [digit?, if_pos]
  simpa [Char.isDigit, Char.le_def] using digit

theorem digits_append (digital : Digital cs) (stops : Stops rest) :
    digits (cs.map .char ++ rest) = (values cs, rest) := by
  induction cs with
  | nil =>
      cases rest with
      | nil =>
          rfl
      | cons symbol rest =>
          have none := stops symbol rfl
          show digits (symbol :: rest) = ([], symbol :: rest)
          rw [digits]
          simp only [none]
  | cons c cs ih =>
      rw [List.map_cons, List.cons_append, digits, digit?_of_isDigit (digital c List.mem_cons_self)]
      simp only [ih fun d member => digital d (List.mem_cons_of_mem c member)]
      rfl

theorem valueOf_values (cs : List Char) : valueOf (values cs) = Nat.ofDigitChars 10 cs 0 := by
  rw [valueOf, values, List.foldl_map, Nat.ofDigitChars_eq_foldl]

theorem values_append (cs ds : List Char) : values cs ++ values ds = values (cs ++ ds) :=
  (List.map_append ..).symm

/-- The digits of a positive number do not start with a zero. -/
theorem head_toDigits {n : ℕ} (positive : 0 < n) : (Nat.toDigits 10 n).head? ≠ some '0' := by
  induction n using Nat.strong_induction_on with
  | _ n ih =>
      rw [Nat.toDigits_eq_if (by decide)]
      split_ifs with small
      · interval_cases n <;> decide
      · rw [List.head?_append_of_ne_nil _ Nat.toDigits_ne_nil]
        exact ih (n / 10) (Nat.div_lt_self positive (by decide)) (by omega)

theorem zero_of_value {c : Char} (digit : c.isDigit = true) (zero : c.toNat - '0'.toNat = 0) :
    c = '0' := by
  have low : '0'.toNat ≤ c.toNat := by
    simp only [Char.isDigit, Bool.and_eq_true, decide_eq_true_eq] at digit
    exact digit.1
  apply Char.toNat_inj.mp
  omega

/-! ## The parts of a number -/

theorem wholePart_of_digits {s : List Symbol} {found : List ℕ} (read : digits s = (found, rest))
    (nonempty : found ≠ []) (proper : ∀ v more, found ≠ 0 :: v :: more) :
    wholePart s = .ok (found, rest) := by
  rw [wholePart, read]
  split
  · next equal =>
      cases equal
      exact absurd rfl nonempty
  · next equal =>
      cases equal
      exact absurd rfl (proper _ _)
  · rfl

theorem wholePart_append (nonempty : cs ≠ []) (digital : Digital cs) (stops : Stops rest)
    (proper : cs.head? = some '0' → cs = ['0']) :
    wholePart (cs.map .char ++ rest) = .ok (values cs, rest) := by
  refine wholePart_of_digits (digits_append digital stops)
    (fun none => nonempty (List.map_eq_nil_iff.mp none)) ?_
  intro v more equal
  rcases List.map_eq_cons_iff.mp equal with ⟨c, ds, rfl, zero, others⟩
  have first := zero_of_value (digital c List.mem_cons_self) zero
  subst first
  cases proper rfl
  cases others

theorem fractionPart_point (nonempty : cs ≠ []) (digital : Digital cs) (stops : Stops rest) :
    fractionPart (.char '.' :: (cs.map .char ++ rest)) = .ok ((true, values cs), rest) := by
  rw [fractionPart, digits_append digital stops]
  cases cs with
  | nil =>
      exact absurd rfl nonempty
  | cons c cs =>
      rfl

theorem fractionPart_none (other : ∀ symbol ∈ rest.head?, symbol ≠ .char '.') :
    fractionPart rest = .ok ((false, []), rest) := by
  rw [fractionPart.eq_def]
  split
  · exact absurd rfl (other _ rfl)
  · rfl

/-- The exponent of a number as it is written. -/
def exponentChars (exponent : ℤ) : List Char :=
  'e' :: (if exponent < 0 then '-' else '+') :: Nat.toDigits 10 exponent.natAbs

theorem exponentPart_sign (limited : Bool) {exponent : ℤ}
    (most : exponent.natAbs ≤ exponentLimit) (stops : Stops rest) :
    exponentPart limited ((exponentChars exponent).map .char ++ rest) =
      .ok (some exponent, rest) := by
  have size : valueOf (values (Nat.toDigits 10 exponent.natAbs)) = exponent.natAbs := by
    rw [valueOf_values, Nat.ofDigitChars_ten_toDigits]
  have few : ¬ exponentLimit < exponent.natAbs := Nat.not_lt.mpr most
  have taken := digits_append (digital_toDigits exponent.natAbs) stops
  rw [exponentChars]
  rcases nonempty : values (Nat.toDigits 10 exponent.natAbs) with _ | ⟨v, vs⟩
  · exact absurd (List.map_eq_nil_iff.mp nonempty) Nat.toDigits_ne_nil
  · rw [nonempty] at size taken
    split_ifs with negative
    · have turned : -(exponent.natAbs : ℤ) = exponent := by omega
      simp only [List.map_cons, List.cons_append, exponentPart, taken, size]
      simp only [Bool.not_true, Bool.and_false, Bool.false_and, Bool.false_eq_true, ↓reduceIte,
        turned]
    · have same : (exponent.natAbs : ℤ) = exponent := by omega
      simp only [List.map_cons, List.cons_append, exponentPart, taken, size]
      simp only [few, decide_false, Bool.and_false, Bool.false_eq_true, ↓reduceIte, same]

theorem exponentPart_none (limited : Bool)
    (other : ∀ symbol ∈ rest.head?, symbol ≠ .char 'e' ∧ symbol ≠ .char 'E') :
    exponentPart limited rest = .ok (none, rest) := by
  rw [exponentPart.eq_def]
  split
  · exact absurd rfl (other _ rfl).1
  · exact absurd rfl (other _ rfl).2
  · rfl

/-! ## What follows a number -/

theorem Delimited.stops (delimited : Delimited rest) : Stops rest := by
  intro symbol member
  have mark := delimited symbol member
  fin_cases mark <;> rfl

theorem Delimited.noPoint (delimited : Delimited rest) :
    ∀ symbol ∈ rest.head?, symbol ≠ .char '.' := by
  intro symbol member
  have mark := delimited symbol member
  fin_cases mark <;> decide

theorem Delimited.noExponent (delimited : Delimited rest) :
    ∀ symbol ∈ rest.head?, symbol ≠ .char 'e' ∧ symbol ≠ .char 'E' := by
  intro symbol member
  have mark := delimited symbol member
  fin_cases mark <;> decide

theorem Delimited.whole (delimited : Delimited rest) : faultAt rest ≠ .interrupted := by
  cases rest with
  | nil =>
      decide
  | cons symbol rest =>
      have mark := delimited symbol rfl
      fin_cases mark <;> exact ReadFault.noConfusion

/-! ## Numerals -/

/-- The sign of a number as it is written. -/
def signChars (negative : Bool) : List Char :=
  if negative then ['-'] else []

/-- A numeral out of its parts. -/
theorem numeral_of_parts (negative : Bool) {body s₁ s₂ : List Symbol} {whole decimals : List ℕ}
    {pointed : Bool} {exponent : Option ℤ}
    (first : ∀ symbol ∈ body.head?, symbol ≠ .char '-')
    (atWhole : wholePart body = .ok (whole, s₁))
    (atFraction : fractionPart s₁ = .ok ((pointed, decimals), s₂))
    (atExponent : ∀ limited, exponentPart limited s₂ = .ok (exponent, rest))
    (delimited : Delimited rest) :
    numeral false ((signChars negative).map .char ++ body) =
      .ok (⟨negative, valueOf (whole ++ decimals), exponent.getD 0 - (decimals.length : ℤ),
        !pointed && exponent.isNone⟩, rest) := by
  have complete := delimited.whole
  cases negative with
  | true =>
      simp only [signChars, numeral, ↓reduceIte, List.map_cons, List.map_nil, List.cons_append,
        List.nil_append, atWhole, atFraction, atExponent, complete, bind, Except.bind]
  | false =>
      simp only [signChars, numeral, Bool.false_eq_true, ↓reduceIte, List.map_nil, List.nil_append]
      split
      · exact absurd rfl (first _ rfl)
      · simp only [atWhole, atFraction, atExponent, complete, bind, Except.bind, ↓reduceIte]

theorem head_ne_minus (nonempty : cs ≠ []) (digital : Digital cs) (tail : List Symbol) :
    ∀ symbol ∈ (cs.map Symbol.char ++ tail).head?, symbol ≠ .char '-' := by
  cases cs with
  | nil =>
      exact absurd rfl nonempty
  | cons c cs =>
      rintro _ ⟨⟩ equal
      cases equal
      exact absurd (digital '-' List.mem_cons_self) (by decide)

theorem head_toDigits_proper (n : ℕ) :
    (Nat.toDigits 10 n).head? = some '0' → Nat.toDigits 10 n = ['0'] := by
  rcases Nat.eq_zero_or_pos n with rfl | positive
  · exact fun _ => Nat.toDigits_zero 10
  · exact fun zero => absurd zero (head_toDigits positive)

/-- An unsigned integer is read back. -/
theorem numeral_natural (n : ℕ) (delimited : Delimited rest) :
    numeral false ((Nat.toDigits 10 n).map .char ++ rest) = .ok (⟨false, n, 0, true⟩, rest) := by
  have read := numeral_of_parts false
    (head_ne_minus Nat.toDigits_ne_nil (digital_toDigits n) rest)
    (wholePart_append Nat.toDigits_ne_nil (digital_toDigits n) delimited.stops
      (head_toDigits_proper n))
    (fractionPart_none delimited.noPoint)
    (fun limited => exponentPart_none limited delimited.noExponent) delimited
  rw [List.append_nil, valueOf_values, Nat.ofDigitChars_ten_toDigits] at read
  exact read

theorem stops_cons {c : Char} (other : c.isDigit = false) (tail : List Symbol) :
    Stops (.char c :: tail) := by
  rintro _ ⟨⟩
  rw [digit?, if_neg]
  simpa [Char.isDigit, Char.le_def, imp_iff_not_or] using other

variable {decimals : List Char}

/-- A number with a decimal point. -/
theorem numeral_pointed (negative : Bool) (nonempty : cs ≠ []) (digital : Digital cs)
    (proper : cs.head? = some '0' → cs = ['0']) (nonempty' : decimals ≠ [])
    (digital' : Digital decimals) (delimited : Delimited rest) :
    numeral false ((signChars negative ++ (cs ++ '.' :: decimals)).map .char ++ rest) =
      .ok (⟨negative, Nat.ofDigitChars 10 (cs ++ decimals) 0, -(decimals.length : ℤ), false⟩,
        rest) := by
  have read := numeral_of_parts negative
    (head_ne_minus nonempty digital (.char '.' :: (decimals.map .char ++ rest)))
    (wholePart_append nonempty digital (stops_cons (by decide) _) proper)
    (fractionPart_point nonempty' digital' delimited.stops)
    (fun limited => exponentPart_none limited delimited.noExponent) delimited
  rw [values_append, valueOf_values, values, List.length_map] at read
  simpa using read

/-- A number with a decimal point and an exponent. -/
theorem numeral_scientific (negative : Bool) (nonempty : cs ≠ []) (digital : Digital cs)
    (proper : cs.head? = some '0' → cs = ['0']) (nonempty' : decimals ≠ [])
    (digital' : Digital decimals) {exponent : ℤ} (most : exponent.natAbs ≤ exponentLimit)
    (delimited : Delimited rest) :
    numeral false ((signChars negative ++ (cs ++ '.' :: (decimals ++ exponentChars exponent))).map
        .char ++ rest) =
      .ok (⟨negative, Nat.ofDigitChars 10 (cs ++ decimals) 0, exponent - decimals.length, false⟩,
        rest) := by
  have read := numeral_of_parts negative
    (head_ne_minus nonempty digital
      (.char '.' :: (decimals.map .char ++ ((exponentChars exponent).map .char ++ rest))))
    (wholePart_append nonempty digital (stops_cons (by decide) _) proper)
    (fractionPart_point nonempty' digital' (stops_cons (by decide) _))
    (fun limited => exponentPart_sign limited most delimited.stops) delimited
  rw [values_append, valueOf_values, values, List.length_map] at read
  simpa using read

/-- A number with an exponent and no decimal point. -/
theorem numeral_exponent (negative : Bool) (nonempty : cs ≠ []) (digital : Digital cs)
    (proper : cs.head? = some '0' → cs = ['0']) {exponent : ℤ}
    (most : exponent.natAbs ≤ exponentLimit) (delimited : Delimited rest) :
    numeral false ((signChars negative ++ (cs ++ exponentChars exponent)).map .char ++ rest) =
      .ok (⟨negative, Nat.ofDigitChars 10 cs 0, exponent, false⟩, rest) := by
  have read := numeral_of_parts negative
    (head_ne_minus nonempty digital ((exponentChars exponent).map .char ++ rest))
    (wholePart_append nonempty digital (stops_cons (by decide) _) proper)
    (fractionPart_none (by rintro _ ⟨⟩; decide))
    (fun limited => exponentPart_sign limited most delimited.stops) delimited
  rw [List.append_nil, valueOf_values] at read
  simpa using read

/-! ## Decimals -/

/-- The characters are read as a numeral with the sign and the value of a decimal. -/
structure Spells (negative : Bool) (characters : List Char) (d : Decimal) : Prop where
  starts : ∃ c others, characters = c :: others ∧ c.isDigit = true
  reads : ∀ rest, Delimited rest →
    ∃ n, numeral false ((signChars negative ++ characters).map .char ++ rest) = .ok (n, rest) ∧
      n.negative = negative ∧ (n.significand : ℚ) * 10 ^ n.scale = d.value

theorem starts_append (nonempty : cs ≠ []) (digital : Digital cs) (tail : List Char) :
    ∃ c others, cs ++ tail = c :: others ∧ c.isDigit = true := by
  cases cs with
  | nil =>
      exact absurd rfl nonempty
  | cons c cs =>
      exact ⟨c, cs ++ tail, rfl, digital c List.mem_cons_self⟩

section

variable {d : Decimal}

theorem digital_digits (d : Decimal) : Digital d.digits :=
  digital_toDigits d.significand

theorem digits_ne_nil (d : Decimal) : d.digits ≠ [] :=
  Nat.toDigits_ne_nil

theorem digits_proper (d : Decimal) : d.digits.head? = some '0' → d.digits = ['0'] :=
  head_toDigits_proper d.significand

theorem ofDigitChars_digits (d : Decimal) : Nat.ofDigitChars 10 d.digits 0 = d.significand :=
  Nat.ofDigitChars_ten_toDigits

theorem leading_add_one (d : Decimal) : d.leading + 1 = d.exponent + d.digits.length := by
  have length : 0 < d.digits.length := List.length_pos_iff.mpr (digits_ne_nil d)
  rw [Decimal.leading]
  omega

theorem digital_append {ds : List Char} (digital : Digital cs) (digital' : Digital ds) :
    Digital (cs ++ ds) := by
  intro c member
  rcases List.mem_append.mp member with left | right
  · exact digital c left
  · exact digital' c right

theorem digital_zeros (count : ℕ) : Digital (List.replicate count '0') := by
  intro c member
  rw [List.eq_of_mem_replicate member]
  decide

/-- Digits around a decimal point, with the value that they have together. -/
theorem spells_pointed (negative : Bool) (nonempty : cs ≠ []) (digital : Digital cs)
    (proper : cs.head? = some '0' → cs = ['0']) (nonempty' : decimals ≠ [])
    (digital' : Digital decimals)
    (value : (Nat.ofDigitChars 10 (cs ++ decimals) 0 : ℚ) * 10 ^ (-(decimals.length : ℤ)) =
      d.value) :
    Spells negative (cs ++ '.' :: decimals) d where
  starts := starts_append nonempty digital _
  reads := by
    intro rest delimited
    exact ⟨_, numeral_pointed negative nonempty digital proper nonempty' digital' delimited, rfl,
      value⟩

/-- Digits in front of which zeros stand behind the decimal point. -/
theorem spells_fraction (negative : Bool) (small : d.leading + 1 ≤ 0) :
    Spells negative
      ('0' :: '.' :: (List.replicate (-(d.leading + 1)).toNat '0' ++ d.digits)) d := by
  have scale : -((List.replicate (-(d.leading + 1)).toNat '0' ++ d.digits).length : ℤ) =
      d.exponent := by
    have := leading_add_one d
    rw [List.length_append, List.length_replicate]
    omega
  have digits : Nat.ofDigitChars 10
      (['0'] ++ (List.replicate (-(d.leading + 1)).toNat '0' ++ d.digits)) 0 =
      d.significand := by
    rw [Nat.ofDigitChars_append, Nat.ofDigitChars_append, Nat.ofDigitChars_replicate_zero]
    exact ofDigitChars_digits d
  refine spells_pointed negative (List.cons_ne_nil '0' []) (digital_zeros 1) (fun _ => rfl)
    (List.append_ne_nil_of_right_ne_nil _ (digits_ne_nil d))
    (digital_append (digital_zeros _) (digital_digits d)) ?_
  rw [scale, digits]
  rfl

/-- Digits behind which zeros stand in front of the decimal point. -/
theorem spells_integer (negative : Bool) (zero : d.significand = 0 → d.exponent = 0)
    (long : (d.digits.length : ℤ) ≤ d.leading + 1) :
    Spells negative (d.digits ++ List.replicate ((d.leading + 1).toNat - d.digits.length) '0' ++
      ['.', '0']) d := by
  have place := leading_add_one d
  rcases Int.eq_ofNat_of_zero_le (by omega : 0 ≤ d.exponent) with ⟨zeros, exponent⟩
  have count : (d.leading + 1).toNat - d.digits.length = zeros := by omega
  have digits : Nat.ofDigitChars 10 (d.digits ++ List.replicate zeros '0' ++ ['0']) 0 =
      10 * (10 ^ zeros * d.significand) := by
    rw [Nat.ofDigitChars_append, Nat.ofDigitChars_append, Nat.ofDigitChars_replicate_zero,
      ofDigitChars_digits]
    rfl
  rw [count]
  refine spells_pointed negative (List.append_ne_nil_of_left_ne_nil (digits_ne_nil d) _)
    (digital_append (digital_digits d) (digital_zeros _)) ?_ (List.cons_ne_nil '0' [])
    (digital_zeros 1) ?_
  · rw [List.head?_append_of_ne_nil _ (digits_ne_nil d)]
    intro head
    have none : d.significand = 0 := by
      by_contra some
      exact head_toDigits (Nat.pos_of_ne_zero some) head
    have alone : zeros = 0 := by
      have := zero none
      omega
    rw [alone, digits_proper d head]
    rfl
  · rw [digits, Decimal.value, exponent, zpow_natCast, List.length_singleton]
    push_cast
    norm_num
    ring

/-- Digits with the decimal point between them. -/
theorem spells_mixed (negative : Bool) (some : 0 < d.leading + 1)
    (short : d.leading + 1 < d.digits.length) :
    Spells negative (d.digits.take (d.leading + 1).toNat ++
      '.' :: d.digits.drop (d.leading + 1).toNat) d := by
  have positive : 0 < (d.leading + 1).toNat := by omega
  have scale : -((d.digits.drop (d.leading + 1).toNat).length : ℤ) = d.exponent := by
    have := leading_add_one d
    rw [List.length_drop]
    omega
  refine spells_pointed negative ?_
    (fun c member => digital_digits d c (List.mem_of_mem_take member)) ?_ ?_
    (fun c member => digital_digits d c (List.mem_of_mem_drop member)) ?_
  · rw [← List.length_pos_iff, List.length_take]
    omega
  · rw [List.head?_take, if_neg positive.ne']
    intro zero
    rw [digits_proper d zero]
    exact List.take_of_length_le positive
  · rw [← List.length_pos_iff, List.length_drop]
    omega
  · rw [scale, List.take_append_drop, ofDigitChars_digits]
    rfl

theorem exponentText_single (c : Char) (leading : ℤ) :
    NumberStyle.json.exponentText [c] leading = [c] ++ exponentChars leading := by
  show [c] ++ 'e' :: ((if leading < 0 then ['-'] else ['+']) ++ _) = _
  rw [exponentChars]
  split_ifs <;> rfl

theorem exponentText_cons (c c' : Char) (others : List Char) (leading : ℤ) :
    NumberStyle.json.exponentText (c :: c' :: others) leading =
      [c] ++ '.' :: (c' :: others ++ exponentChars leading) := by
  show (c :: '.' :: c' :: others) ++ 'e' :: ((if leading < 0 then ['-'] else ['+']) ++ _) = _
  rw [exponentChars]
  split_ifs <;> rfl

/-- Digits with an exponent. -/
theorem spells_exponent (negative : Bool) (most : d.leading.natAbs ≤ exponentLimit) :
    Spells negative (NumberStyle.json.exponentText d.digits d.leading) d := by
  have place := leading_add_one d
  have digital := digital_digits d
  have proper := digits_proper d
  have digits := ofDigitChars_digits d
  rcases spelled : d.digits with _ | ⟨c, _ | ⟨c', others⟩⟩ <;>
    rw [spelled] at digital proper digits place
  · exact absurd spelled (digits_ne_nil d)
  · have scale : d.leading = d.exponent := by
      rw [List.length_singleton] at place
      omega
    rw [exponentText_single]
    refine ⟨starts_append (List.cons_ne_nil c []) digital _, fun rest delimited => ⟨_,
      numeral_exponent negative (List.cons_ne_nil c []) digital proper most delimited, rfl, ?_⟩⟩
    simp only [digits, scale]
    rfl
  · have scale : d.leading - ((c' :: others).length : ℕ) = d.exponent := by
      rw [List.length_cons] at place
      omega
    have first : Digital [c] := by
      intro x member
      rw [List.mem_singleton.mp member]
      exact digital c List.mem_cons_self
    have single : [c].head? = some '0' → [c] = ['0'] := by
      rintro ⟨⟩
      rfl
    rw [exponentText_cons]
    refine ⟨starts_append (List.cons_ne_nil c []) first _, fun rest delimited => ⟨_,
      numeral_scientific negative (List.cons_ne_nil c []) first single (List.cons_ne_nil c' others)
        (fun x member => digital x (List.mem_cons_of_mem c member)) most delimited, rfl, ?_⟩⟩
    simp only [scale, List.cons_append, List.nil_append, digits]
    rfl

/-- A decimal is read back, whatever the layout of its digits. -/
theorem spells_decimalText (negative : Bool) (zero : d.significand = 0 → d.exponent = 0)
    (most : d.leading.natAbs ≤ exponentLimit) :
    Spells negative (NumberStyle.json.decimalText d) d := by
  rw [NumberStyle.decimalText, NumberStyle.positionalText]
  split_ifs with positional small long pointed
  · exact spells_fraction negative small
  · exact spells_integer negative zero long
  · exact absurd rfl pointed
  · exact spells_mixed negative (not_le.mp small) (not_le.mp long)
  · exact spells_exponent negative most

end

/-! ## Numbers as values -/

theorem startsNumber_of_isDigit {c : Char} (digit : c.isDigit = true) : startsNumber c = true := by
  rw [startsNumber]
  simp only [Bool.or_eq_true]
  right
  simpa [Char.isDigit, Char.le_def] using digit

theorem startsValue_of_startsNumber {c : Char} (starts : startsNumber c = true) :
    StartsValue c := by
  have other {mark : Char} (apart : startsNumber mark = false) : c ≠ mark := by
    rintro rfl
    rw [apart] at starts
    cases starts
  refine ⟨?_, other (by decide), other (by decide)⟩
  simp [isSpace, other (show startsNumber ' ' = false by decide),
    other (show startsNumber '\t' = false by decide),
    other (show startsNumber '\n' = false by decide),
    other (show startsNumber '\r' = false by decide)]

theorem anyNumber_of_blank {c : Char} {s space : List Symbol} (starts : startsNumber c = true)
    (blank : Blank space) : anyNumber (space ++ .char c :: s) = numeral false (.char c :: s) := by
  rw [anyNumber, bind_of_ok (skipSpace_of_blank blank (startsValue_of_startsNumber starts).1),
    bind_of_ok peek_cons]
  simp [starts]

/-- An unsigned integer is read if it is below the bound. -/
theorem answers_natural (n bound : ℕ) :
    Answers (natural bound) (.natural n) (if n < bound then some n else none) := by
  rcases spelled : Nat.toDigits 10 n with _ | ⟨c, cs⟩
  · exact absurd spelled Nat.toDigits_ne_nil
  · have starts : startsNumber c = true := by
      apply startsNumber_of_isDigit
      exact digital_toDigits n c (by rw [spelled]; exact List.mem_cons_self)
    refine ⟨fun _ => ⟨c, cs, spelled, startsValue_of_startsNumber starts⟩, ?_⟩
    intro layout space rest blank delimited
    have read := numeral_natural n delimited
    rw [spelled, List.map_cons, List.cons_append] at read
    rw [JsonText.natural, spelled, List.map_cons, List.cons_append, natural,
      bind_of_ok ((anyNumber_of_blank starts blank).trans read), Numeral.toNat?]
    simp only [Bool.not_false, Bool.true_and, Bool.and_true, decide_eq_true_eq]
    split_ifs <;> rfl

end Reader

end ImmersedBody
