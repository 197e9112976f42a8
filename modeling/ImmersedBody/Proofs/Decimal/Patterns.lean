import ImmersedBody.Proofs.Decimal.Rounding

/-!
# Bit patterns of double precision numbers

A double precision number is unpacked into a sign, a mantissa and an exponent, and packed again.
`Binary64.ofFloat` reads the same parts off the bit pattern, and for a finite number other than
zero they form a canonical magnitude.  Packing such parts yields the number they were read off.
-/

open Float.Model Float.Model.UnpackedFloat

namespace ImmersedBody

namespace Binary64

/-- The sign of a number. -/
def sign (negative : Bool) : Sign :=
  if negative then .negative else .positive

/-- The unpacked form of the value of a number. -/
def unpacked : Binary64 → UnpackedFloat
  | nan => .notANumber
  | infinite negative => .infinity (sign negative)
  | finite negative m =>
    if zero : m.significand = 0 then .zero (sign negative)
    else .finite (sign negative) m.significand m.exponent (Nat.pos_of_ne_zero zero)

/-! ## Taking patterns apart -/

section

variable (pattern : BitVec Format.binary64.numBits)

theorem toNat_unpackMantissa : (unpackMantissa pattern).toNat = pattern.toNat % leadingBit := by
  simp [unpackMantissa, leadingBit]

theorem toNat_unpackExponent :
    (unpackExponent pattern).toNat = pattern.toNat / leadingBit % 2048 := by
  simp [unpackExponent, leadingBit, Nat.shiftRight_eq_div_pow]

theorem toNat_unpackSign :
    (unpackSign pattern).toNat = pattern.toNat / 0x8000000000000000 % 2 := by
  simp [unpackSign, Nat.shiftRight_eq_div_pow]

theorem ofBitVec_unpackSign :
    Sign.ofBitVec (unpackSign pattern) =
      sign (pattern.toNat / 0x8000000000000000 % 2 == 1) := by
  have zero : unpackSign pattern = 0#1 ↔ pattern.toNat / 0x8000000000000000 % 2 = 0 := by
    rw [← BitVec.toNat_inj, toNat_unpackSign]
    rfl
  simp only [Sign.ofBitVec, sign, zero]
  rcases Nat.mod_two_eq_zero_or_one (pattern.toNat / 0x8000000000000000) with bit | bit
  · simp [bit]
  · simp [bit]

theorem toBitVec_ofBitVec : ∀ bit : BitVec 1, (Sign.ofBitVec bit).toBitVec = bit := by
  decide

/-- The parts of a pattern make the pattern up. -/
theorem packComponents_unpack :
    packComponents Format.binary64 (Sign.ofBitVec (unpackSign pattern)) (unpackExponent pattern)
      (unpackMantissa pattern) = pattern := by
  have bits : pattern.toNat < 2 ^ 64 := pattern.isLt
  have mantissa := toNat_unpackMantissa pattern
  have exponent := toNat_unpackExponent pattern
  have signBit := toNat_unpackSign pattern
  apply BitVec.eq_of_toNat_eq
  rw [packComponents, toBitVec_ofBitVec, BitVec.toNat_append, BitVec.toNat_append,
    ← Nat.shiftLeft_add_eq_or_of_lt (unpackMantissa pattern).isLt,
    ← Nat.shiftLeft_add_eq_or_of_lt (unpackExponent pattern).isLt,
    Nat.shiftLeft_eq, Nat.shiftLeft_eq, mantissa, exponent, signBit]
  show (pattern.toNat / 2 ^ 63 % 2 * 2 ^ 11 + pattern.toNat / 2 ^ 52 % 2048) * 2 ^ 52 +
    pattern.toNat % 2 ^ 52 = pattern.toNat
  omega

theorem toNat_implicit (mantissa : BitVec 52) :
    (1#1 ++ mantissa).toNat = 2 ^ 52 + mantissa.toNat := by
  rw [BitVec.toNat_append, ← Nat.shiftLeft_add_eq_or_of_lt mantissa.isLt]
  rfl

/-- The unpacked form of a pattern is that of its value. -/
theorem unpack_eq_unpacked :
    UnpackedFloat.unpack Format.binary64 pattern = (ofBits pattern.toNat).unpacked := by
  have full : unpackExponent pattern = -1#_ ↔ pattern.toNat / leadingBit % 2048 = 2047 := by
    rw [← BitVec.toNat_inj, toNat_unpackExponent]
    rfl
  have least : unpackExponent pattern = 0#_ ↔ pattern.toNat / leadingBit % 2048 = 0 := by
    rw [← BitVec.toNat_inj, toNat_unpackExponent]
    rfl
  have none : unpackMantissa pattern = 0#_ ↔ pattern.toNat % leadingBit = 0 := by
    rw [← BitVec.toNat_inj, toNat_unpackMantissa]
    rfl
  have implicit : (1#1 ++ unpackMantissa pattern).toNat =
      leadingBit + pattern.toNat % leadingBit := by
    rw [toNat_implicit, toNat_unpackMantissa]
    rfl
  have bias : Format.binary64.exponentBias = 1023 := rfl
  simp only [UnpackedFloat.unpack, ofBits, full, least, none, implicit, ofBitVec_unpackSign,
    toNat_unpackExponent, toNat_unpackMantissa]
  split_ifs with top whole bottom zero
  · rfl
  · rfl
  · rw [unpacked, dif_pos zero]
  · rw [unpacked, dif_neg zero]
    simp [bottom, bias]
  · rw [unpacked, dif_neg (by simp [leadingBit])]
    simp [bias, sub_eq_add_neg]

theorem pack_normal {mantissa : ℕ} (exponent : ℤ) (sign : Sign) (positive : 0 < mantissa)
    (long : 2 ^ 52 ≤ mantissa) (short : mantissa < 2 ^ 53) (least : -1074 ≤ exponent)
    (most : exponent ≤ 971) :
    UnpackedFloat.pack Format.binary64 (.finite sign mantissa exponent positive) =
      packComponents Format.binary64 sign (BitVec.ofNat _ (exponent + 1075).toNat)
        (BitVec.ofNat _ mantissa) := by
  have bias : Format.binary64.exponentBias = 1023 := rfl
  have bits : mantissa.log2 + 1 = Format.binary64.mantissaBits := by
    have := (Nat.le_log2 positive.ne').mpr long
    have := (Nat.log2_lt positive.ne').mpr short
    show mantissa.log2 + 1 = 53
    omega
  have sum : exponent + ((1023 : ℕ) : ℤ) + ((52 : ℕ) : ℤ) = exponent + 1075 := by
    push_cast
    ring
  simp only [UnpackedFloat.pack, bits, bias, sum, ↓reduceIte]
  rw [if_neg]
  show ¬ 2 ^ 11 ≤ (exponent + 1075).toNat + 1
  omega

theorem pack_subnormal {mantissa : ℕ} (sign : Sign) (positive : 0 < mantissa)
    (short : mantissa < 2 ^ 52) :
    UnpackedFloat.pack Format.binary64 (.finite sign mantissa (-1074) positive) =
      packComponents Format.binary64 sign 0#_ (BitVec.ofNat _ mantissa) := by
  have bits : mantissa.log2 + 1 ≠ Format.binary64.mantissaBits := by
    have := (Nat.log2_lt positive.ne').mpr short
    show mantissa.log2 + 1 ≠ 53
    omega
  simp only [UnpackedFloat.pack, bits, ↓reduceIte]
  exact if_neg (by decide)

/-- A valid pattern is packed again from its unpacked form. -/
theorem pack_unpack (valid : Format.binary64.Valid pattern) :
    UnpackedFloat.pack Format.binary64 (UnpackedFloat.unpack Format.binary64 pattern) =
      pattern := by
  have parts := packComponents_unpack pattern
  rw [UnpackedFloat.unpack]
  dsimp only
  split_ifs with full none least zero
  · rw [full, none] at parts
    exact parts
  · exact (valid.eq_packedNaN full none).symm
  · rw [least, zero] at parts
    exact parts
  · have short : (unpackMantissa pattern).toNat < 2 ^ 52 := (unpackMantissa pattern).isLt
    have positive : 0 < (unpackMantissa pattern).toNat :=
      Nat.pos_of_ne_zero fun equal => zero (BitVec.eq_of_toNat_eq equal)
    have packed := pack_subnormal (Sign.ofBitVec (unpackSign pattern)) positive short
    rw [BitVec.ofNat_toNat, BitVec.setWidth_eq] at packed
    rw [least] at parts
    simp only [least]
    exact packed.trans parts
  · have short : (unpackMantissa pattern).toNat < 2 ^ 52 := (unpackMantissa pattern).isLt
    have mantissa := toNat_implicit (unpackMantissa pattern)
    have exponent : (unpackExponent pattern).toNat < 2047 := by
      have bound : (unpackExponent pattern).toNat < 2048 := (unpackExponent pattern).isLt
      have other : (unpackExponent pattern).toNat ≠ 2047 := fun equal =>
        full (BitVec.eq_of_toNat_eq equal)
      omega
    have some : 0 < (unpackExponent pattern).toNat :=
      Nat.pos_of_ne_zero fun equal => least (BitVec.eq_of_toNat_eq equal)
    have fraction : BitVec.ofNat 52 (1#1 ++ unpackMantissa pattern).toNat =
        unpackMantissa pattern := by
      apply BitVec.eq_of_toNat_eq
      rw [mantissa, BitVec.toNat_ofNat]
      omega
    have packed := pack_normal ((unpackExponent pattern).toNat - 1075)
      (Sign.ofBitVec (unpackSign pattern))
      (by omega : 0 < (1#1 ++ unpackMantissa pattern).toNat)
      (by omega) (by omega) (by omega) (by omega)
    rw [sub_add_cancel, Int.toNat_natCast, BitVec.ofNat_toNat, BitVec.setWidth_eq, fraction]
      at packed
    exact packed.trans parts

end

end Binary64

namespace Magnitude

variable {m : Magnitude}

theorem unpackSign_packComponents (sign : Sign)
    (exponent : BitVec Format.binary64.exponentBits)
    (mantissa : BitVec Format.binary64.mantissaBitsWithoutImplicit) :
    Sign.ofBitVec (unpackSign (packComponents Format.binary64 sign exponent mantissa)) = sign := by
  have bit : unpackSign (packComponents Format.binary64 sign exponent mantissa) =
      sign.toBitVec := by
    apply BitVec.eq_of_toNat_eq
    have low : mantissa.toNat < 2 ^ 52 := mantissa.isLt
    have high : exponent.toNat < 2 ^ 11 := exponent.isLt
    have flag : sign.toBitVec.toNat < 2 ^ 1 := sign.toBitVec.isLt
    rw [Binary64.toNat_unpackSign, packComponents, BitVec.toNat_append, BitVec.toNat_append,
      ← Nat.shiftLeft_add_eq_or_of_lt mantissa.isLt, ← Nat.shiftLeft_add_eq_or_of_lt exponent.isLt,
      Nat.shiftLeft_eq, Nat.shiftLeft_eq]
    show ((sign.toBitVec.toNat * 2 ^ 11 + exponent.toNat) * 2 ^ 52 + mantissa.toNat) / 2 ^ 63 % 2 =
      sign.toBitVec.toNat
    omega
  rw [bit]
  cases sign <;> rfl

/-- A canonical magnitude that is packed is unpacked again, unless it is too large. -/
theorem Canonical.unpack_pack (canonical : m.Canonical) (most : m.exponent ≤ 971) (sign : Sign) :
    UnpackedFloat.unpack Format.binary64 (UnpackedFloat.pack Format.binary64
        (.finite sign m.significand m.exponent canonical.pos)) =
      .finite sign m.significand m.exponent canonical.pos := by
  rcases m with ⟨mantissa, exponent, narrow⟩
  have positive : 0 < mantissa := canonical.pos
  have short : mantissa < 2 ^ 53 := canonical.below
  have least : -1074 ≤ exponent := canonical.least
  have most : exponent ≤ 971 := most
  have other {code : ℕ} {value : BitVec 11} (bound : code < 2 ^ 11) (apart : code ≠ value.toNat) :
      BitVec.ofNat 11 code ≠ value := by
    intro equal
    rw [← equal, BitVec.toNat_ofNat, Nat.mod_eq_of_lt bound] at apart
    exact apart rfl
  rcases Nat.lt_or_ge mantissa (2 ^ 52) with subnormal | normal
  · have equal : exponent = -1074 := canonical.normal subnormal
    have fraction : (BitVec.ofNat 52 mantissa).toNat = mantissa := by
      rw [BitVec.toNat_ofNat, Nat.mod_eq_of_lt subnormal]
    subst equal
    rw [Binary64.pack_subnormal sign positive subnormal, UnpackedFloat.unpack]
    simp only [unpackMantissa_packComponents, unpackExponent_packComponents,
      unpackSign_packComponents, fraction]
    rw [if_neg (by decide), if_pos trivial, dif_neg]
    · rfl
    · intro zero
      rw [zero] at fraction
      exact positive.ne fraction
  · have fraction : (1#1 ++ BitVec.ofNat 52 mantissa).toNat = mantissa := by
      rw [Binary64.toNat_implicit, BitVec.toNat_ofNat]
      omega
    have biased : (BitVec.ofNat 11 (exponent + 1075).toNat).toNat = (exponent + 1075).toNat := by
      rw [BitVec.toNat_ofNat, Nat.mod_eq_of_lt (by omega)]
    rw [Binary64.pack_normal exponent sign positive normal short least most, UnpackedFloat.unpack]
    simp only [unpackMantissa_packComponents, unpackExponent_packComponents,
      unpackSign_packComponents, fraction, biased]
    rw [if_neg (other (by omega) ?_), if_neg (other (by omega) ?_)]
    · congr 1
      show (((exponent + 1075).toNat : ℕ) : ℤ) - 1075 = exponent
      omega
    · show (exponent + 1075).toNat ≠ 0
      omega
    · show (exponent + 1075).toNat ≠ 2047
      omega

/-- The magnitude of a number other than zero is canonical. -/
theorem canonical_of_finite {bits : ℕ} {negative : Bool}
    (finite : Binary64.ofBits bits = .finite negative m) (positive : 0 < m.significand) :
    m.Canonical ∧ m.exponent ≤ 971 := by
  have fraction : bits % Binary64.leadingBit < 2 ^ 52 := Nat.mod_lt _ (by decide)
  have biased : bits / Binary64.leadingBit % 2048 < 2048 := Nat.mod_lt _ (by decide)
  have leading : Binary64.leadingBit = 2 ^ 52 := rfl
  simp only [Binary64.ofBits] at finite
  split_ifs at finite with full zero least
  · cases finite
    exact ⟨⟨positive, fraction.trans (by decide), le_rfl, fun _ => rfl, by simp⟩, by simp⟩
  · generalize bits % Binary64.leadingBit = low at *
    generalize bits / Binary64.leadingBit % 2048 = high at *
    cases finite
    refine ⟨⟨positive, ?_, ?_, ?_, ?_⟩, ?_⟩ <;> show _
    · show Binary64.leadingBit + low < 2 ^ 53
      omega
    · show -1074 ≤ (high : ℤ) - 1075
      omega
    · show Binary64.leadingBit + low < 2 ^ 52 → (high : ℤ) - 1075 = -1074
      omega
    · simp
      omega
    · show (high : ℤ) - 1075 ≤ 971
      omega

end Magnitude

/-! ## Numbers -/

section

variable {x : Float} {negative : Bool} {m : Magnitude}

/-- The unpacked form of a number is that of its value. -/
theorem unpack_toModel (x : Float) : x.toModel.unpack = (Binary64.ofFloat x).unpacked :=
  Binary64.unpack_eq_unpacked _

theorem isFinite_iff (x : Float) :
    x.isFinite = true ↔ ∃ negative m, Binary64.ofFloat x = .finite negative m := by
  have finite : x.isFinite = (Binary64.ofFloat x).unpacked.isFinite := by
    rw [← unpack_toModel]
    rfl
  rw [finite]
  rcases Binary64.ofFloat x with _ | sign | ⟨sign, m⟩
  · simp [Binary64.unpacked, UnpackedFloat.isFinite]
  · simp [Binary64.unpacked, UnpackedFloat.isFinite]
  · rw [Binary64.unpacked]
    split_ifs <;> simp [UnpackedFloat.isFinite]

/-- A number is packed from its unpacked form. -/
theorem ofModel_pack_unpack (x : Float) : Float.ofModel (.pack x.toModel.unpack) = x := by
  rcases x with ⟨⟨bits, valid⟩⟩
  have packed := Binary64.pack_unpack bits.toBitVec valid
  simp only [Float.Model.pack, Float.Model.unpack, packed]

/-- The number without a sign that has a canonical magnitude. -/
def Magnitude.Canonical.number (canonical : m.Canonical) : Float :=
  .ofModel (.pack (.finite .positive m.significand m.exponent canonical.pos))

theorem Magnitude.Canonical.isInf_number (canonical : m.Canonical) (most : m.exponent ≤ 971) :
    canonical.number.isInf = false := by
  show (UnpackedFloat.unpack Format.binary64 (UnpackedFloat.pack Format.binary64 _)).isInf = false
  rw [canonical.unpack_pack most]
  rfl

/-- A number other than zero is its sign in front of the number with its magnitude. -/
theorem signed_number (value : Binary64.ofFloat x = .finite negative m)
    (canonical : m.Canonical) (most : m.exponent ≤ 971) :
    (if negative then -canonical.number else canonical.number) = x := by
  have unpacked : x.toModel.unpack =
      .finite (Binary64.sign negative) m.significand m.exponent canonical.pos := by
    rw [unpack_toModel, value, Binary64.unpacked, dif_neg canonical.pos.ne']
  have whole := ofModel_pack_unpack x
  rw [unpacked] at whole
  cases negative with
  | false =>
      exact whole
  | true =>
      have turned : -canonical.number = .ofModel (.pack (UnpackedFloat.neg
          (UnpackedFloat.unpack Format.binary64 (UnpackedFloat.pack Format.binary64
            (.finite .positive m.significand m.exponent canonical.pos))))) := rfl
      rw [if_pos rfl, turned, canonical.unpack_pack most]
      exact whole

/-- A number without a magnitude is zero with its sign. -/
theorem signed_zero (value : Binary64.ofFloat x = .finite negative m) (none : m.significand = 0) :
    (if negative then -(0 : Float) else 0) = x := by
  have unpacked : x.toModel.unpack = .zero (Binary64.sign negative) := by
    rw [unpack_toModel, value, Binary64.unpacked, dif_pos none]
  have whole := ofModel_pack_unpack x
  rw [unpacked] at whole
  rw [← whole]
  cases negative <;> decide +kernel

end

end ImmersedBody
