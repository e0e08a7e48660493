import DoubleEntry.Proofs.Rounding
import DoubleEntry.Json.Number
import Mathlib

/-! # Doubles and their bits

A finite double is a number of units of a power of two, below `2 ^ 53` units and not less than `2 ^ 52` of
them unless the unit is the least one. Its bits say the sign, the units and the power, and the operations give
the double that the exact result is rounded to.
-/

namespace DoubleEntry.Rounding

open Float.Model Float.Model.UnpackedFloat Decimal

/-- A mantissa and an exponent as finite doubles have them. -/
structure IsDouble (units : ℕ) (exponent : ℤ) : Prop where
  fits : units < 2 ^ 53
  least : -1074 ≤ exponent
  largest : exponent ≤ 971
  full : 2 ^ 52 ≤ units ∨ exponent = -1074

/-- The double of so many units. -/
def double (sign : Sign) (units : ℕ) (exponent : ℤ) : Float := .ofModel (.pack (ofUnits sign units exponent))

/-- The sign in the bits of a double. -/
def signOf (bits : UInt64) : Sign := if bits >>> 63 != 0 then .negative else .positive

/-! ## From the bits -/

section Bits

variable (bits : UInt64)

theorem toNat_unpackExponent :
    (@unpackExponent Format.binary64 bits.toBitVec).toNat = ((bits >>> 52) &&& 0x7FF).toNat := by
  have mask : (2047 : ℕ) = 2 ^ 11 - 1 := rfl
  simp only [unpackExponent, BitVec.toNat_cast, BitVec.extractLsb_toNat, UInt64.toNat_and,
    UInt64.toNat_shiftRight, UInt64.toNat_ofNat]
  norm_num
  rw [mask, Nat.and_two_pow_sub_one_eq_mod]

theorem toNat_unpackMantissa :
    (@unpackMantissa Format.binary64 bits.toBitVec).toNat = (bits &&& 0xFFFFFFFFFFFFF).toNat := by
  have mask : (4503599627370495 : ℕ) = 2 ^ 52 - 1 := rfl
  simp only [unpackMantissa, BitVec.toNat_cast, BitVec.extractLsb_toNat, UInt64.toNat_and, UInt64.toNat_ofNat]
  norm_num
  rw [mask, Nat.and_two_pow_sub_one_eq_mod]

theorem ofBitVec_unpackSign :
    Sign.ofBitVec (@unpackSign Format.binary64 bits.toBitVec) = signOf bits := by
  have top : (@unpackSign Format.binary64 bits.toBitVec).toNat = bits.toNat >>> 63 % 2 := by
    simp only [unpackSign, BitVec.toNat_cast, BitVec.extractLsb_toNat]
    rfl
  have small : bits.toNat >>> 63 < 2 := by
    rw [Nat.shiftRight_eq_div_pow]
    have := bits.toNat_lt
    omega
  rw [Nat.mod_eq_of_lt small] at top
  have shifted : (bits >>> 63).toNat = bits.toNat >>> 63 := by
    simp [UInt64.toNat_shiftRight]
  have isZero : @unpackSign Format.binary64 bits.toBitVec = 0#1 ↔ bits >>> 63 = 0 := by
    rw [← BitVec.toNat_inj, ← UInt64.toNat_inj, top, shifted]
    rfl
  simp only [Sign.ofBitVec, isZero, signOf, bne_iff_ne, ne_eq, ite_not]

end Bits

/-- The units that the fields of a double say, unless they are those of infinity and of NaN. -/
theorem unpack_packComponents (sign : Sign) {exponent : BitVec 11} (mantissa : BitVec 52)
    (ordinary : exponent ≠ -1#11) :
    UnpackedFloat.unpack Format.binary64 (packComponents Format.binary64 sign exponent mantissa) =
      if exponent = 0#11 then ofUnits sign mantissa.toNat (-1074)
      else ofUnits sign (2 ^ 52 + mantissa.toNat) (exponent.toNat - 1075) := by
  have small : mantissa.toNat < 2 ^ 52 := mantissa.isLt
  simp only [UnpackedFloat.unpack, unpackMantissa_packComponents, unpackExponent_packComponents,
    unpackSign_packComponents, Sign.ofBitVec_toBitVec, ordinary, ↓reduceIte]
  by_cases subnormal : exponent = 0#11
  · simp only [subnormal, ↓reduceIte]
    by_cases none : mantissa = 0#52
    · simp [none, ofUnits]
    · have some : 0 < mantissa.toNat := by
        rw [Nat.pos_iff_ne_zero]
        exact fun zero => none (BitVec.toNat_inj.mp zero)
      have fits : mantissa.toNat ≠ 2 ^ 53 := by omega
      simp only [none, ↓reduceDIte, ofUnits, some, fits, ↓reduceIte]
      rfl
  · have implicit : (1#1 ++ mantissa).toNat = 2 ^ 52 + mantissa.toNat := by
      rw [BitVec.toNat_append, ← Nat.shiftLeft_add_eq_or_of_lt small]
      rfl
    have fits : 2 ^ 52 + mantissa.toNat ≠ 2 ^ 53 := by omega
    have some : 0 < 2 ^ 52 + mantissa.toNat := by omega
    simp only [subnormal, ↓reduceIte, implicit, ofUnits, some, fits, ↓reduceDIte]
    rfl

/-- What is finite has the mantissa and the exponent that are read off its bits. -/
theorem unpack_eq {bits : UInt64} (isFinite : (UnpackedFloat.unpack Format.binary64 bits.toBitVec).isFinite) :
    IsDouble (Binary.ofBits bits).mantissa (Binary.ofBits bits).exponent ∧
      UnpackedFloat.unpack Format.binary64 bits.toBitVec =
        ofUnits (signOf bits) (Binary.ofBits bits).mantissa (Binary.ofBits bits).exponent := by
  have isExponent := toNat_unpackExponent bits
  have isMantissa := toNat_unpackMantissa bits
  have fields :=
    @packComponents_unpackSign_unpackExponent_unpackMantissa Format.binary64 bits.toBitVec
  rw [ofBitVec_unpackSign] at fields
  rw [← fields] at isFinite ⊢
  unfold Binary.ofBits
  rw [← isExponent, ← isMantissa]
  generalize @unpackExponent Format.binary64 bits.toBitVec = exponent,
    @unpackMantissa Format.binary64 bits.toBitVec = mantissa at isFinite
  have below : exponent.toNat < 2 ^ 11 := exponent.isLt
  have small : mantissa.toNat < 2 ^ 52 := mantissa.isLt
  have ordinary : exponent ≠ -1#11 := by
    rintro rfl
    simp only [UnpackedFloat.unpack, unpackExponent_packComponents, ↓reduceIte] at isFinite
    split at isFinite <;> cases isFinite
  have notTop : exponent.toNat ≠ 2047 := fun top => ordinary (BitVec.toNat_inj.mp top)
  rw [unpack_packComponents _ _ ordinary]
  by_cases subnormal : exponent = 0#11
  · have zero : exponent.toNat = 0 := congrArg BitVec.toNat subnormal
    rw [if_pos subnormal, if_pos zero]
    exact ⟨⟨by dsimp only; omega, le_rfl, by dsimp only; omega, .inr rfl⟩, rfl⟩
  · have normal : exponent.toNat ≠ 0 := fun zero => subnormal (BitVec.toNat_inj.mp zero)
    rw [if_neg subnormal, if_neg normal]
    exact ⟨⟨by dsimp only; omega, by dsimp only; omega, by dsimp only; omega,
      .inl (Nat.le_add_right _ _)⟩, rfl⟩

/-- The units of a finite double are packed into its bits and read off them again. -/
theorem unpack_pack (sign : Sign) {units : ℕ} {exponent : ℤ} (isDouble : IsDouble units exponent) :
    UnpackedFloat.unpack Format.binary64 (UnpackedFloat.pack Format.binary64 (ofUnits sign units exponent)) =
      ofUnits sign units exponent := by
  obtain ⟨fits, least, largest, full⟩ := isDouble
  have noCarry : units ≠ 2 ^ 53 := fits.ne
  by_cases none : units = 0
  · simp [none, ofUnits, UnpackedFloat.pack]
  have some : 0 < units := Nat.pos_of_ne_zero none
  obtain ⟨biased, isBiased⟩ : ∃ biased : ℕ, exponent = biased - 1075 := ⟨(exponent + 1075).toNat, by omega⟩
  have isPower : (exponent + (Format.binary64.exponentBias : ℕ) + (52 : ℕ)).toNat = biased := by
    change (exponent + 1023 + 52).toNat = biased
    omega
  have inRange : ¬ 2 ^ 11 ≤ biased + 1 := by omega
  have unpacked : ofUnits sign units exponent = .finite sign units exponent some := by
    simp only [ofUnits, some, noCarry, ↓reduceDIte, ↓reduceIte]
  have mantissa : (BitVec.ofNat 52 units).toNat = units % 2 ^ 52 := BitVec.toNat_ofNat _ _
  rw [unpacked]
  simp only [UnpackedFloat.pack, isPower, inRange, ↓reduceIte]
  by_cases normal : 2 ^ 52 ≤ units
  · have bits : units.log2 + 1 = Format.binary64.mantissaBits := by
      have : units.log2 = 52 := (Nat.log2_eq_iff none).mpr ⟨normal, fits⟩
      rw [this]
      rfl
    have power : (BitVec.ofNat 11 biased).toNat = biased := by
      rw [BitVec.toNat_ofNat, Nat.mod_eq_of_lt (by omega)]
    have ordinary : BitVec.ofNat 11 biased ≠ -1#11 := fun top => by
      have := power.symm.trans (congrArg BitVec.toNat top)
      have : biased = 2047 := this
      omega
    have notZero : BitVec.ofNat 11 biased ≠ 0#11 := fun zero => by
      have := power.symm.trans (congrArg BitVec.toNat zero)
      have : biased = 0 := this
      omega
    have implicit : 2 ^ 52 + units % 2 ^ 52 = units := by omega
    rw [if_pos bits, unpack_packComponents _ _ ordinary, if_neg notZero, mantissa, power, implicit,
      ← isBiased, unpacked]
  · have bits : units.log2 + 1 ≠ Format.binary64.mantissaBits := by
      have : units.log2 < 52 := (Nat.log2_lt none).mpr (by omega)
      change units.log2 + 1 ≠ 53
      omega
    rw [if_neg bits, unpack_packComponents _ _ (by decide), if_pos rfl, mantissa,
      Nat.mod_eq_of_lt (by omega), ← full.resolve_left normal, unpacked]

/-! ## Finite doubles -/

section Finite

variable {sign : Sign} {units : ℕ} {exponent : ℤ}

theorem unpack_double (sign : Sign) (isDouble : IsDouble units exponent) :
    (double sign units exponent).toModel.unpack = ofUnits sign units exponent :=
  unpack_pack sign isDouble

theorem isFinite_double (sign : Sign) (isDouble : IsDouble units exponent) :
    (double sign units exponent).isFinite = true := by
  change (double sign units exponent).toModel.unpack.isFinite = true
  rw [unpack_double sign isDouble, ofUnits]
  split
  · split <;> rfl
  · rfl

theorem isDouble_ofBits {x : Float} (isFinite : x.isFinite = true) :
    IsDouble (Binary.ofBits x.toBits).mantissa (Binary.ofBits x.toBits).exponent :=
  (unpack_eq isFinite).1

theorem eq_double {x : Float} (isFinite : x.isFinite = true) :
    x = double (signOf x.toBits) (Binary.ofBits x.toBits).mantissa (Binary.ofBits x.toBits).exponent := by
  have unpacked : x.toModel.unpack = ofUnits (signOf x.toBits) (Binary.ofBits x.toBits).mantissa
      (Binary.ofBits x.toBits).exponent := (unpack_eq isFinite).2
  rw [double, ← unpacked]
  exact (Float.ofBits_toBits x).symm

theorem ofUnits_inj {sign' : Sign} {units' : ℕ} {exponent' : ℤ} (fits : units < 2 ^ 53)
    (fits' : units' < 2 ^ 53) (same : ofUnits sign units exponent = ofUnits sign' units' exponent') :
    sign = sign' ∧ units = units' ∧ (0 < units → exponent = exponent') := by
  have noCarry := fits.ne
  have noCarry' := fits'.ne
  unfold ofUnits at same
  by_cases some : 0 < units <;> by_cases some' : 0 < units' <;>
    simp only [some, some', noCarry, noCarry', ↓reduceDIte, ↓reduceIte] at same
  · obtain ⟨rfl, rfl, rfl⟩ := UnpackedFloat.finite.inj same
    exact ⟨rfl, rfl, fun _ => rfl⟩
  · cases same
  · cases same
  · exact ⟨UnpackedFloat.zero.inj same, by omega, fun positive => absurd positive some⟩

/-- The sign, the units and, unless there are none, the power are read off the bits. -/
theorem ofBits_double (sign : Sign) (isDouble : IsDouble units exponent) :
    sign = signOf (double sign units exponent).toBits ∧
      units = (Binary.ofBits (double sign units exponent).toBits).mantissa ∧
      (0 < units → exponent = (Binary.ofBits (double sign units exponent).toBits).exponent) := by
  have isFinite := isFinite_double sign isDouble
  refine ofUnits_inj isDouble.fits (isDouble_ofBits isFinite).fits ?_
  rw [← unpack_double sign isDouble]
  exact (unpack_eq isFinite).2

theorem neg_double (isDouble : IsDouble units exponent) :
    -double .positive units exponent = double .negative units exponent := by
  have fits := isDouble.fits.ne
  change Float.ofModel (.pack (double .positive units exponent).toModel.unpack.neg) = _
  rw [unpack_double .positive isDouble, double]
  congr 2
  unfold ofUnits
  by_cases some : 0 < units <;> simp only [some, fits, ↓reduceDIte, ↓reduceIte] <;> rfl

end Finite

/-! ## The operations on doubles -/

/-- A double is what a number is rounded to. -/
def RoundsTo (exact : ℚ) (x : Float) : Prop :=
  ∃ units exponent, Rounds exact units exponent ∧ x = double .positive units exponent

/-- A positive double stands for a number. -/
def StandsFor (x : Float) (value : ℚ) : Prop :=
  ∃ units exponent, ∃ positive : 0 < units, IsDouble units exponent ∧
    x.toModel.unpack = .finite .positive units exponent positive ∧ value = units * 2 ^ exponent

section Operations

variable {x y : Float} {v w : ℚ}

theorem exponent_le_of_lt {units : ℕ} {exponent : ℤ} (full : 2 ^ 52 ≤ units ∨ exponent = -1074)
    (small : (units * 2 ^ exponent : ℚ) < 2 ^ (1024 : ℤ)) : exponent ≤ 971 := by
  rcases full with full | least
  · have full : (2 ^ 52 : ℚ) ≤ units := by exact_mod_cast full
    have power : (2 : ℚ) ^ ((52 : ℕ) + exponent) < 2 ^ (1024 : ℤ) := by
      rw [← two_pow_mul_zpow]
      exact (mul_le_mul_of_nonneg_right full (two_zpow_pos exponent).le).trans_lt small
    rw [zpow_lt_zpow_iff_right₀ (by norm_num)] at power
    omega
  · omega

/-- A rounded number is a double again, unless it has become too large. -/
theorem Rounds.isDouble {exact : ℚ} {units : ℕ} {exponent : ℤ} (rounds : Rounds exact units exponent)
    (small : (units * 2 ^ exponent : ℚ) < 2 ^ (1024 : ℤ)) :
    ∃ units' exponent', IsDouble units' exponent' ∧ (units' * 2 ^ exponent' : ℚ) = units * 2 ^ exponent ∧
      ∀ sign, double sign units exponent = double sign units' exponent' := by
  have least := rounds.least
  by_cases carry : units = 2 ^ 53
  · have same : ((2 ^ 52 : ℕ) * 2 ^ (exponent + 1) : ℚ) = units * 2 ^ exponent := by
      rw [carry, zpow_add_one₀ (by norm_num)]
      push_cast
      ring
    rw [← same] at small ⊢
    refine ⟨2 ^ 52, exponent + 1, ⟨by decide, by omega, ?_, .inl le_rfl⟩, rfl, fun sign => ?_⟩
    · exact exponent_le_of_lt (.inl le_rfl) small
    · simp [double, ofUnits, carry]
  · have full := or_iff_not_imp_right.mpr rounds.le_units
    exact ⟨units, exponent, ⟨lt_of_le_of_ne rounds.units_le carry, least, exponent_le_of_lt full small, full⟩,
      rfl, fun _ => rfl⟩

theorem standsFor_double {units : ℕ} {exponent : ℤ} (isDouble : IsDouble units exponent)
    (positive : 0 < units) : StandsFor (double .positive units exponent) (units * 2 ^ exponent) := by
  refine ⟨units, exponent, positive, isDouble, ?_, rfl⟩
  rw [unpack_double .positive isDouble]
  simp only [ofUnits, positive, isDouble.fits.ne, ↓reduceDIte, ↓reduceIte]

theorem StandsFor.mul (left : StandsFor x v) (right : StandsFor y w) : RoundsTo (v * w) (x * y) := by
  obtain ⟨units, exponent, positive, isDouble, unpacked, rfl⟩ := left
  obtain ⟨units', exponent', positive', isDouble', unpacked', rfl⟩ := right
  have starts : 2 ^ 52 ≤ units * units' ∨ exponent + exponent' ≤ -1074 := by
    rcases isDouble.full with full | least
    · exact .inl (full.trans (Nat.le_mul_of_pos_right _ positive'))
    · rcases isDouble'.full with full' | least'
      · exact .inl (full'.trans (Nat.le_mul_of_pos_left _ positive))
      · exact .inr (by omega)
  obtain ⟨product, target, rounds, isProduct⟩ := mul_rounds positive positive' starts
  refine ⟨product, target, rounds, ?_⟩
  change Float.ofModel (.pack (UnpackedFloat.mul Format.binary64 x.toModel.unpack y.toModel.unpack)) = _
  rw [unpacked, unpacked', isProduct]
  rfl

theorem StandsFor.div (left : StandsFor x v) (right : StandsFor y w) : RoundsTo (v / w) (x / y) := by
  obtain ⟨units, exponent, positive, isDouble, unpacked, rfl⟩ := left
  obtain ⟨units', exponent', positive', isDouble', unpacked', rfl⟩ := right
  obtain ⟨quotient, target, rounds, isQuotient⟩ := div_rounds positive positive'
  refine ⟨quotient, target, rounds, ?_⟩
  change Float.ofModel (.pack (UnpackedFloat.div Format.binary64 x.toModel.unpack y.toModel.unpack)) = _
  rw [unpacked, unpacked', isQuotient]
  rfl

/-- A whole number is rounded once. -/
theorem toFloat_roundsTo {n : ℕ} (positive : 0 < n) (fits : n < 2 ^ 64) :
    RoundsTo n (UInt64.ofNat n).toFloat := by
  obtain ⟨rounded, target, rounds, isRounded⟩ := ofNat_rounds positive
  refine ⟨rounded, target, rounds, ?_⟩
  change Float.ofModel (.pack (UnpackedFloat.ofNat Format.binary64 (UInt64.ofNat n).toNat)) = _
  rw [UInt64.toNat_ofNat_of_lt' fits, isRounded]
  rfl

/-- The small powers of ten, which are kept in a table, are the ones that are computed. -/
theorem toBits_powerOfTen : ∀ k < 23,
    (Json.powerOfTen k).toBits = (Float.ofModel (Float.Model.ofScientific 1 k)).toBits := by
  decide +kernel

/-- The powers of ten of the reader are rounded once. -/
theorem powerOfTen_roundsTo {k : ℕ} (inRange : k ≤ 308) : RoundsTo (10 ^ k) (Json.powerOfTen k) := by
  have computed : Json.powerOfTen k = Float.ofModel (Float.Model.ofScientific 1 k) := by
    by_cases small : k < 23
    · exact Float.toBits_inj.mp (toBits_powerOfTen k small)
    · have large : ¬ (1 < 2 ^ 53 ∧ k ≤ 22) := by omega
      rw [Json.powerOfTen, Float.ofScientific, dif_neg large]
      rfl
  have positive : 0 < 10 ^ k := Nat.pow_pos (by decide)
  obtain ⟨product, target, rounds, isProduct⟩ :=
    @mul_rounds .positive .positive (2 ^ 53) (10 ^ k) (-53) 0 (by decide) positive
    (.inl (le_trans (by decide) (Nat.le_mul_of_pos_right _ positive)))
  refine ⟨product, target, ?_, ?_⟩
  · convert rounds using 1
    norm_num
  · have notLarge : ¬ (2 ^ 11 : ℤ) < k := by omega
    have notSmall : ¬ (k : ℤ) < -((2 ^ 11 : ℤ) + Nat.log2 1) := by omega
    have notNegative : (0 : ℤ) ≤ k := by omega
    rw [computed, double, Float.Model.ofScientific]
    congr 2
    change _ = ofUnits (.positive * .positive) product target
    rw [← isProduct, UnpackedFloat.ofScientific, dif_neg one_ne_zero, if_neg notLarge, if_neg notSmall,
      if_pos notNegative]
    rfl

end Operations

end DoubleEntry.Rounding
