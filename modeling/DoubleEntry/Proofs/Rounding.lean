import DoubleEntry.Json.Number
import Mathlib

/-! # Rounding to doubles

The operations on doubles cut an exact result off to as many bits as a double has, and of the rest they keep
whether it is nothing, less than half a unit, half of one, or more. That is enough to round to the nearest
double, and to the even one of two that are equally near.
-/

namespace DoubleEntry.Rounding

open Float.Model Float.Model.UnpackedFloat

/-! ## Cut off and rounded -/

/-- What the two bits behind a mantissa tell of the number that was cut off to it. -/
def IsCut : ExtendedMantissa → ℚ → Prop
  | ⟨mantissa, false, false⟩, exact => exact = mantissa
  | ⟨mantissa, false, true⟩, exact => mantissa < exact ∧ exact < mantissa + 1 / 2
  | ⟨mantissa, true, false⟩, exact => exact = mantissa + 1 / 2
  | ⟨mantissa, true, true⟩, exact => mantissa + 1 / 2 < exact ∧ exact < mantissa + 1

/-- The natural number that is nearest to a number, the even one of two. -/
structure IsNearest (exact : ℚ) (rounded : ℕ) : Prop where
  near : |exact - rounded| ≤ 1 / 2
  even : |exact - rounded| = 1 / 2 → Even rounded

section Cut

variable {em : ExtendedMantissa} {exact : ℚ}

theorem IsCut.bounds (cut : IsCut em exact) : em.mantissa ≤ exact ∧ exact < em.mantissa + 1 := by
  obtain ⟨mantissa, _ | _, _ | _⟩ := em
  · rw [show exact = mantissa from cut]
    exact ⟨le_rfl, by linarith⟩
  · obtain ⟨above, below⟩ := cut
    exact ⟨above.le, by linarith⟩
  · rw [show exact = mantissa + 1 / 2 from cut]
    exact ⟨by linarith, by linarith⟩
  · obtain ⟨above, below⟩ := cut
    exact ⟨by linarith, below⟩

/-- The bit that is shifted out becomes the first one behind the mantissa. -/
theorem IsCut.shiftRightOne (cut : IsCut em exact) : IsCut em.shiftRightOne (exact / 2) := by
  obtain ⟨mantissa, first, rest⟩ := em
  obtain ⟨half, rfl | rfl⟩ := Nat.even_or_odd' mantissa
  · have kept : 2 * half / 2 = half := by omega
    have out : (2 * half % 2 != 0) = false := by simp
    simp only [ExtendedMantissa.shiftRightOne, kept, out]
    cases first <;> cases rest <;> simp only [IsCut, Bool.or_false, Bool.or_true] at cut ⊢ <;>
      push_cast at cut ⊢
    · linarith
    · constructor <;> linarith
    · constructor <;> linarith
    · constructor <;> linarith
  · have kept : (2 * half + 1) / 2 = half := by omega
    have out : ((2 * half + 1) % 2 != 0) = true := by simp [Nat.add_mod]
    simp only [ExtendedMantissa.shiftRightOne, kept, out]
    cases first <;> cases rest <;> simp only [IsCut, Bool.or_false, Bool.or_true] at cut ⊢ <;>
      push_cast at cut ⊢
    · linarith
    · constructor <;> linarith
    · constructor <;> linarith
    · constructor <;> linarith

theorem IsCut.shiftRight (cut : IsCut em exact) (count : ℕ) : IsCut (em >>> count) (exact / 2 ^ count) := by
  induction count with
  | zero =>
    rw [pow_zero, div_one]
    exact cut
  | succ count ih =>
    rw [pow_succ, ← div_div]
    exact ih.shiftRightOne

theorem isNearest_of_lt {below : ℕ} (above : below ≤ exact) (near : exact < below + 1 / 2) :
    IsNearest exact below := by
  have distance : |exact - below| = exact - below := abs_of_nonneg (sub_nonneg.mpr above)
  exact ⟨by linarith, fun half => by linarith⟩

theorem isNearest_of_gt {above : ℕ} (near : above - 1 / 2 < exact) (below : exact ≤ above) :
    IsNearest exact above := by
  have distance : |exact - above| = above - exact := by rw [abs_sub_comm, abs_of_nonneg (by linarith)]
  exact ⟨by linarith, fun half => by linarith⟩

theorem isNearest_half (mantissa : ℕ) : IsNearest (mantissa + 1 / 2) (mantissa + mantissa % 2) := by
  obtain ⟨half, rfl | rfl⟩ := Nat.even_or_odd' mantissa
  · have stays : 2 * half + 2 * half % 2 = 2 * half := by omega
    rw [stays]
    exact ⟨by norm_num, fun _ => even_two_mul half⟩
  · have rises : 2 * half + 1 + (2 * half + 1) % 2 = 2 * (half + 1) := by omega
    rw [rises]
    refine ⟨abs_le.mpr ?_, fun _ => even_two_mul _⟩
    push_cast
    constructor <;> linarith

theorem IsCut.isNearest (cut : IsCut em exact) : IsNearest exact em.roundedMantissa := by
  obtain ⟨mantissa, _ | _, _ | _⟩ := em
  · rw [show exact = mantissa from cut]
    exact isNearest_of_lt le_rfl (lt_add_of_pos_right _ (by norm_num))
  · exact isNearest_of_lt cut.1.le cut.2
  · rw [show exact = mantissa + 1 / 2 from cut]
    exact isNearest_half mantissa
  · obtain ⟨above, below⟩ := cut
    refine @isNearest_of_gt _ (mantissa + 1) ?_ ?_ <;> push_cast <;> linarith

theorem IsNearest.unique {one other : ℕ} (nearest : IsNearest exact one) (also : IsNearest exact other) :
    one = other := by
  obtain ⟨near, even⟩ := nearest
  obtain ⟨near', even'⟩ := also
  rw [abs_le] at near near'
  by_contra different
  wlog less : one < other generalizing one other
  · exact this near' even' near even (Ne.symm different) (by omega)
  -- Both are at half a unit then, one next to the other.
  have step : (one : ℚ) + 1 ≤ other := by exact_mod_cast less
  have next : other = one + 1 := by
    have : (other : ℚ) ≤ one + 1 := by linarith
    have : other ≤ one + 1 := by exact_mod_cast this
    omega
  have half : exact - one = 1 / 2 := by linarith
  have half' : exact - other = -(1 / 2) := by linarith
  have isEven : Even one := even (by rw [half]; norm_num)
  have isEven' : Even other := even' (by rw [half']; norm_num)
  rw [next, Nat.even_add_one] at isEven'
  exact isEven' isEven

end Cut

/-! ## The exponent of a rounded result -/

/-- A number in units of a power of two, rounded to as many units as a double has, or to one more. -/
structure Rounds (exact : ℚ) (units : ℕ) (exponent : ℤ) : Prop where
  nearest : IsNearest (exact / 2 ^ exponent) units
  least : -1074 ≤ exponent
  fits : exact < 2 ^ 53 * 2 ^ exponent
  full : 2 ^ 52 * 2 ^ exponent ≤ exact ∨ exponent = -1074

/-- The double of so many units, if its exponent is not too large. -/
def ofUnits (sign : Sign) (units : ℕ) (exponent : ℤ) : UnpackedFloat :=
  if positive : 0 < units then
    if units = 2 ^ 53 then .finite sign (2 ^ 52) (exponent + 1) (by decide)
    else .finite sign units exponent positive
  else .zero sign

section Exponents

variable {exact : ℚ} {units : ℕ} {exponent : ℤ}

theorem two_zpow_pos (exponent : ℤ) : (0 : ℚ) < 2 ^ exponent := zpow_pos (by norm_num) exponent

theorem two_pow_mul_zpow (count : ℕ) (exponent : ℤ) :
    (2 : ℚ) ^ count * 2 ^ exponent = 2 ^ (count + exponent) := by
  rw [zpow_add₀ (by norm_num), zpow_natCast]

theorem Rounds.units_le (rounds : Rounds exact units exponent) : units ≤ 2 ^ 53 := by
  have scale := two_zpow_pos exponent
  have below : exact / 2 ^ exponent < 2 ^ 53 := (div_lt_iff₀ scale).mpr rounds.fits
  have near := (abs_le.mp rounds.nearest.near).1
  have small : (units : ℚ) < 2 ^ 53 + 1 := by linarith
  have small : units < 2 ^ 53 + 1 := by exact_mod_cast small
  omega

theorem Rounds.le_units (rounds : Rounds exact units exponent) (normal : exponent ≠ -1074) :
    2 ^ 52 ≤ units := by
  have scale := two_zpow_pos exponent
  have above : 2 ^ 52 ≤ exact / 2 ^ exponent := (le_div_iff₀ scale).mpr (rounds.full.resolve_right normal)
  have near := (abs_le.mp rounds.nearest.near).2
  have large : (2 ^ 52 : ℚ) < units + 1 := by linarith
  have large : 2 ^ 52 < units + 1 := by exact_mod_cast large
  omega

theorem targetExponent_eq (mantissa : ℕ) (exponent : ℤ) :
    Format.binary64.targetExponent (totalExponent mantissa exponent) =
      max (mantissa.log2 + exponent - 52) (-1074) := by
  simp only [Format.targetExponent, totalExponent, Format.mantissaBits, Format.minExponent]
  norm_num
  omega

/-- Shifted to where it has at most as many bits as a double, a mantissa is cut off there. -/
theorem shiftToTargetExponent_cut {mantissa : ℕ} {accuracy : Accuracy}
    (cut : IsCut (.ofMantissaAndAccuracy mantissa accuracy) (exact / 2 ^ exponent))
    (starts : 2 ^ 52 ≤ mantissa ∨ exponent ≤ -1074) :
    ∃ em target, shiftToTargetExponent Format.binary64 mantissa exponent accuracy = (em, target) ∧
      Rounds exact em.roundedMantissa target := by
  have starts : exponent ≤ max (mantissa.log2 + exponent - 52) (-1074) := by
    rcases starts with large | low
    · have : 52 ≤ mantissa.log2 := (Nat.le_log2 (by omega)).mpr large
      omega
    · omega
  generalize isTarget : max (mantissa.log2 + exponent - 52) (-1074) = target at starts
  obtain ⟨count, rfl⟩ : ∃ count : ℕ, target = exponent + count := ⟨(target - exponent).toNat, by omega⟩
  refine ⟨ExtendedMantissa.ofMantissaAndAccuracy mantissa accuracy >>> count, exponent + count, ?_, ?_⟩
  · rw [shiftToTargetExponent, targetExponent_eq, isTarget, shiftToExponent, add_sub_cancel_left,
      Int.toNat_natCast]
  have shifted : exact / 2 ^ (exponent + count) = exact / 2 ^ exponent / 2 ^ count := by
    rw [zpow_add₀ (by norm_num), zpow_natCast, div_div]
  have nearest := (cut.shiftRight count).isNearest
  rw [← shifted] at nearest
  have scale := two_zpow_pos exponent
  have isMantissa : (ExtendedMantissa.ofMantissaAndAccuracy mantissa accuracy).mantissa = mantissa := by
    cases accuracy with
    | exact => rfl
    | inexact order => cases order <;> rfl
  obtain ⟨above, below⟩ := cut.bounds
  rw [isMantissa] at above below
  rw [le_div_iff₀ scale] at above
  rw [div_lt_iff₀ scale] at below
  refine ⟨nearest, by omega, ?_, ?_⟩
  · -- The mantissa has at most as many bits as the shift leaves room for.
    have bits : mantissa + 1 ≤ 2 ^ (53 + count) := by
      have room : mantissa.log2 + 1 ≤ 53 + count := by omega
      exact Nat.lt_log2_self.trans_le (Nat.pow_le_pow_right (by decide) room)
    have bits : (mantissa : ℚ) + 1 ≤ 2 ^ 53 * 2 ^ count := by exact_mod_cast pow_add 2 53 count ▸ bits
    calc exact < (mantissa + 1) * 2 ^ exponent := below
      _ ≤ 2 ^ 53 * 2 ^ count * 2 ^ exponent := mul_le_mul_of_nonneg_right bits scale.le
      _ = 2 ^ 53 * 2 ^ (exponent + count) := by rw [zpow_add₀ (by norm_num), zpow_natCast]; ring
  · by_cases least : exponent + count = -1074
    · exact .inr least
    · have bits : 2 ^ (52 + count) ≤ mantissa := by
        have room : mantissa.log2 = 52 + count := by omega
        have nonzero : mantissa ≠ 0 := by
          rintro rfl
          simp at room
          omega
        exact room ▸ Nat.log2_self_le nonzero
      have bits : (2 ^ 52 * 2 ^ count : ℚ) ≤ mantissa := by exact_mod_cast pow_add 2 52 count ▸ bits
      left
      calc (2 ^ 52 * 2 ^ (exponent + count) : ℚ) = 2 ^ 52 * 2 ^ count * 2 ^ exponent := by
            rw [zpow_add₀ (by norm_num), zpow_natCast]; ring
        _ ≤ mantissa * 2 ^ exponent := mul_le_mul_of_nonneg_right bits scale.le
        _ ≤ exact := above

/-- Behind the rounding, a mantissa is shifted once more if it has become a power of two. -/
theorem Rounds.shiftToTargetExponent (rounds : Rounds exact units exponent) :
    ∃ em, UnpackedFloat.shiftToTargetExponent Format.binary64 units exponent .exact =
      (em, if units = 2 ^ 53 then exponent + 1 else exponent) ∧
      em.mantissa = if units = 2 ^ 53 then 2 ^ 52 else units := by
  have least := rounds.least
  rw [UnpackedFloat.shiftToTargetExponent, targetExponent_eq, shiftToExponent]
  by_cases carry : units = 2 ^ 53
  · have shift : (max (units.log2 + exponent - 52) (-1074) - exponent).toNat = 1 := by
      rw [carry, Nat.log2_two_pow]
      omega
    rw [shift, if_pos carry, if_pos carry, carry]
    exact ⟨_, rfl, rfl⟩
  · have fits : units < 2 ^ 53 := lt_of_le_of_ne rounds.units_le carry
    have bits : units.log2 < 53 := by
      by_cases zero : units = 0
      · rw [zero]
        decide
      · exact (Nat.log2_lt zero).mpr fits
    have stays : (max (units.log2 + exponent - 52) (-1074) - exponent).toNat = 0 := by omega
    rw [stays, if_neg carry, if_neg carry]
    exact ⟨_, by rw [Int.natCast_zero, add_zero], rfl⟩

/-- Rounded is what is nearest to the exact result among the doubles around it. -/
theorem roundWithAccuracy_eq {mantissa : ℕ} {accuracy : Accuracy} (sign : Sign)
    (cut : IsCut (.ofMantissaAndAccuracy mantissa accuracy) (exact / 2 ^ exponent))
    (starts : 2 ^ 52 ≤ mantissa ∨ exponent ≤ -1074) :
    ∃ units target, Rounds exact units target ∧
      roundWithAccuracy Format.binary64 sign mantissa exponent accuracy = ofUnits sign units target := by
  obtain ⟨em, target, shifted, rounds⟩ := shiftToTargetExponent_cut cut starts
  obtain ⟨final, again, isFinal⟩ := rounds.shiftToTargetExponent
  refine ⟨_, target, rounds, ?_⟩
  simp only [roundWithAccuracy, shifted, again, isFinal, ofUnits]
  by_cases carry : em.roundedMantissa = 2 ^ 53
  · simp [carry]
  · by_cases zero : em.roundedMantissa = 0
    · simp [zero]
    · simp only [carry, zero, Nat.pos_of_ne_zero zero, ↓reduceIte, ↓reduceDIte]

/-- There is one way to round. -/
theorem Rounds.unique {units' : ℕ} {exponent' : ℤ} (rounds : Rounds exact units exponent)
    (also : Rounds exact units' exponent') : units = units' ∧ exponent = exponent' := by
  -- A number with as many bits as a double fits no smaller exponent.
  have ordered {one other : ℤ} {u v : ℕ} (first : Rounds exact u one) (second : Rounds exact v other) :
      one ≤ other := by
    by_contra! greater
    rcases first.full with full | least
    · have double : (2 : ℚ) ^ (other + 1) ≤ 2 ^ one := zpow_le_zpow_right₀ (by norm_num) (by omega)
      rw [zpow_add_one₀ (by norm_num)] at double
      have fits := second.fits
      linarith
    · have := second.least
      omega
  obtain rfl := le_antisymm (ordered rounds also) (ordered also rounds)
  exact ⟨rounds.nearest.unique also.nearest, rfl⟩

/-- A number of units that a double has is not rounded. -/
theorem rounds_units (fits : units < 2 ^ 53) (least : -1074 ≤ exponent)
    (full : 2 ^ 52 ≤ units ∨ exponent = -1074) : Rounds (units * 2 ^ exponent) units exponent := by
  have scale := two_zpow_pos exponent
  refine ⟨?_, least, ?_, full.imp_left fun full => ?_⟩
  · rw [mul_div_cancel_right₀ _ scale.ne']
    exact isNearest_of_lt le_rfl (lt_add_of_pos_right _ (by norm_num))
  · exact mul_lt_mul_of_pos_right (by exact_mod_cast fits) scale
  · exact mul_le_mul_of_nonneg_right (by exact_mod_cast full) scale.le

theorem Rounds.exponent_le {bound : ℤ} (rounds : Rounds exact units exponent)
    (below : exact < 2 ^ 53 * 2 ^ bound) (least : -1074 ≤ bound) : exponent ≤ bound := by
  rcases rounds.full with full | isLeast
  · by_contra! greater
    have double : (2 : ℚ) ^ (bound + 1) ≤ 2 ^ exponent := zpow_le_zpow_right₀ (by norm_num) (by omega)
    rw [zpow_add_one₀ (by norm_num)] at double
    linarith
  · omega

/-- A rounded number is half a unit away at most. -/
theorem Rounds.error (rounds : Rounds exact units exponent) :
    |units * 2 ^ exponent - exact| ≤ 2 ^ exponent / 2 := by
  have scale := two_zpow_pos exponent
  have near := rounds.nearest.near
  have scaled : exact - units * 2 ^ exponent = (exact / 2 ^ exponent - units) * 2 ^ exponent := by
    rw [sub_mul, div_mul_cancel₀ _ scale.ne']
  rw [abs_sub_comm, scaled, abs_mul, abs_of_pos scale]
  linarith [mul_le_mul_of_nonneg_right near scale.le]

/-- In the normal range, that is at most one part in `2 ^ 53`. -/
theorem Rounds.relative (rounds : Rounds exact units exponent) (normal : 2 ^ (-1022 : ℤ) ≤ exact) :
    |units * 2 ^ exponent - exact| ≤ exact / 2 ^ 53 := by
  have full : 2 ^ 52 * 2 ^ exponent ≤ exact := rounds.full.elim id fun least => by
    rw [least, two_pow_mul_zpow]
    exact normal
  linarith [rounds.error]

end Exponents

/-! ## The operations -/

theorem isCut_exact (mantissa : ℕ) : IsCut (.ofMantissaAndAccuracy mantissa .exact) mantissa := rfl

theorem isCut_quotient (numerator : ℕ) {denominator : ℕ} (positive : 0 < denominator) :
    IsCut (.ofMantissaAndAccuracy (numerator / denominator)
      (accuracyOfFraction (numerator % denominator) denominator)) (numerator / denominator : ℚ) := by
  have below := Nat.mod_lt numerator positive
  have parts := Nat.div_add_mod numerator denominator
  generalize numerator / denominator = whole, numerator % denominator = rest at below parts ⊢
  have scale : (0 : ℚ) < denominator := by exact_mod_cast positive
  have isSum : (numerator / denominator : ℚ) = whole + rest / denominator := by
    rw [← parts]
    push_cast
    field_simp
  rw [isSum, accuracyOfFraction]
  by_cases zero : rest = 0
  · simp [zero, IsCut, ExtendedMantissa.ofMantissaAndAccuracy]
  · have above : (0 : ℚ) < rest / denominator := div_pos (by exact_mod_cast Nat.pos_of_ne_zero zero) scale
    rw [if_neg zero]
    cases order : compare (2 * rest) denominator with
    | lt =>
      have half : (2 * rest : ℚ) < denominator := by exact_mod_cast Nat.compare_eq_lt.mp order
      refine ⟨by linarith, ?_⟩
      have := (div_lt_iff₀ scale).mpr (by linarith : (rest : ℚ) < 1 / 2 * denominator)
      linarith
    | eq =>
      have half : (2 * rest : ℚ) = denominator := by exact_mod_cast Nat.compare_eq_eq.mp order
      change (whole + rest / denominator : ℚ) = whole + 1 / 2
      rw [← half]
      field_simp
    | gt =>
      have half : (denominator : ℚ) < 2 * rest := by exact_mod_cast Nat.compare_eq_gt.mp order
      refine ⟨?_, ?_⟩
      · have := (lt_div_iff₀ scale).mpr (by linarith : 1 / 2 * (denominator : ℚ) < rest)
        linarith
      · have := (div_lt_one scale).mpr (by exact_mod_cast below : (rest : ℚ) < denominator)
        linarith

section Operations

variable {sign sign' : Sign} {units units' : ℕ} {exponent exponent' : ℤ} (positive : 0 < units)
  (positive' : 0 < units')

theorem mul_rounds (starts : 2 ^ 52 ≤ units * units' ∨ exponent + exponent' ≤ -1074) :
    ∃ product target, Rounds (units * 2 ^ exponent * (units' * 2 ^ exponent')) product target ∧
      UnpackedFloat.mul Format.binary64 (.finite sign units exponent positive)
        (.finite sign' units' exponent' positive') = ofUnits (sign * sign') product target := by
  have scale := two_zpow_pos (exponent + exponent')
  refine roundWithAccuracy_eq (sign * sign') ?_ starts
  have scaled : (units * 2 ^ exponent * (units' * 2 ^ exponent') : ℚ) / 2 ^ (exponent + exponent') =
      (units * units' : ℕ) := by
    rw [div_eq_iff scale.ne', zpow_add₀ (by norm_num)]
    push_cast
    ring
  rw [scaled]
  exact isCut_exact _

include positive positive' in
/-- The quotient is taken so far that it has as many bits as a double, or lies below the normal ones. -/
theorem le_quotient {shift : ℕ} (far : units'.log2 + 53 ≤ units.log2 + shift) :
    2 ^ 52 ≤ units * 2 ^ shift / units' := by
  have below : units' ≤ 2 ^ (units'.log2 + 1) := Nat.lt_log2_self.le
  have above : 2 ^ units.log2 ≤ units := Nat.log2_self_le positive.ne'
  rw [Nat.le_div_iff_mul_le positive']
  calc 2 ^ 52 * units' ≤ 2 ^ 52 * 2 ^ (units'.log2 + 1) := Nat.mul_le_mul_left _ below
    _ = 2 ^ (units'.log2 + 53) := by rw [← pow_add]; congr 1; omega
    _ ≤ 2 ^ (units.log2 + shift) := Nat.pow_le_pow_right (by decide) far
    _ = 2 ^ units.log2 * 2 ^ shift := pow_add _ _ _
    _ ≤ units * 2 ^ shift := Nat.mul_le_mul_right _ above

theorem div_rounds :
    ∃ quotient target, Rounds (units * 2 ^ exponent / (units' * 2 ^ exponent')) quotient target ∧
      UnpackedFloat.div Format.binary64 (.finite sign units exponent positive)
        (.finite sign' units' exponent' positive') = ofUnits (sign / sign') quotient target := by
  have isBits :
      Format.binary64.targetExponent (totalExponent units exponent - totalExponent units' exponent') =
      max (units.log2 + exponent - (units'.log2 + exponent') - 53) (-1074) := by
    simp only [Format.targetExponent, totalExponent, Format.mantissaBits, Format.minExponent]
    norm_num
    omega
  simp only [UnpackedFloat.div, divCore, isBits]
  generalize isStart : min (exponent - exponent')
    (max (units.log2 + exponent - (units'.log2 + exponent') - 53) (-1074)) = start
  obtain ⟨shift, isShift⟩ : ∃ shift : ℕ, exponent - exponent' - start = shift :=
    ⟨(exponent - exponent' - start).toNat, by omega⟩
  rw [isShift, Int.toNat_natCast, Nat.shiftLeft_eq]
  refine roundWithAccuracy_eq (sign / sign') ?_ ?_
  · have scaled : (units * 2 ^ exponent / (units' * 2 ^ exponent') : ℚ) / 2 ^ start =
        (units * 2 ^ shift : ℕ) / units' := by
      have split : (2 : ℚ) ^ exponent = 2 ^ shift * 2 ^ exponent' * 2 ^ start := by
        rw [← zpow_natCast, ← zpow_add₀ (by norm_num), ← zpow_add₀ (by norm_num)]
        congr 1
        omega
      have scale := two_zpow_pos start
      have scale' := two_zpow_pos exponent'
      rw [split]
      push_cast
      field_simp
    rw [scaled]
    exact isCut_quotient _ positive'
  · by_cases low : start ≤ -1074
    · exact .inr low
    · exact .inl (le_quotient positive positive' (by omega))

include positive in
theorem ofNat_rounds :
    ∃ rounded target, Rounds units rounded target ∧
      UnpackedFloat.ofNat Format.binary64 units = ofUnits .positive rounded target := by
  have above : compare (units : ℤ) 0 = .gt := by
    rw [Int.compare_eq_gt]
    exact_mod_cast positive
  have nonzero := positive.ne'
  simp only [UnpackedFloat.ofNat, UnpackedFloat.ofInt, UnpackedFloat.normalize, above, UnpackedFloat.round,
    targetExponent_eq, decreaseExponent, Int.toNat_natCast, Nat.shiftLeft_eq]
  generalize isShift : (0 - max ((units.log2 : ℤ) + 0 - 52) (-1074)).toNat = shift
  refine roundWithAccuracy_eq .positive ?_ ?_
  · have scaled : (units : ℚ) / 2 ^ (0 - (shift : ℤ)) = (units * 2 ^ shift : ℕ) := by
      rw [zero_sub, zpow_neg, zpow_natCast, div_inv_eq_mul]
      push_cast
      rfl
    rw [scaled]
    exact isCut_exact _
  · left
    have above : 2 ^ units.log2 ≤ units := Nat.log2_self_le nonzero
    calc 2 ^ 52 ≤ 2 ^ (units.log2 + shift) := Nat.pow_le_pow_right (by decide) (by omega)
      _ = 2 ^ units.log2 * 2 ^ shift := pow_add _ _ _
      _ ≤ units * 2 ^ shift := Nat.mul_le_mul_right _ above

end Operations

end DoubleEntry.Rounding
