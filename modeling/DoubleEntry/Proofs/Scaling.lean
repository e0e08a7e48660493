import DoubleEntry.Proofs.Closeness
import DoubleEntry.Proofs.Significand
import Mathlib

/-! # What the reader makes of a numeral

The reader takes all the digits of a short numeral and scales them by a power of ten, with one rounding of
each operation: it multiplies, or divides, or divides twice if the power is too large for a double. What it
rounds in the end is close to what the numeral stands for, and is that number if the digits fit a mantissa and
the power of ten is exact.
-/

namespace DoubleEntry.Json

open Decimal Rounding

/-- Digits that stay within 64 bits are all taken. -/
theorem absorb_eq {significand : ℕ} {digits : List ℕ}
    (fits : significand * 10 ^ digits.length + valueOf digits ≤ maxSignificand) :
    absorb significand digits = (significand * 10 ^ digits.length + valueOf digits, []) := by
  induction digits generalizing significand with
  | nil => simp [absorb, valueOf]
  | cons d rest ih =>
    have shape : significand * 10 ^ (d :: rest).length + valueOf (d :: rest) =
        (significand * 10 + d) * 10 ^ rest.length + valueOf rest := by
      have parts := valueOf_append [d] rest
      rw [List.singleton_append, show valueOf [d] = d by simp [valueOf]] at parts
      rw [parts, List.length_cons, pow_succ]
      ring
    rw [shape] at fits ⊢
    have some : 0 < 10 ^ rest.length := Nat.pow_pos (by decide)
    have early : significand * 10 + d ≤ maxSignificand :=
      (Nat.le_mul_of_pos_right _ some).trans ((Nat.le_add_right _ _).trans fits)
    rw [absorb, if_pos early, ih fits]

/-- A short numeral is read as its significand, scaled. -/
theorem magnitude?_eq {n : Numeral} (short : n.significand ≤ maxSignificand)
    (bounded : n.exponent.natAbs ≤ maxPower) : magnitude? n = scaled? n.significand n.scale := by
  have parts : n.significand = valueOf n.whole * 10 ^ n.fraction.length + valueOf n.fraction :=
    valueOf_append n.whole n.fraction
  have some : 0 < 10 ^ n.fraction.length := Nat.pow_pos (by decide)
  have whole : absorb 0 n.whole = (valueOf n.whole, []) := by
    have fits : 0 * 10 ^ n.whole.length + valueOf n.whole ≤ maxSignificand := by
      rw [Nat.zero_mul, Nat.zero_add]
      exact (Nat.le_mul_of_pos_right _ some).trans ((Nat.le_add_right _ _).trans (parts ▸ short))
    rw [absorb_eq fits, Nat.zero_mul, Nat.zero_add]
  have fraction : absorb (valueOf n.whole) n.fraction = (n.significand, []) := by
    rw [absorb_eq (parts ▸ short), ← parts]
  rw [magnitude?, whole]
  dsimp only
  rw [fraction]
  dsimp only
  rw [Numeral.scale]
  unfold Numeral.exponent at bounded ⊢
  generalize n.power = written at bounded ⊢
  cases written with
  | none => simp
  | some power =>
    dsimp only at bounded ⊢
    have inRange : valueOf power.digits ≤ maxPower := by
      split at bounded <;> simpa using bounded
    rw [if_neg inRange.not_gt]
    congr 1
    split <;> simp <;> omega

/-! ## Scaling -/

section Scaling

variable {significand : ℕ}

/-- What is rounded last: close to the number to be read, or just as close for a double of few digits. -/
def Approximates (exact approx : ℚ) : Prop :=
  Close (9 / 2 ^ 55) exact approx ∨ Close (1 / 2 ^ 50) exact approx ∧ exact ≤ 2 ^ (-1023 : ℤ)

theorem scaled?_up (positive : 0 < significand) (short : significand ≤ 10 ^ 17) {k : ℕ} (inRange : k ≤ 308) :
    ∃ approx y, RoundsTo approx y ∧ (y.isFinite = true → scaled? significand k = some y) ∧
      Approximates (significand * 10 ^ k) approx ∧
      (significand ≤ 2 ^ 53 → k ≤ 22 → approx = significand * 10 ^ k) := by
  obtain ⟨s, operand, close, exact⟩ := toFloat_close positive short
  obtain ⟨p, operand', close', exact'⟩ := powerOfTen_close inRange
  refine ⟨s * p, _, operand.mul operand', fun isFinite => ?_, .inl ?_, fun few small => ?_⟩
  · have notNegative : ¬ (k : ℤ) < 0 := by omega
    have notLarge : ¬ 308 < (k : ℤ) := by omega
    simp only [scaled?, notNegative, notLarge, if_false, Int.natAbs_natCast, isFinite, if_true]
  · exact close.mul close' (Nat.cast_nonneg _) (by positivity) (by norm_num)
  · rw [exact few, exact' small]

theorem scaled?_down (positive : 0 < significand) (short : significand ≤ 10 ^ 17) {k : ℕ} (nonzero : 0 < k)
    (inRange : k ≤ 308) :
    ∃ approx y, RoundsTo approx y ∧ scaled? significand (-k) = some y ∧
      Approximates (significand / 10 ^ k) approx ∧
      (significand ≤ 2 ^ 53 → k ≤ 22 → approx = significand / 10 ^ k) := by
  obtain ⟨s, operand, close, exact⟩ := toFloat_close positive short
  obtain ⟨p, operand', close', exact'⟩ := powerOfTen_close inRange
  refine ⟨s / p, _, operand.div operand', ?_, .inl ?_, fun few small => ?_⟩
  · have negative : -(k : ℤ) < 0 := by omega
    simp only [scaled?, negative, if_true, Int.natAbs_neg, Int.natAbs_natCast, scaleDown, inRange]
  · exact close.div close' (by exact_mod_cast positive) (by positivity) (by norm_num) (by norm_num)
  · rw [exact few, exact' small]

theorem beq_zero {x : Float} {v : ℚ} (standsFor : StandsFor x v) : (x == 0) = false := by
  obtain ⟨units, exponent, positive, -, unpacked, -⟩ := standsFor
  have isZero : (0 : Float) = double .positive 0 (-1074) := Float.toBits_inj.mp (by decide +kernel)
  have isDouble : IsDouble 0 (-1074) := ⟨by decide, by decide, by decide, .inr rfl⟩
  have zero := unpack_double .positive isDouble
  change x.toModel.unpack.beq (0 : Float).toModel.unpack = false
  rw [unpacked, isZero, zero]
  rfl

/-- The first of two divisions leaves a number that is not far below the normal range. -/
theorem first_division {s t : ℚ} (positive : 0 < significand) (short : significand ≤ 10 ^ 17)
    (close : Close (1 / 2 ^ 53) significand s) (close' : Close (1 / 2 ^ 56) (10 ^ 308) t) {x : Float}
    (roundsTo : RoundsTo (s / t) x) :
    ∃ q, StandsFor x q ∧ Close (84 / 2 ^ 57) (significand / 10 ^ 308) q ∧
      (3 ≤ significand → Close (9 / 2 ^ 55) (significand / 10 ^ 308) q) := by
  have some : (1 : ℚ) ≤ significand := by exact_mod_cast positive
  have few : (significand : ℚ) ≤ 10 ^ 17 := by exact_mod_cast short
  have ten : (0 : ℚ) < 10 ^ 308 := by positivity
  have exact : (0 : ℚ) < significand / 10 ^ 308 := div_pos (by linarith) ten
  have near : Close (19 / 2 ^ 57) (significand / 10 ^ 308) (s / t) :=
    close.div close' (by linarith) ten (by norm_num) (by norm_num)
  obtain ⟨above, below⟩ := abs_le.mp near
  have unit : (0 : ℚ) < 2 ^ (-1022 : ℤ) := two_zpow_pos _
  have least : (2 / 5 : ℚ) * 2 ^ (-1022 : ℤ) * significand ≤ significand / 10 ^ 308 := by
    have power : 2 * 10 ^ 308 ≤ 5 * 2 ^ 1022 := by decide +kernel
    have power : (2 * 10 ^ 308 : ℚ) ≤ 5 * 2 ^ 1022 := by exact_mod_cast power
    have isInverse : (2 / 5 : ℚ) * 2 ^ (-1022 : ℤ) = 2 / (5 * 2 ^ 1022) := by
      rw [zpow_neg, ← div_eq_mul_inv, div_div]
      rfl
    rw [isInverse, div_mul_eq_mul_div, div_le_div_iff₀ (by positivity) ten]
    have product := mul_le_mul_of_nonneg_left power (Nat.cast_nonneg (α := ℚ) significand)
    generalize (10 : ℚ) ^ 308 = ten, (2 : ℚ) ^ 1022 = two at product ⊢
    linarith
  have small : (significand / 10 ^ 308 : ℚ) ≤ 1 :=
    (div_le_one ten).mpr (few.trans (pow_le_pow_right₀ (by norm_num) (by decide)))
  generalize (significand / 10 ^ 308 : ℚ) = ratio at *
  have inRange : s / t < 2 ^ (1023 : ℤ) := by
    have two : (2 : ℚ) ^ (1 : ℤ) < 2 ^ (1023 : ℤ) := zpow_lt_zpow_right₀ (by norm_num) (by decide)
    rw [zpow_one] at two
    exact lt_trans (by linarith) two
  by_cases normal : 3 ≤ significand
  · have three : (3 : ℚ) ≤ significand := by exact_mod_cast normal
    have product := mul_le_mul_of_nonneg_left three unit.le
    obtain ⟨q, standsFor, rounded⟩ := roundsTo.standsFor (by linarith) inRange
    have total := near.trans rounded exact.le (by norm_num) (by norm_num : _ ≤ (9 / 2 ^ 55 : ℚ))
    exact ⟨q, standsFor, total.mono (by norm_num) exact.le, fun _ => total⟩
  · have product := mul_le_mul_of_nonneg_left some unit.le
    have quarter := two_pow_mul_zpow 2 (-1024)
    rw [Nat.cast_ofNat, show (2 + -1024 : ℤ) = -1022 from rfl] at quarter
    obtain ⟨q, standsFor, rounded⟩ := roundsTo.standsFor_low (by linarith) inRange
    exact ⟨q, standsFor, near.trans rounded exact.le (by norm_num) (by norm_num),
      fun three => absurd three normal⟩

theorem few_digits {k : ℕ} (large : 309 ≤ k) (few : significand ≤ 2 * 10 ^ (k - 309)) :
    (significand / 10 ^ k : ℚ) ≤ 2 ^ (-1023 : ℤ) := by
  have power : 2 * 2 ^ 1023 ≤ 10 ^ 309 := by decide +kernel
  have power : (2 * 2 ^ 1023 : ℚ) ≤ 10 ^ 309 := by exact_mod_cast power
  have few : (significand : ℚ) ≤ 2 * 10 ^ (k - 309) := by exact_mod_cast few
  have isInverse : (2 : ℚ) ^ (-1023 : ℤ) = 1 / 2 ^ 1023 := by
    rw [zpow_neg, one_div]
    rfl
  have scale : (0 : ℚ) < 10 ^ (k - 309) := by positivity
  rw [isInverse, ← pow_sub_mul_pow _ large, div_le_div_iff₀ (by positivity) (by positivity)]
  have positive : (0 : ℚ) < 2 ^ 1023 := by positivity
  have product := mul_le_mul_of_nonneg_left power scale.le
  have product' := mul_le_mul_of_nonneg_right few positive.le
  generalize (2 : ℚ) ^ 1023 = two, (10 : ℚ) ^ 309 = ten at product product' ⊢
  linarith

/-- A power of ten that is too large for a double takes two divisions. What they lose more than one would
counts in two cases only, and the double has few digits in both. -/
theorem scaled?_twice (positive : 0 < significand) (short : significand ≤ 10 ^ 17) {k : ℕ} (large : 308 < k)
    (inRange : k ≤ 340) :
    ∃ approx y, RoundsTo approx y ∧ scaled? significand (-k) = some y ∧
      Approximates (significand / 10 ^ k) approx := by
  obtain ⟨s, operand, close, exact⟩ := toFloat_close positive short
  obtain ⟨t, operand', close'⟩ := powerOfTen_308_close
  obtain ⟨p, operand'', close'', exact''⟩ := powerOfTen_close (k := k - 308) (by omega)
  obtain ⟨q, quotient, near, nearer⟩ := first_division positive short close close' (operand.div operand')
  have some : (0 : ℚ) < significand / 10 ^ 308 := div_pos (by exact_mod_cast positive) (by positivity)
  have some' : (0 : ℚ) < 10 ^ (k - 308) := by positivity
  have powers : (significand / 10 ^ 308 / 10 ^ (k - 308) : ℚ) = significand / 10 ^ k := by
    rw [div_div, pow_mul_pow_sub _ large.le]
  refine ⟨q / p, _, quotient.div operand'', ?_, ?_⟩
  · have negative : -(k : ℤ) < 0 := by omega
    have steps : k / 308 = 1 := by omega
    have notOnce : ¬ k ≤ 308 := by omega
    have twice : k - 308 ≤ 308 := by omega
    simp only [scaled?, negative, if_true, Int.natAbs_neg, Int.natAbs_natCast, steps, scaleDown, notOnce,
      if_false, beq_zero operand, Bool.false_eq_true, twice]
  · rw [← powers]
    by_cases few : 3 ≤ significand ∧ k - 308 ≤ 22
    · rw [exact'' few.2]
      exact .inl ((nearer few.1).div (close_refl (ρ := 0) (by simp)) some some' (by norm_num) (by norm_num))
    · refine .inr ⟨near.div close'' some some' (by norm_num) (by norm_num), ?_⟩
      rw [powers]
      refine few_digits large ?_
      by_cases two : significand ≤ 2
      · exact two.trans (Nat.le_mul_of_pos_right _ (Nat.pow_pos (by decide)))
      · have power : 10 ^ 17 ≤ 10 ^ (k - 309) := Nat.pow_le_pow_right (by decide) (by omega)
        exact (short.trans power).trans (Nat.le_mul_of_pos_left _ (by decide))

/-- The reader scales the significand of any written double, to something that is close, and that is exact if
the digits fit a mantissa and the power of ten is exact. -/
theorem scaled?_approximates {significand : ℕ} {exponent : ℤ} (positive : 0 < significand)
    (short : significand ≤ 10 ^ 17) (least : -340 ≤ exponent) (largest : exponent ≤ 308) :
    ∃ approx y, RoundsTo approx y ∧ (y.isFinite = true → scaled? significand exponent = some y) ∧
      Approximates (significand * 10 ^ exponent) approx ∧
      (significand ≤ 2 ^ 53 → exponent.natAbs ≤ 22 → approx = significand * 10 ^ exponent) := by
  by_cases up : 0 ≤ exponent
  · obtain ⟨k, rfl⟩ := Int.eq_ofNat_of_zero_le up
    rw [zpow_natCast, Int.natAbs_natCast]
    exact scaled?_up positive short (by omega)
  · obtain ⟨k, rfl⟩ : ∃ k : ℕ, exponent = -k := ⟨exponent.natAbs, by omega⟩
    have isQuotient : (significand * 10 ^ (-(k : ℤ)) : ℚ) = significand / 10 ^ k := by
      rw [zpow_neg, zpow_natCast, div_eq_mul_inv]
    rw [isQuotient, Int.natAbs_neg, Int.natAbs_natCast]
    by_cases once : k ≤ 308
    · obtain ⟨approx, y, roundsTo, scaled, approximates, exact⟩ :=
        scaled?_down positive short (by omega) once
      exact ⟨approx, y, roundsTo, fun _ => scaled, approximates, exact⟩
    · obtain ⟨approx, y, roundsTo, scaled, approximates⟩ :=
        scaled?_twice positive short (k := k) (by omega) (by omega)
      exact ⟨approx, y, roundsTo, fun _ => scaled, approximates, fun _ small => absurd small (by omega)⟩

end Scaling

end DoubleEntry.Json
