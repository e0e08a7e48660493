import DoubleEntry.Proofs.Doubles
import DoubleEntry.Proofs.Numerals
import Mathlib

/-! # The fewest digits read back

The tests in integers that find the fewest digits are comparisons of the numbers that the integers stand for.
Seventeen digits are enough for every double: the grid of decimals is finer then than the numbers that round
to it lie apart.
-/

namespace DoubleEntry.Decimal

open Rounding

/-- The number that a double stands for, its sign aside. -/
def Binary.value (x : Binary) : ℚ := x.mantissa * 2 ^ x.exponent

/-- The number that a decimal is. -/
def Scaled.value (d : Scaled) : ℚ := d.digits * 10 ^ d.exponent

/-- What the bits of a finite double say. -/
structure Binary.Sound (x : Binary) : Prop where
  isDouble : IsDouble x.mantissa x.exponent
  narrow : x.narrowBelow = true ↔ x.mantissa = 2 ^ 52 ∧ x.exponent ≠ -1074

theorem Binary.sound_ofBits {x : Float} (isFinite : x.isFinite = true) : (Binary.ofBits x.toBits).Sound where
  isDouble := isDouble_ofBits isFinite
  narrow := by
    have below : (x.toBits &&& 0xFFFFFFFFFFFFF).toNat < 2 ^ 52 := by
      rw [← toNat_unpackMantissa]
      exact BitVec.isLt _
    unfold Binary.ofBits
    dsimp only
    split
    · dsimp only
      constructor
      · exact nofun
      · rintro ⟨full, -⟩
        omega
    · simp only [decide_eq_true_eq]
      omega

/-! ## Comparing -/

section Comparing

theorem zpow_mul_pow_toNat {base : ℚ} (nonzero : base ≠ 0) (i : ℤ) :
    base ^ i * base ^ (-i).toNat = base ^ i.toNat := by
  rw [← zpow_natCast, ← zpow_natCast, ← zpow_add₀ nonzero]
  congr 1
  omega

/-- Multiplied with all their denominators, the numbers compare as the integers do. -/
theorem compareScaled_eq (a : ℕ) (i : ℤ) (n : ℕ) (j : ℤ) :
    compareScaled a i n j = cmp (a * 10 ^ i : ℚ) (n * 2 ^ j) := by
  have positive : (0 : ℚ) < 2 ^ (-j).toNat * 10 ^ (-i).toNat := by positivity
  have left : (a * 10 ^ i : ℚ) * (2 ^ (-j).toNat * 10 ^ (-i).toNat) =
      (a * Nat.pow 10 i.toNat * Nat.pow 2 (-j).toNat : ℕ) := by
    push_cast [Nat.pow_eq]
    rw [← zpow_mul_pow_toNat (by norm_num) i]
    ring
  have right : (n * 2 ^ j : ℚ) * (2 ^ (-j).toNat * 10 ^ (-i).toNat) =
      (n * Nat.pow 2 j.toNat * Nat.pow 10 (-i).toNat : ℕ) := by
    push_cast [Nat.pow_eq]
    rw [← zpow_mul_pow_toNat (by norm_num) j]
    ring
  rw [← cmp_mul_pos_right positive, left, right, Nat.strictMono_cast.cmp_map_eq, cmp_eq_compare]
  rfl

end Comparing

/-! ## The numbers that round to a double -/

/-- How far below a double, in its units, the numbers that round to it begin. -/
def Binary.below (x : Binary) : ℚ := if x.narrowBelow then 1 / 4 else 1 / 2

section Interval

variable {x : Binary} {d : Scaled}

/-- A decimal reads back if it is not further away than halfway to the neighbours, the ends included for an
even mantissa. -/
theorem Binary.readsBack_iff (nonzero : x.mantissa ≠ 0) : x.readsBack d = true ↔
    (x.mantissa - x.below < d.value / 2 ^ x.exponent ∨
      Even x.mantissa ∧ d.value / 2 ^ x.exponent = x.mantissa - x.below) ∧
    (d.value / 2 ^ x.exponent < x.mantissa + 1 / 2 ∨
      Even x.mantissa ∧ d.value / 2 ^ x.exponent = x.mantissa + 1 / 2) := by
  have scale := two_zpow_pos x.exponent
  have quarter : (2 : ℚ) ^ (x.exponent - 2) = 2 ^ x.exponent / 4 := by
    rw [zpow_sub₀ (by norm_num)]
    norm_num
  have low : ((if x.narrowBelow then 4 * x.mantissa - 1 else 4 * x.mantissa - 2 : ℕ) : ℚ) *
      2 ^ (x.exponent - 2) = (x.mantissa - x.below) * 2 ^ x.exponent := by
    rw [quarter, below]
    split
    · rw [Nat.cast_sub (by omega)]
      push_cast
      ring
    · rw [Nat.cast_sub (by omega)]
      push_cast
      ring
  have high : ((4 * x.mantissa + 2 : ℕ) : ℚ) * 2 ^ (x.exponent - 2) =
      (x.mantissa + 1 / 2) * 2 ^ x.exponent := by
    rw [quarter]
    push_cast
    ring
  have isValue : (d.digits * 10 ^ d.exponent : ℚ) = d.value / 2 ^ x.exponent * 2 ^ x.exponent :=
    (div_mul_cancel₀ d.value scale.ne').symm
  unfold readsBack
  simp only [compareScaled_eq, low, high, isValue, cmp_mul_pos_right scale]
  simp [cmp_eq_gt_iff, cmp_eq_lt_iff, cmp_eq_eq_iff, Nat.even_iff]

/-- What reads back is half a unit away at most. -/
theorem Binary.near_of_readsBack (nonzero : x.mantissa ≠ 0) (reads : x.readsBack d = true) :
    |d.value / 2 ^ x.exponent - x.mantissa| ≤ 1 / 2 := by
  obtain ⟨above, below⟩ := (readsBack_iff nonzero).mp reads
  have gap : x.below ≤ 1 / 2 := by
    rw [Binary.below]
    split <;> norm_num
  rw [abs_le]
  constructor
  · rcases above with above | ⟨-, above⟩ <;> linarith
  · rcases below with below | ⟨-, below⟩ <;> linarith

/-- What reads back to a double is rounded to it. -/
theorem Binary.rounds_of_readsBack (sound : x.Sound) (nonzero : x.mantissa ≠ 0)
    (reads : x.readsBack d = true) : ∃ units exponent, Rounds d.value units exponent ∧
      ∀ sign, double sign units exponent = double sign x.mantissa x.exponent := by
  obtain ⟨above, below⟩ := (readsBack_iff nonzero).mp reads
  have near := near_of_readsBack nonzero reads
  have scale := two_zpow_pos x.exponent
  have fits : (x.mantissa : ℚ) + 1 ≤ 2 ^ 53 := by exact_mod_cast sound.isDouble.fits
  by_cases full : 2 ^ 52 * 2 ^ x.exponent ≤ d.value ∨ x.exponent = -1074
  · refine ⟨x.mantissa, x.exponent, ⟨⟨near, fun half => ?_⟩, sound.isDouble.least, ?_, full⟩, fun _ => rfl⟩
    · have gap : x.below ≤ 1 / 2 := by
        rw [Binary.below]
        split <;> norm_num
      rcases eq_or_eq_neg_of_abs_eq half with half | half
      · rcases below with below | ⟨even, -⟩
        · linarith
        · exact even
      · rcases above with above | ⟨even, -⟩
        · linarith
        · exact even
    · rw [← div_lt_iff₀ scale]
      have := (abs_le.mp near).2
      linarith
  · -- Only below a power of two can it be less than what fits the exponent.
    obtain ⟨low, ordinary⟩ := not_or.mp full
    have low : d.value / 2 ^ x.exponent < 2 ^ 52 := (div_lt_iff₀ scale).mpr (not_le.mp low)
    have least : x.mantissa = 2 ^ 52 := by
      refine le_antisymm ?_ (sound.isDouble.full.resolve_right ordinary)
      have := (abs_le.mp near).1
      have : (x.mantissa : ℚ) < 2 ^ 52 + 1 := by linarith
      exact Nat.lt_succ_iff.mp (by exact_mod_cast this)
    have above : (2 : ℚ) ^ 52 - 1 / 4 ≤ d.value / 2 ^ x.exponent := by
      have gap : x.below = 1 / 4 := by rw [Binary.below, if_pos (sound.narrow.mpr ⟨least, ordinary⟩)]
      rw [gap, least] at above
      push_cast at above
      rcases above with above | ⟨-, above⟩
      · exact above.le
      · exact above.ge
    have half : (2 : ℚ) ^ (x.exponent - 1) = 2 ^ x.exponent / 2 := by
      rw [zpow_sub₀ (by norm_num), zpow_one]
    have twice : d.value / 2 ^ (x.exponent - 1) = 2 * (d.value / 2 ^ x.exponent) := by
      rw [half]
      field_simp
    have isLeast := sound.isDouble.least
    refine ⟨2 ^ 53, x.exponent - 1, ⟨⟨?_, fun _ => ?_⟩, by omega, ?_, .inl ?_⟩, fun sign => ?_⟩
    · rw [twice, abs_le]
      push_cast
      constructor <;> linarith
    · exact even_two_mul (2 ^ 52)
    · rw [← div_lt_iff₀ (two_zpow_pos _), twice]
      linarith
    · rw [← le_div_iff₀ (two_zpow_pos _), twice]
      linarith
    · simp [double, ofUnits, least]

end Interval

/-! ## The order of magnitude -/

section Magnitude

variable {x : Binary}

/-- The estimate of a decimal logarithm by a binary one. -/
theorem pow_estimate : ∀ n < 1075, 10 ^ (n * 30103 / 100000) ≤ 2 * 2 ^ n ∧
    2 ^ n ≤ 10 * 10 ^ (n * 30103 / 100000) := by
  decide +kernel

theorem zpow_estimate {n : ℤ} (least : -1074 ≤ n) (largest : n ≤ 1074) :
    (10 : ℚ) ^ (n * 30103 / 100000 - 2) ≤ 2 ^ n ∧ (2 : ℚ) ^ (n + 1) ≤ 10 ^ (n * 30103 / 100000 + 2) := by
  have nonzero : (10 : ℚ) ≠ 0 := by norm_num
  obtain ⟨k, sign⟩ := Int.eq_nat_or_neg n
  obtain ⟨low, high⟩ := pow_estimate k (by omega)
  have low : (10 : ℚ) ^ (k * 30103 / 100000) ≤ 2 * 2 ^ k := by exact_mod_cast low
  have high : (2 : ℚ) ^ k ≤ 10 * 10 ^ (k * 30103 / 100000) := by exact_mod_cast high
  generalize isPower : k * 30103 / 100000 = power at low high
  have ten : (0 : ℚ) < 10 ^ power := by positivity
  have two : (0 : ℚ) < 2 ^ k := by positivity
  rcases sign with rfl | rfl
  · have isEstimate : (k * 30103 / 100000 : ℤ) = power := by omega
    rw [isEstimate, zpow_sub₀ nonzero, zpow_add₀ nonzero, zpow_add_one₀ (by norm_num), zpow_natCast,
      zpow_natCast]
    constructor
    · rw [div_le_iff₀ (by norm_num)]
      norm_num
      linarith
    · norm_num
      linarith
  · -- The negative estimate is rounded down, to `-power` or one less.
    constructor
    · calc (10 : ℚ) ^ (-(k : ℤ) * 30103 / 100000 - 2) ≤ 10 ^ (-(power : ℤ) - 2) :=
            zpow_le_zpow_right₀ (by norm_num) (by omega)
        _ = 1 / (10 ^ power * 100) := by
            rw [zpow_sub₀ nonzero, zpow_neg, zpow_natCast]
            field_simp
            norm_num
        _ ≤ 1 / 2 ^ k := one_div_le_one_div_of_le two (by linarith)
        _ = 2 ^ (-(k : ℤ)) := by rw [zpow_neg, zpow_natCast, one_div]
    · calc (2 : ℚ) ^ (-(k : ℤ) + 1) = 2 / 2 ^ k := by
            rw [zpow_add_one₀ (by norm_num), zpow_neg, zpow_natCast]
            field_simp
        _ ≤ 10 / 10 ^ power := by
            rw [div_le_div_iff₀ two ten]
            linarith
        _ = 10 ^ (-(power : ℤ) + 1) := by
            rw [zpow_add_one₀ nonzero, zpow_neg, zpow_natCast]
            field_simp
        _ ≤ 10 ^ (-(k : ℤ) * 30103 / 100000 + 2) := zpow_le_zpow_right₀ (by norm_num) (by omega)

theorem Binary.value_bounds (nonzero : x.mantissa ≠ 0) :
    (2 : ℚ) ^ (x.mantissa.log2 + x.exponent) ≤ x.value ∧
      x.value < 2 ^ (x.mantissa.log2 + x.exponent + 1) := by
  have scale := two_zpow_pos x.exponent
  have low : (2 : ℚ) ^ x.mantissa.log2 ≤ x.mantissa := by exact_mod_cast Nat.log2_self_le nonzero
  have high : (x.mantissa : ℚ) < 2 ^ (x.mantissa.log2 + 1) := by exact_mod_cast Nat.lt_log2_self
  constructor
  · rw [← two_pow_mul_zpow]
    exact mul_le_mul_of_nonneg_right low scale.le
  · have next : (x.mantissa.log2 + x.exponent + 1 : ℤ) = (x.mantissa.log2 + 1 : ℕ) + x.exponent := by
      push_cast
      ring
    rw [next, ← two_pow_mul_zpow]
    exact mul_lt_mul_of_pos_right high scale

/-- The order of magnitude is the number of digits before the point. -/
theorem Binary.magnitude_bounds (sound : x.Sound) (nonzero : x.mantissa ≠ 0) :
    (10 : ℚ) ^ (x.magnitude - 1) ≤ x.value ∧ x.value < 10 ^ x.magnitude := by
  obtain ⟨above, below⟩ := value_bounds nonzero
  have bits : x.mantissa.log2 < 53 := (Nat.log2_lt nonzero).mpr sound.isDouble.fits
  have least := sound.isDouble.least
  have largest := sound.isDouble.largest
  obtain ⟨low, high⟩ := zpow_estimate (n := x.mantissa.log2 + x.exponent) (by omega) (by omega)
  have fits (k : ℤ) : (compareScaled 1 k x.mantissa x.exponent == .gt) = true ↔ x.value < 10 ^ k := by
    rw [compareScaled_eq, beq_iff_eq, cmp_eq_gt_iff, Nat.cast_one, one_mul, value]
  unfold magnitude
  dsimp only
  generalize (x.mantissa.log2 + x.exponent : ℤ) * 30103 / 100000 = estimate at low high ⊢
  by_cases first : x.value < 10 ^ (estimate - 1)
  · simp only [List.find?_cons, (fits _).mpr first, Option.getD_some]
    exact ⟨(low.trans above).trans_eq' (by congr 1; ring), first⟩
  have notFirst := Bool.eq_false_iff.mpr (mt (fits _).mp first)
  by_cases second : x.value < 10 ^ estimate
  · simp only [List.find?_cons, notFirst, (fits _).mpr second, Option.getD_some]
    exact ⟨not_lt.mp first, second⟩
  have notSecond := Bool.eq_false_iff.mpr (mt (fits _).mp second)
  by_cases third : x.value < 10 ^ (estimate + 1)
  · simp only [List.find?_cons, notFirst, notSecond, (fits _).mpr third, Option.getD_some]
    exact ⟨(not_lt.mp second).trans_eq' (by congr 1; ring), third⟩
  have notThird := Bool.eq_false_iff.mpr (mt (fits _).mp third)
  simp only [List.find?_cons, List.find?_nil, notFirst, notSecond, notThird, Option.getD_none]
  exact ⟨(not_lt.mp third).trans_eq' (by congr 1; ring), below.trans_le high⟩

end Magnitude

/-! ## The grids of decimals -/

section Grids

variable {x : Binary} {tie : Tie} {k : ℤ} {d : Scaled}

theorem Binary.under_bounds (x : Binary) (k : ℤ) :
    Scaled.value ⟨x.under k, k⟩ ≤ x.value ∧ x.value < Scaled.value ⟨x.under k + 1, k⟩ := by
  have scale : (0 : ℚ) < 10 ^ k := zpow_pos (by norm_num) k
  have positive : 0 < (x.onGrid k).2 :=
    Nat.mul_pos (Nat.pow_pos (by decide)) (Nat.pow_pos (by decide))
  have isNumerator : ((x.onGrid k).1 : ℚ) = x.value / 10 ^ k * (x.onGrid k).2 := by
    have tens := zpow_mul_pow_toNat (by norm_num : (10 : ℚ) ≠ 0) (-k)
    rw [neg_neg, zpow_neg] at tens
    simp only [onGrid, value, div_eq_mul_inv]
    push_cast [Nat.pow_eq]
    rw [← tens, ← zpow_mul_pow_toNat (by norm_num) x.exponent]
    ring
  have low : ((x.under k * (x.onGrid k).2 : ℕ) : ℚ) ≤ (x.onGrid k).1 := by
    exact_mod_cast Nat.div_mul_le_self _ _
  have high : ((x.onGrid k).1 : ℚ) < ((x.under k + 1) * (x.onGrid k).2 : ℕ) := by
    exact_mod_cast (Nat.div_lt_iff_lt_mul positive).mp (Nat.lt_succ_self _)
  have positive : (0 : ℚ) < (x.onGrid k).2 := by exact_mod_cast positive
  rw [isNumerator, Nat.cast_mul] at low high
  have low := le_of_mul_le_mul_right low positive
  have high := lt_of_mul_lt_mul_right high positive.le
  exact ⟨(le_div_iff₀ scale).mp low, (div_lt_iff₀ scale).mp high⟩

/-- One of the neighbours reads back on a grid that is fine enough. -/
theorem Binary.nearestOnGrid?_ne_none (sound : x.Sound) (nonzero : x.mantissa ≠ 0)
    (fine : 10 ^ k * 10 ^ 16 ≤ x.value) : x.nearestOnGrid? tie k ≠ none := by
  intro none
  obtain ⟨lower, upper⟩ := nearestOnGrid?_eq_none none
  obtain ⟨low, high⟩ := x.under_bounds k
  have scale := two_zpow_pos x.exponent
  have isUnits : x.value / 2 ^ x.exponent = x.mantissa := mul_div_cancel_right₀ _ scale.ne'
  have low := isUnits ▸ div_le_div_of_nonneg_right low scale.le
  have high := isUnits ▸ div_lt_div_of_pos_right high scale
  have gap : Scaled.value ⟨x.under k + 1, k⟩ / 2 ^ x.exponent =
      Scaled.value ⟨x.under k, k⟩ / 2 ^ x.exponent + 10 ^ k / 2 ^ x.exponent := by
    simp only [Scaled.value]
    push_cast
    ring
  have fine : 10 ^ k / 2 ^ x.exponent * 10 ^ 16 ≤ (x.mantissa : ℚ) := by
    rw [← isUnits, div_mul_eq_mul_div]
    exact div_le_div_of_nonneg_right fine scale.le
  have fits : (x.mantissa : ℚ) < 2 ^ 53 := by exact_mod_cast sound.isDouble.fits
  -- Neither being as near as that, they lie further apart than the grid has them.
  have tooLow : Scaled.value ⟨x.under k, k⟩ / 2 ^ x.exponent ≤ x.mantissa - x.below := by
    by_contra! above
    refine absurd ((readsBack_iff nonzero).mpr ⟨.inl above, .inl ?_⟩) (by rw [lower]; decide)
    linarith
  have tooHigh : (x.mantissa : ℚ) + 1 / 2 ≤ Scaled.value ⟨x.under k + 1, k⟩ / 2 ^ x.exponent := by
    by_contra! below
    refine absurd ((readsBack_iff nonzero).mpr ⟨.inl ?_, .inl below⟩) (by rw [upper]; decide)
    rw [Binary.below]
    split <;> linarith
  rw [gap] at tooHigh
  rw [Binary.below] at tooLow
  split at tooLow
  · rename_i isNarrow
    rw [(sound.narrow.mp isNarrow).1] at *
    push_cast at *
    linarith
  · linarith

/-- The fewest digits are found on the grid of seventeen digits at the latest. -/
theorem Binary.shortest_found (sound : x.Sound) (nonzero : x.mantissa ≠ 0) (tie : Tie) :
    ∃ n < 17, x.nearestOnGrid? tie (x.magnitude - (n + 1 : ℕ)) = some (x.shortest tie) := by
  unfold shortest
  dsimp only
  cases found : (List.range 17).findSome? fun n => x.nearestOnGrid? tie (x.magnitude - (n + 1 : ℕ)) with
  | some d =>
    obtain ⟨n, inRange, found⟩ := List.exists_of_findSome?_eq_some found
    exact ⟨n, List.mem_range.mp inRange, found⟩
  | none =>
    have last := List.findSome?_eq_none_iff.mp found 16 (by decide)
    refine absurd last (nearestOnGrid?_ne_none sound nonzero ?_)
    have sum : x.magnitude - (16 + 1 : ℕ) + (16 : ℕ) = x.magnitude - 1 := by omega
    have power : (10 : ℚ) ^ (x.magnitude - (16 + 1 : ℕ)) * 10 ^ 16 = 10 ^ (x.magnitude - 1) := by
      rw [← zpow_natCast, ← zpow_add₀ (by norm_num), sum]
    rw [power]
    exact (magnitude_bounds sound nonzero).1

theorem Binary.value_range (sound : x.Sound) (nonzero : x.mantissa ≠ 0) :
    2 ^ (-1074 : ℤ) ≤ x.value ∧ x.value < 2 ^ (1024 : ℤ) := by
  obtain ⟨low, high⟩ := value_bounds nonzero
  have bits : x.mantissa.log2 < 53 := (Nat.log2_lt nonzero).mpr sound.isDouble.fits
  have least := sound.isDouble.least
  have largest := sound.isDouble.largest
  exact ⟨(zpow_le_zpow_right₀ (by norm_num) (by omega)).trans low,
    high.trans_le (zpow_le_zpow_right₀ (by norm_num) (by omega))⟩

theorem Binary.magnitude_range (sound : x.Sound) (nonzero : x.mantissa ≠ 0) :
    -1074 < x.magnitude ∧ x.magnitude ≤ 1024 := by
  obtain ⟨low, high⟩ := value_range sound nonzero
  obtain ⟨above, below⟩ := magnitude_bounds sound nonzero
  constructor
  · have least : (10 : ℚ) ^ (-1074 : ℤ) ≤ 2 ^ (-1074 : ℤ) := by
      rw [zpow_neg, zpow_neg]
      exact inv_anti₀ (two_zpow_pos _) (zpow_le_zpow_left₀ (by norm_num) (by norm_num) (by norm_num))
    exact (zpow_lt_zpow_iff_right₀ (by norm_num)).mp ((least.trans low).trans_lt below)
  · have largest : (2 : ℚ) ^ (1024 : ℤ) ≤ 10 ^ (1024 : ℤ) :=
      zpow_le_zpow_left₀ (by norm_num) (by norm_num) (by norm_num)
    have := (zpow_lt_zpow_iff_right₀ (by norm_num)).mp ((above.trans_lt high).trans_le largest)
    omega

/-- The fewest digits are seventeen at most, or a power of ten with one more, and read back. -/
theorem Binary.shortest_spec (sound : x.Sound) (nonzero : x.mantissa ≠ 0) (tie : Tie) :
    x.readsBack (x.shortest tie) = true ∧ (x.shortest tie).digits ≤ 10 ^ 17 ∧
      -1100 ≤ (x.shortest tie).exponent ∧ (x.shortest tie).exponent ≤ 1100 := by
  obtain ⟨n, inRange, found⟩ := shortest_found sound nonzero tie
  obtain ⟨reads, either⟩ := nearestOnGrid?_eq_some found
  obtain ⟨least, largest⟩ := magnitude_range sound nonzero
  generalize isGrid : x.magnitude - (n + 1 : ℕ) = k at either
  have under : x.under k < 10 ^ (n + 1) := by
    have low := (x.under_bounds k).1.trans_lt (magnitude_bounds sound nonzero).2
    have sum : x.magnitude = (n + 1 : ℕ) + k := by omega
    have power : (10 : ℚ) ^ x.magnitude = 10 ^ (n + 1) * 10 ^ k := by
      rw [← zpow_natCast, ← zpow_add₀ (by norm_num), sum]
    rw [power] at low
    exact_mod_cast lt_of_mul_lt_mul_right low (zpow_pos (by norm_num) k).le
  have few : 10 ^ (n + 1) ≤ 10 ^ 17 := Nat.pow_le_pow_right (by decide) (by omega)
  rcases either with isLower | isUpper
  · rw [isLower] at reads ⊢
    exact ⟨reads, by dsimp only; omega, by dsimp only; omega, by dsimp only; omega⟩
  · rw [isUpper] at reads ⊢
    exact ⟨reads, by dsimp only; omega, by dsimp only; omega, by dsimp only; omega⟩

end Grids

end DoubleEntry.Decimal
