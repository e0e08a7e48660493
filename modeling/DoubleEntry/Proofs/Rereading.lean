import DoubleEntry.Proofs.Scaling
import DoubleEntry.Proofs.WireForm
import Mathlib

/-! # Amounts that are read again

The numeral of a finite double is read as a finite double of the same sign, less than four units in the last
place away. It is the same double if the digits fit a mantissa and the power of ten is exact, so an amount
with few digits comes back from the journal bit for bit; one with seventeen may not.
-/

namespace DoubleEntry.Json

open Decimal Rounding Float.Model.UnpackedFloat

section Magnitude

variable {x : Float} {n : Numeral}

/-- The power of ten in the numeral of a double is in the range of the reader. -/
theorem scale_range {b : Binary} (sound : b.Sound) (nonzero : b.mantissa ≠ 0) (written : Written b n) :
    -340 ≤ n.scale ∧ n.scale ≤ 308 := by
  obtain ⟨d, reads, isValue⟩ := written.reads
  have scale := two_zpow_pos b.exponent
  obtain ⟨above, below⟩ := abs_le.mp (Binary.near_of_readsBack nonzero reads)
  have some : (1 : ℚ) ≤ b.mantissa := by exact_mod_cast Nat.pos_of_ne_zero nonzero
  have fits : (b.mantissa : ℚ) + 1 ≤ 2 ^ 53 := by exact_mod_cast sound.isDouble.fits
  have low : 1 / 2 * 2 ^ b.exponent ≤ n.value := by
    rw [isValue, ← le_div_iff₀ scale]
    linarith
  have high : n.value < 2 ^ 53 * 2 ^ b.exponent := by
    rw [isValue, ← div_lt_iff₀ scale]
    linarith
  have positive : (1 : ℚ) ≤ n.significand := by exact_mod_cast written.positive
  have short : (n.significand : ℚ) ≤ 10 ^ 17 := by exact_mod_cast written.short
  constructor
  · by_contra! below
    have power : 2 * 2 ^ 1074 < 10 ^ 324 := by decide +kernel
    have power : (2 * 2 ^ 1074 : ℚ) < 10 ^ 324 := by exact_mod_cast power
    have least : (2 : ℚ) ^ (-1074 : ℤ) ≤ 2 ^ b.exponent :=
      zpow_le_zpow_right₀ (by norm_num) sound.isDouble.least
    have small : (10 : ℚ) ^ n.scale ≤ 10 ^ (-341 : ℤ) := zpow_le_zpow_right₀ (by norm_num) (by omega)
    have product : n.value ≤ 10 ^ 17 * 10 ^ (-341 : ℤ) :=
      mul_le_mul short small (zpow_pos (by norm_num) _).le (by positivity)
    have isInverse : (10 : ℚ) ^ 17 * 10 ^ (-341 : ℤ) = (10 ^ 324)⁻¹ := by
      rw [← zpow_natCast, ← zpow_natCast, ← zpow_neg, ← zpow_add₀ (by norm_num)]
      rfl
    have isInverse' : 1 / 2 * (2 : ℚ) ^ (-1074 : ℤ) = (2 * 2 ^ 1074)⁻¹ := by
      rw [mul_inv, zpow_neg, one_div]
      rfl
    have smaller := inv_strictAnti₀ (by positivity) power
    rw [← isInverse, ← isInverse'] at smaller
    linarith
  · by_contra! above
    have power : 2 ^ 1024 < 10 ^ 309 := by decide +kernel
    have power : (2 : ℚ) ^ 1024 < 10 ^ 309 := by exact_mod_cast power
    have largest : (2 : ℚ) ^ 53 * 2 ^ b.exponent ≤ 2 ^ (1024 : ℤ) := by
      rw [two_pow_mul_zpow]
      have := sound.isDouble.largest
      exact zpow_le_zpow_right₀ (by norm_num) (by omega)
    have large : (10 : ℚ) ^ (309 : ℤ) ≤ 10 ^ n.scale := zpow_le_zpow_right₀ (by norm_num) (by omega)
    have product : 10 ^ n.scale ≤ n.value := le_mul_of_one_le_left (zpow_pos (by norm_num) _).le positive
    exact absurd (((large.trans product).trans_lt high).trans_le largest) (not_lt.mpr power.le)

/-- What is rounded last is rounded to less than four units away from the double. -/
theorem near_of_approximates {b : Binary} (sound : b.Sound) {exact approx : ℚ}
    (near : |exact / 2 ^ b.exponent - b.mantissa| ≤ 1 / 2) (approximates : Approximates exact approx)
    {units : ℕ} {exponent : ℤ} (rounds : Rounds approx units exponent) :
    |units * 2 ^ exponent - b.value| < 4 * 2 ^ b.exponent := by
  have scale := two_zpow_pos b.exponent
  have fits : (b.mantissa : ℚ) + 1 ≤ 2 ^ 53 := by exact_mod_cast sound.isDouble.fits
  have isUnits : exact = exact / 2 ^ b.exponent * 2 ^ b.exponent := (div_mul_cancel₀ _ scale.ne').symm
  obtain ⟨above, below⟩ := abs_le.mp near
  have high : exact ≤ 2 ^ 53 * 2 ^ b.exponent := by
    rw [← div_le_iff₀ scale]
    linarith
  have approximated : |approx - exact| ≤ 9 / 4 * 2 ^ b.exponent := by
    rcases approximates with close | ⟨close, few⟩
    · exact le_trans close (by linarith : 9 / 2 ^ 55 * exact ≤ _)
    · have least : (2 : ℚ) ^ (-1074 : ℤ) ≤ 2 ^ b.exponent :=
        zpow_le_zpow_right₀ (by norm_num) sound.isDouble.least
      have power := two_pow_mul_zpow 51 (-1074)
      rw [Nat.cast_ofNat, show (51 + -1074 : ℤ) = -1023 from rfl] at power
      exact le_trans close (by linarith : 1 / 2 ^ 50 * exact ≤ _)
  have written : |exact - b.value| ≤ 1 / 2 * 2 ^ b.exponent := by
    have scaled : exact - b.value = (exact / 2 ^ b.exponent - b.mantissa) * 2 ^ b.exponent := by
      rw [sub_mul, ← isUnits, Binary.value]
    rw [scaled, abs_mul, abs_of_pos scale]
    exact mul_le_mul_of_nonneg_right near scale.le
  have rounded : |units * 2 ^ exponent - approx| ≤ 2 ^ b.exponent := by
    have next : (2 : ℚ) ^ (b.exponent + 1) = 2 ^ b.exponent * 2 := zpow_add_one₀ (by norm_num) _
    have bound : exponent ≤ b.exponent + 1 := by
      refine rounds.exponent_le ?_ (by have := sound.isDouble.least; omega)
      rw [next]
      linarith [(abs_le.mp approximated).2]
    have power : (2 : ℚ) ^ exponent ≤ 2 ^ (b.exponent + 1) := zpow_le_zpow_right₀ (by norm_num) bound
    linarith [rounds.error]
  calc |units * 2 ^ exponent - b.value|
      ≤ |units * 2 ^ exponent - approx| + |approx - b.value| := abs_sub_le _ _ _
    _ ≤ |units * 2 ^ exponent - approx| + (|approx - exact| + |exact - b.value|) := by
        linarith [abs_sub_le approx exact b.value]
    _ < 4 * 2 ^ b.exponent := by linarith

/-- The largest doubles, whose numerals are read by one multiplication that could have overflowed. -/
theorem read_largest : ∀ sign ∈ [Sign.positive, .negative],
    ∀ units ∈ [(2 ^ 53 - 1, 2 ^ 53 - 1), (2 ^ 53 - 2, 2 ^ 53 - 1), (2 ^ 53 - 3, 2 ^ 53 - 3)],
      (magnitude? (wireLayout.numeral (double sign units.1 971))).map Float.toBits =
        some (double .positive units.2 971).toBits := by
  decide +kernel

/-- The numeral of a double other than zero is read as a double that is less than four units away. -/
theorem magnitude?_numeral (isFinite : x.isFinite = true) (nonzero : (Binary.ofBits x.toBits).mantissa ≠ 0) :
    ∃ units exponent, IsDouble units exponent ∧
      magnitude? (wireLayout.numeral x) = some (double .positive units exponent) ∧
      |units * 2 ^ exponent - (Binary.ofBits x.toBits).value| < 4 * 2 ^ (Binary.ofBits x.toBits).exponent ∧
      ((wireLayout.numeral x).significand ≤ 2 ^ 53 → (wireLayout.numeral x).scale.natAbs ≤ 22 →
        units = (Binary.ofBits x.toBits).mantissa ∧ exponent = (Binary.ofBits x.toBits).exponent) := by
  have isDouble := eq_double isFinite
  have sound := Binary.sound_ofBits isFinite
  have written := written_numeral isFinite nonzero
  generalize Binary.ofBits x.toBits = b at *
  obtain ⟨d, reads, isValue⟩ := written.reads
  obtain ⟨least, largest⟩ := scale_range sound nonzero written
  have scale := two_zpow_pos b.exponent
  have read := magnitude?_eq (written.short.trans (by decide)) written.exponent
  obtain ⟨approx, y, ⟨units, exponent, rounds, rfl⟩, scaled, approximates, exact⟩ :=
    scaled?_approximates written.positive written.short least largest
  rw [← read] at scaled
  rw [← Numeral.value, isValue] at approximates exact
  by_cases few : (wireLayout.numeral x).significand ≤ 2 ^ 53 ∧ (wireLayout.numeral x).scale.natAbs ≤ 22
  · obtain ⟨units', exponent', rounds', same⟩ := Binary.rounds_of_readsBack sound nonzero reads
    rw [exact few.1 few.2] at rounds
    obtain ⟨rfl, rfl⟩ := rounds.unique rounds'
    rw [same] at scaled
    refine ⟨_, _, sound.isDouble, scaled (isFinite_double .positive sound.isDouble), ?_,
      fun _ _ => ⟨rfl, rfl⟩⟩
    rw [Binary.value, sub_self, abs_zero]
    linarith
  have near := near_of_approximates sound (Binary.near_of_readsBack nonzero reads) approximates rounds
  by_cases room : b.mantissa + 4 ≤ 2 ^ 53 ∨ b.exponent ≤ 970
  · have bounded : (units * 2 ^ exponent : ℚ) < 2 ^ (1024 : ℤ) := by
      have top : (b.mantissa + 4 : ℚ) * 2 ^ b.exponent ≤ 2 ^ (1024 : ℤ) := by
        have fits := sound.isDouble.fits
        have bound := sound.isDouble.largest
        obtain ⟨bits, enough, powers⟩ : ∃ bits : ℕ, b.mantissa + 4 ≤ 2 ^ bits ∧ bits + b.exponent ≤ 1024 := by
          rcases room with room | room
          · exact ⟨53, room, by omega⟩
          · exact ⟨54, by omega, by omega⟩
        have enough : (b.mantissa + 4 : ℚ) ≤ 2 ^ bits := by exact_mod_cast enough
        calc (b.mantissa + 4 : ℚ) * 2 ^ b.exponent ≤ 2 ^ bits * 2 ^ b.exponent :=
              mul_le_mul_of_nonneg_right enough scale.le
          _ = 2 ^ (bits + b.exponent) := two_pow_mul_zpow _ _
          _ ≤ 2 ^ (1024 : ℤ) := zpow_le_zpow_right₀ (by norm_num) powers
      have := (abs_lt.mp near).2
      rw [Binary.value] at this
      linarith
    obtain ⟨units', exponent', isDouble', same, represented⟩ := rounds.isDouble bounded
    rw [represented] at scaled
    rw [← same] at near
    exact ⟨units', exponent', isDouble', scaled (isFinite_double .positive isDouble'), near,
      fun short exact => absurd ⟨short, exact⟩ few⟩
  · obtain ⟨top, largest⟩ := not_or.mp room
    have fits := sound.isDouble.fits
    have bound := sound.isDouble.largest
    have isLargest : b.exponent = 971 := by omega
    obtain ⟨units', isPair, close⟩ : ∃ units' : ℕ, (b.mantissa, units') ∈
        [(2 ^ 53 - 1, 2 ^ 53 - 1), (2 ^ 53 - 2, 2 ^ 53 - 1), (2 ^ 53 - 3, 2 ^ 53 - 3)] ∧
        b.mantissa ≤ units' ∧ units' ≤ b.mantissa + 1 ∧ units' < 2 ^ 53 := by
      have three : b.mantissa = 2 ^ 53 - 1 ∨ b.mantissa = 2 ^ 53 - 2 ∨ b.mantissa = 2 ^ 53 - 3 := by omega
      rcases three with isTop | isTop | isTop
      · exact ⟨2 ^ 53 - 1, by simp [isTop], by omega⟩
      · exact ⟨2 ^ 53 - 1, by simp [isTop], by omega⟩
      · exact ⟨2 ^ 53 - 3, by simp [isTop], by omega⟩
    have found := read_largest (signOf x.toBits) (by cases signOf x.toBits <;> simp) _ isPair
    rw [isLargest] at isDouble
    rw [← isDouble] at found
    obtain ⟨y, isRead, sameBits⟩ := Option.map_eq_some_iff.mp found
    rw [Float.toBits_inj.mp sameBits] at isRead
    refine ⟨units', 971, ⟨close.2.2, by decide, le_rfl, .inl (by omega)⟩, isRead, ?_,
      fun short exact => absurd ⟨short, exact⟩ few⟩
    have low : (b.mantissa : ℚ) ≤ units' := by exact_mod_cast close.1
    have high : (units' : ℚ) ≤ b.mantissa + 1 := by exact_mod_cast close.2.1
    rw [Binary.value, isLargest, ← sub_mul, abs_mul, abs_of_pos (two_zpow_pos 971),
      abs_of_nonneg (by linarith)]
    exact mul_lt_mul_of_pos_right (by linarith) (two_zpow_pos 971)

end Magnitude

/-! ## Doubles -/

/-- A double and the one that it is read as. -/
structure Reread (x y : Float) : Prop where
  isFinite : y.isFinite = true
  sign : signOf y.toBits = signOf x.toBits
  /-- Less than four units in the last place away. -/
  near : |(Binary.ofBits y.toBits).value - (Binary.ofBits x.toBits).value| <
    4 * 2 ^ (Binary.ofBits x.toBits).exponent
  /-- The same if the written digits fit a mantissa and are scaled by an exact power of ten. -/
  exact : (wireLayout.numeral x).significand ≤ 2 ^ 53 → (wireLayout.numeral x).scale.natAbs ≤ 22 → y = x

section Doubles

variable {x : Float}

theorem reread_refl (isFinite : x.isFinite = true) : Reread x x where
  isFinite
  sign := rfl
  near := by
    rw [sub_self, abs_zero]
    exact mul_pos (by norm_num) (two_zpow_pos _)
  exact _ _ := rfl

theorem value_double (sign : Sign) {units : ℕ} {exponent : ℤ} (isDouble : IsDouble units exponent) :
    (Binary.ofBits (double sign units exponent).toBits).value = units * 2 ^ exponent := by
  obtain ⟨-, isUnits, isExponent⟩ := ofBits_double sign isDouble
  rw [Binary.value, ← isUnits]
  by_cases some : 0 < units
  · rw [← isExponent some]
  · rw [Nat.eq_zero_of_not_pos some, Nat.cast_zero, zero_mul, zero_mul]

/-- Both zeros are read as themselves. -/
theorem float?_zero : ∀ sign ∈ [Sign.positive, .negative],
    (float? (ofFloat (double sign 0 0))).map Float.toBits = some (double sign 0 0).toBits := by
  decide +kernel

/-- Every finite double is read as one that is near. -/
theorem float?_ofFloat (isFinite : x.isFinite = true) : ∃ y, float? (ofFloat x) = some y ∧ Reread x y := by
  have isDouble := eq_double isFinite
  by_cases zero : (Binary.ofBits x.toBits).mantissa = 0
  · have isZero : x = double (signOf x.toBits) 0 0 := isDouble.trans (by rw [zero]; rfl)
    have found := float?_zero (signOf x.toBits) (by cases signOf x.toBits <;> simp)
    rw [← isZero] at found
    obtain ⟨y, isRead, sameBits⟩ := Option.map_eq_some_iff.mp found
    rw [Float.toBits_inj.mp sameBits] at isRead
    exact ⟨x, isRead, reread_refl isFinite⟩
  · obtain ⟨units, exponent, isDouble', isRead, near, exact⟩ := magnitude?_numeral isFinite zero
    refine ⟨double (signOf x.toBits) units exponent, ?_, isFinite_double _ isDouble',
      (ofBits_double _ isDouble').1.symm, ?_, fun short small => ?_⟩
    · rw [ofFloat, if_pos isFinite, float?, isRead, Option.map_some, Layout.numeral_negative, signOf]
      split
      · rw [neg_double isDouble']
      · rfl
    · rw [value_double _ isDouble']
      exact near
    · obtain ⟨rfl, rfl⟩ := exact short small
      exact isDouble.symm

end Doubles

end DoubleEntry.Json

namespace DoubleEntry.Wire

open Json

/-! ## Splits -/

/-- A split with finite numbers is always read again, and nothing but its numbers can change. -/
theorem split_reread {split : SplitSnapshot Float} (amount : split.amount.isFinite = true)
    (price : split.price.isFinite = true) : ∃ amount' price',
      read? (text split) = some { split with amount := amount', price := price' } ∧
        Reread split.amount amount' ∧ Reread split.price price' := by
  obtain ⟨amount', isAmount, reread⟩ := float?_ofFloat amount
  obtain ⟨price', isPrice, reread'⟩ := float?_ofFloat price
  exact ⟨amount', price', (readsAs_split (readsAs_float isAmount) (readsAs_float isPrice)).read?_text,
    reread, reread'⟩

/-- The least double there is, at a price of few digits. -/
def leastSplit : SplitSnapshot Float where
  split := ⟨.ofNat 1⟩
  account := some ⟨.ofNat 0⟩
  memo := "dust"
  action := ""
  docref := ""
  reconcile := .unreconciled
  amount := 5e-324
  price := -12.5

theorem split_reread_least : leastSplit.amount.isFinite = true ∧ leastSplit.price.isFinite = true ∧
    ∃ amount, read? (text leastSplit) = some { leastSplit with amount } ∧
      Reread leastSplit.amount amount := by
  have amount : leastSplit.amount.isFinite = true := by decide +kernel
  have price : leastSplit.price.isFinite = true := by decide +kernel
  obtain ⟨amount', price', read, reread, reread'⟩ := split_reread amount price
  have same : price' = leastSplit.price := reread'.exact (by decide +kernel) (by decide +kernel)
  rw [same] at read
  exact ⟨amount, price, amount', read, reread⟩

/-- An eleventh of a share. -/
def eleventhSplit : SplitSnapshot Float := { leastSplit with amount := 0.09090909090909091 }

/-- Not every split is faithful: an eleventh is read as the double above it. -/
theorem split_inexact : eleventhSplit.amount.isFinite = true ∧ eleventhSplit.price.isFinite = true ∧
    eleventhSplit.amount.toBits = 0x3FB745D1745D1746 ∧
    (read? (text eleventhSplit) : Option (SplitSnapshot Float)).map (·.amount.toBits) =
      some 0x3FB745D1745D1747 := by
  decide +kernel

end DoubleEntry.Wire
