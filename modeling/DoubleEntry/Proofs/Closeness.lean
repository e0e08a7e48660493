import DoubleEntry.Proofs.Doubles
import Mathlib

/-! # How far off a rounded result is

A result is close to the exact one up to a part of it. Rounding costs one part in `2 ^ 53`, and a little more
just below the normal range; multiplying and dividing add up what the operands are off. Whole numbers and
powers of ten that fit a mantissa are not off at all.
-/

namespace DoubleEntry.Rounding

open Float.Model Float.Model.UnpackedFloat Decimal

/-- A number is approximated up to a part of itself. -/
def Close (part exact approx : ℚ) : Prop := |approx - exact| ≤ part * exact

section Close

variable {ρ σ τ v v' w w' : ℚ}

theorem close_refl (nonneg : 0 ≤ ρ * v) : Close ρ v v := by
  rw [Close, sub_self, abs_zero]
  exact nonneg

theorem Close.mono (close : Close ρ v v') (le : ρ ≤ σ) (nonneg : 0 ≤ v) : Close σ v v' :=
  le_trans close (mul_le_mul_of_nonneg_right le nonneg)

theorem Close.trans (first : Close ρ v v') (second : Close σ v' w) (nonneg : 0 ≤ v) (nonneg' : 0 ≤ σ)
    (sum : ρ + σ + ρ * σ ≤ τ) : Close τ v w := by
  have below := (abs_le.mp first).2
  calc |w - v| ≤ |w - v'| + |v' - v| := abs_sub_le w v' v
    _ ≤ σ * v' + ρ * v := add_le_add second first
    _ ≤ σ * (v + ρ * v) + ρ * v := by
        have : σ * v' ≤ σ * (v + ρ * v) := mul_le_mul_of_nonneg_left (by linarith) nonneg'
        linarith
    _ = (ρ + σ + ρ * σ) * v := by ring
    _ ≤ τ * v := mul_le_mul_of_nonneg_right sum nonneg

theorem Close.mul (left : Close ρ v v') (right : Close σ w w') (nonneg : 0 ≤ v) (nonneg' : 0 ≤ w)
    (sum : ρ + σ + ρ * σ ≤ τ) : Close τ (v * w) (v' * w') := by
  have product : 0 ≤ v * w := mul_nonneg nonneg nonneg'
  have parts : v' * w' - v * w = (v' - v) * (w' - w) + (v * (w' - w) + w * (v' - v)) := by ring
  calc |v' * w' - v * w| ≤ |v' - v| * |w' - w| + (v * |w' - w| + w * |v' - v|) := by
        rw [parts]
        refine (abs_add_le _ _).trans (add_le_add (abs_mul _ _).le ((abs_add_le _ _).trans_eq ?_))
        rw [abs_mul, abs_mul, abs_of_nonneg nonneg, abs_of_nonneg nonneg']
    _ ≤ ρ * v * (σ * w) + (v * (σ * w) + w * (ρ * v)) := by
        have both := mul_le_mul left right (abs_nonneg _) ((abs_nonneg _).trans left)
        have one := mul_le_mul_of_nonneg_left right nonneg
        have other := mul_le_mul_of_nonneg_left left nonneg'
        linarith
    _ = (ρ + σ + ρ * σ) * (v * w) := by ring
    _ ≤ τ * (v * w) := mul_le_mul_of_nonneg_right sum product

theorem Close.div (left : Close ρ v v') (right : Close σ w w') (positive : 0 < v) (positive' : 0 < w)
    (part : σ < 1) (sum : ρ + σ ≤ τ * (1 - σ)) : Close τ (v / w) (v' / w') := by
  have least : (1 - σ) * w ≤ w' := by linarith [(abs_le.mp right).1]
  have someLeast : 0 < (1 - σ) * w := mul_pos (by linarith) positive'
  have some : 0 < w' := someLeast.trans_le least
  have nonneg : 0 ≤ τ := by
    have left := (abs_nonneg _).trans left
    have right := (abs_nonneg _).trans right
    have left := nonneg_of_mul_nonneg_left left positive
    have right := nonneg_of_mul_nonneg_left right positive'
    exact nonneg_of_mul_nonneg_left ((add_nonneg left right).trans sum) (by linarith)
  have parts : v' / w' - v / w = (w * (v' - v) - v * (w' - w)) / (w * w') := by
    field_simp
    ring
  rw [Close, parts, abs_div, abs_of_pos (mul_pos positive' some), div_le_iff₀ (mul_pos positive' some)]
  calc |w * (v' - v) - v * (w' - w)| ≤ w * |v' - v| + v * |w' - w| := by
        refine (abs_sub _ _).trans_eq ?_
        rw [abs_mul, abs_mul, abs_of_pos positive, abs_of_pos positive']
    _ ≤ w * (ρ * v) + v * (σ * w) :=
        add_le_add (mul_le_mul_of_nonneg_left left positive'.le) (mul_le_mul_of_nonneg_left right positive.le)
    _ = (ρ + σ) * (v * w) := by ring
    _ ≤ τ * (1 - σ) * (v * w) := mul_le_mul_of_nonneg_right sum (mul_pos positive positive').le
    _ = τ * v * ((1 - σ) * w) := by ring
    _ ≤ τ * v * w' := mul_le_mul_of_nonneg_left least (mul_nonneg nonneg positive.le)
    _ = τ * (v / w) * (w * w') := by field_simp

end Close

/-! ## Rounded results -/

section Rounded

variable {x : Float} {v : ℚ} {units : ℕ} {exponent : ℤ}

/-- What is rounded to something close to it is a positive double. -/
theorem Rounds.standsFor {part : ℚ} (rounds : Rounds v units exponent)
    (close : Close part v (units * 2 ^ exponent)) (small : part ≤ 1 / 2) (positive : 0 < v)
    (inRange : v < 2 ^ (1023 : ℤ)) :
    StandsFor (double .positive units exponent) (units * 2 ^ exponent) := by
  obtain ⟨above, below⟩ := abs_le.mp close
  have half : part * v ≤ 1 / 2 * v := mul_le_mul_of_nonneg_right small positive.le
  have bounded : (units * 2 ^ exponent : ℚ) < 2 ^ (1024 : ℤ) := by
    have twice : (2 : ℚ) ^ (1024 : ℤ) = 2 ^ (1023 : ℤ) * 2 := zpow_add_one₀ (by norm_num) 1023
    rw [twice]
    generalize (2 : ℚ) ^ (1023 : ℤ) = limit at inRange ⊢
    linarith
  obtain ⟨units', exponent', isDouble, same, represented⟩ := rounds.isDouble bounded
  have some : 0 < units' := by
    rw [Nat.pos_iff_ne_zero]
    rintro rfl
    rw [← same, Nat.cast_zero, zero_mul] at above
    linarith
  rw [← same, represented]
  exact standsFor_double isDouble some

/-- Within the normal range, rounding costs one part in `2 ^ 53` at most. -/
theorem RoundsTo.standsFor (roundsTo : RoundsTo v x) (normal : 2 ^ (-1022 : ℤ) ≤ v)
    (inRange : v < 2 ^ (1023 : ℤ)) : ∃ w, StandsFor x w ∧ Close (1 / 2 ^ 53) v w := by
  obtain ⟨units, exponent, rounds, rfl⟩ := roundsTo
  have close : Close (1 / 2 ^ 53) v (units * 2 ^ exponent) := by
    have error := rounds.relative normal
    rwa [div_eq_inv_mul, ← one_div] at error
  exact ⟨_, rounds.standsFor close (by norm_num) ((two_zpow_pos _).trans_le normal) inRange, close⟩

/-- Just below the normal range, it costs one part in `2 ^ 51` at most. -/
theorem RoundsTo.standsFor_low (roundsTo : RoundsTo v x) (low : 2 ^ (-1024 : ℤ) ≤ v)
    (inRange : v < 2 ^ (1023 : ℤ)) : ∃ w, StandsFor x w ∧ Close (1 / 2 ^ 51) v w := by
  obtain ⟨units, exponent, rounds, rfl⟩ := roundsTo
  have positive : 0 < v := (two_zpow_pos _).trans_le low
  have close : Close (1 / 2 ^ 51) v (units * 2 ^ exponent) := by
    have scale : 2 ^ exponent / 2 ≤ 1 / 2 ^ 51 * v := by
      rcases rounds.full with full | least
      · linarith
      · have power := two_pow_mul_zpow 50 (-1074)
        rw [Nat.cast_ofNat, show (50 + -1074 : ℤ) = -1024 from rfl] at power
        rw [least]
        linarith
    exact rounds.error.trans scale
  exact ⟨_, rounds.standsFor close (by norm_num) positive inRange, close⟩

/-- A number that fits a mantissa is a double, with whatever power of two it is multiplied. -/
theorem exists_isDouble {n : ℕ} (positive : 0 < n) (fits : n < 2 ^ 53) {power : ℤ} (least : -1000 ≤ power)
    (largest : power ≤ 971) :
    ∃ units exponent, IsDouble units exponent ∧ 0 < units ∧ (units * 2 ^ exponent : ℚ) = n * 2 ^ power := by
  have bits : n.log2 < 53 := (Nat.log2_lt positive.ne').mpr fits
  obtain ⟨shift, isShift⟩ : ∃ shift, n.log2 + shift = 52 := ⟨52 - n.log2, by omega⟩
  have above : 2 ^ n.log2 ≤ n := Nat.log2_self_le positive.ne'
  have below : n < 2 ^ (n.log2 + 1) := Nat.lt_log2_self
  refine ⟨n * 2 ^ shift, power - shift, ⟨?_, by omega, by omega, .inl ?_⟩, by positivity, ?_⟩
  · calc n * 2 ^ shift < 2 ^ (n.log2 + 1) * 2 ^ shift := Nat.mul_lt_mul_of_pos_right below (by positivity)
      _ = 2 ^ 53 := by rw [← pow_add]; congr 1; omega
  · calc 2 ^ 52 = 2 ^ n.log2 * 2 ^ shift := by rw [← pow_add, isShift]
      _ ≤ n * 2 ^ shift := Nat.mul_le_mul_right _ above
  · rw [zpow_sub₀ (by norm_num), zpow_natCast]
    push_cast
    field_simp

/-- Rounding such a number costs nothing. -/
theorem RoundsTo.exact {n : ℕ} {power : ℤ} (roundsTo : RoundsTo v x) (positive : 0 < n) (fits : n < 2 ^ 53)
    (least : -1000 ≤ power) (largest : power ≤ 971) (isValue : v = n * 2 ^ power) : StandsFor x v := by
  obtain ⟨units, exponent, rounds, rfl⟩ := roundsTo
  obtain ⟨units', exponent', isDouble, some, same⟩ := exists_isDouble positive fits least largest
  have also := rounds_units isDouble.fits isDouble.least isDouble.full
  rw [same, ← isValue] at also
  obtain ⟨rfl, rfl⟩ := rounds.unique also
  rw [isValue, ← same]
  exact standsFor_double isDouble some

end Rounded

/-! ## The operands of the reader -/

section Operands

theorem ten_pow_lt : 10 ^ 307 < 2 ^ 1023 := by decide +kernel

theorem toFloat_close {n : ℕ} (positive : 0 < n) (short : n ≤ 10 ^ 17) :
    ∃ w, StandsFor (UInt64.ofNat n).toFloat w ∧ Close (1 / 2 ^ 53) n w ∧ (n ≤ 2 ^ 53 → w = n) := by
  have roundsTo := toFloat_roundsTo positive (by omega)
  have some : (1 : ℚ) ≤ n := by exact_mod_cast positive
  have nonneg : 0 ≤ 1 / 2 ^ 53 * (n : ℚ) := by positivity
  rcases lt_trichotomy n (2 ^ 53) with fits | full | large
  · have isValue : (n : ℚ) = n * 2 ^ (0 : ℤ) := by rw [zpow_zero, mul_one]
    exact ⟨n, roundsTo.exact positive fits (by decide) (by decide) isValue, close_refl nonneg, fun _ => rfl⟩
  · have isValue : (n : ℚ) = (1 : ℕ) * 2 ^ (53 : ℤ) := by
      rw [full]
      norm_num
    exact ⟨n, roundsTo.exact (by decide) (by decide) (by decide) (by decide) isValue, close_refl nonneg,
      fun _ => rfl⟩
  · have normal : (2 : ℚ) ^ (-1022 : ℤ) ≤ n := (zpow_le_one_of_nonpos₀ (by norm_num) (by norm_num)).trans some
    have inRange : (n : ℚ) < 2 ^ (1023 : ℤ) := by
      have : n < 2 ^ 1023 := (short.trans (Nat.pow_le_pow_right (by decide) (by decide))).trans_lt ten_pow_lt
      exact_mod_cast this
    obtain ⟨w, standsFor, close⟩ := roundsTo.standsFor normal inRange
    exact ⟨w, standsFor, close, fun fits => absurd fits (by omega)⟩

/-- The bits of the largest power of ten. -/
theorem toBits_powerOfTen_308 :
    (Json.powerOfTen 308).toBits = (double .positive 0x11CCF385EBC8A0 971).toBits := by
  decide +kernel

theorem ten_pow_308_bounds : 10 ^ 308 ≤ 0x11CCF385EBC8A0 * 2 ^ 971 ∧
    0x11CCF385EBC8A0 * 2 ^ 971 * 2 ^ 56 ≤ 10 ^ 308 * (2 ^ 56 + 1) := by
  decide +kernel

/-- The largest power of ten is off by less than others may be. -/
theorem powerOfTen_308_close : ∃ w, StandsFor (Json.powerOfTen 308) w ∧ Close (1 / 2 ^ 56) (10 ^ 308) w := by
  have isDouble : IsDouble 0x11CCF385EBC8A0 971 := ⟨by decide, by decide, by decide, by decide⟩
  obtain ⟨above, below⟩ := ten_pow_308_bounds
  have above : (10 : ℚ) ^ 308 ≤ (0x11CCF385EBC8A0 : ℕ) * 2 ^ 971 := by exact_mod_cast above
  have below : ((0x11CCF385EBC8A0 : ℕ) * 2 ^ 971 * 2 ^ 56 : ℚ) ≤ 10 ^ 308 * (2 ^ 56 + 1) := by
    exact_mod_cast below
  refine ⟨_, Float.toBits_inj.mp toBits_powerOfTen_308 ▸ standsFor_double isDouble (by decide), ?_⟩
  have isPower : (2 : ℚ) ^ (971 : ℤ) = 2 ^ 971 := zpow_natCast 2 971
  rw [Close, isPower, abs_of_nonneg (sub_nonneg.mpr above)]
  generalize (10 : ℚ) ^ 308 = power, ((0x11CCF385EBC8A0 : ℕ) : ℚ) * 2 ^ 971 = approx at above below ⊢
  linarith

theorem powerOfTen_close {k : ℕ} (inRange : k ≤ 308) :
    ∃ w, StandsFor (Json.powerOfTen k) w ∧ Close (1 / 2 ^ 53) (10 ^ k) w ∧ (k ≤ 22 → w = 10 ^ k) := by
  have roundsTo := powerOfTen_roundsTo inRange
  have positive : (0 : ℚ) < 10 ^ k := by positivity
  by_cases small : k ≤ 22
  · have fits : 5 ^ k < 2 ^ 53 := (Nat.pow_le_pow_right (by decide) small).trans_lt (by decide)
    have isValue : (10 : ℚ) ^ k = (5 ^ k : ℕ) * 2 ^ (k : ℤ) := by
      rw [zpow_natCast]
      push_cast
      rw [← mul_pow]
      norm_num
    exact ⟨10 ^ k, roundsTo.exact (by positivity) fits (by omega) (by omega) isValue,
      close_refl (by positivity), fun _ => rfl⟩
  by_cases largest : k = 308
  · obtain ⟨w, standsFor, close⟩ := powerOfTen_308_close
    subst largest
    exact ⟨w, standsFor, close.mono (by norm_num) positive.le, fun small => absurd small (by decide)⟩
  · have normal : (2 : ℚ) ^ (-1022 : ℤ) ≤ 10 ^ k :=
      (zpow_le_one_of_nonpos₀ (by norm_num) (by norm_num)).trans (one_le_pow₀ (by norm_num))
    have inRange : (10 : ℚ) ^ k < 2 ^ (1023 : ℤ) := by
      have : 10 ^ k < 2 ^ 1023 := (Nat.pow_le_pow_right (by decide) (by omega)).trans_lt ten_pow_lt
      exact_mod_cast this
    obtain ⟨w, standsFor, close⟩ := roundsTo.standsFor normal inRange
    exact ⟨w, standsFor, close, fun small => absurd small (by omega)⟩

end Operands

end DoubleEntry.Rounding
