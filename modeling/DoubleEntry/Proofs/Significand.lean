import DoubleEntry.Proofs.Fewest
import Mathlib

/-! # What a numeral stands for

A numeral is its digits, taken as one number, times a power of ten. Wherever the layout puts the point, the
numeral of a double stands for the fewest digits that read back, and its digits are seventeen at most, or a
power of ten with one more.
-/

namespace DoubleEntry.Decimal

/-- The digits on both sides of the point, as one number. -/
def Numeral.significand (n : Numeral) : ℕ := valueOf (n.whole ++ n.fraction)

/-- The written power of ten. -/
def Numeral.exponent (n : Numeral) : ℤ :=
  match n.power with
  | none => 0
  | some power => if power.negative then -valueOf power.digits else valueOf power.digits

/-- The power of ten that the significand is multiplied with. -/
def Numeral.scale (n : Numeral) : ℤ := n.exponent - n.fraction.length

/-- The number that a numeral stands for, its sign aside. -/
def Numeral.value (n : Numeral) : ℚ := n.significand * 10 ^ n.scale

/-! ## The layout -/

section Layout

variable {layout : Layout} {negative : Bool} {digits : List ℕ} {exponent : ℤ}

theorem Layout.place_below_one (positional : layout.positional exponent = true) (nonempty : digits ≠ [])
    (small : exponent < 0) : layout.place negative digits exponent =
      { negative, whole := [0], fraction := List.replicate (-(exponent + 1)).toNat 0 ++ digits } := by
  have noWhole : (exponent + 1).toNat = 0 := by omega
  have some : (List.replicate (-(exponent + 1)).toNat 0 ++ digits).isEmpty = false := by simp [nonempty]
  simp only [Layout.place, positional, if_true, noWhole, List.take_zero, List.drop_zero, Nat.zero_sub, some,
    Bool.false_and, Bool.false_eq_true, if_false, List.replicate_zero, List.append_nil, List.isEmpty_nil]

theorem Layout.place_pointed (positional : layout.positional exponent = true) (large : 0 ≤ exponent)
    (short : (exponent + 1).toNat < digits.length) : layout.place negative digits exponent =
      { negative, whole := digits.take (exponent + 1).toNat,
        fraction := digits.drop (exponent + 1).toNat } := by
  have noZeros : (-(exponent + 1)).toNat = 0 := by omega
  have noFill : (exponent + 1).toNat - digits.length = 0 := by omega
  have some : (digits.take (exponent + 1).toNat).isEmpty = false := by
    rw [List.isEmpty_eq_false_iff, ne_eq, List.take_eq_nil_iff, not_or]
    exact ⟨by omega, List.length_pos_iff.mp (by omega)⟩
  have more : (digits.drop (exponent + 1).toNat).isEmpty = false := by
    rw [List.isEmpty_eq_false_iff, ne_eq, List.drop_eq_nil_iff]
    omega
  simp only [Layout.place, positional, if_true, noZeros, noFill, List.replicate_zero, List.append_nil,
    List.nil_append, some, more, Bool.false_and, Bool.false_eq_true, if_false]

theorem Layout.place_whole (positional : layout.positional exponent = true) (nonempty : digits ≠ [])
    (long : digits.length ≤ (exponent + 1).toNat) : layout.place negative digits exponent =
      { negative, whole := digits ++ List.replicate ((exponent + 1).toNat - digits.length) 0,
        fraction := if layout.pointZero then [0] else [] } := by
  have some := List.length_pos_iff.mpr nonempty
  have noZeros : (-(exponent + 1)).toNat = 0 := by omega
  have isWhole : (digits ++ List.replicate ((exponent + 1).toNat - digits.length) 0).isEmpty = false := by
    simp [nonempty]
  simp only [Layout.place, positional, if_true, noZeros, List.take_of_length_le long,
    List.drop_of_length_le long, isWhole, List.replicate_zero, List.append_nil, List.isEmpty_nil,
    Bool.true_and, Bool.false_eq_true, if_false]

theorem Layout.place_power (scientific : layout.positional exponent = false) :
    layout.place negative digits exponent =
      { negative, whole := digits.take 1, fraction := digits.drop 1,
        power := some ⟨exponent < 0, digitsOf exponent.natAbs⟩ } := by
  simp only [Layout.place, scientific, Bool.false_eq_true, if_false]

theorem Layout.place_negative : (layout.place negative digits exponent).negative = negative := by
  rw [Layout.place]
  split <;> rfl

theorem Layout.place_exponent : (layout.place negative digits exponent).exponent =
    if layout.positional exponent then 0 else exponent := by
  cases positional : layout.positional exponent with
  | true => simp only [Layout.place, positional, if_true, Numeral.exponent]
  | false =>
    rw [place_power positional]
    simp only [Numeral.exponent, valueOf_digitsOf, decide_eq_true_eq, Bool.false_eq_true, if_false]
    split <;> omega

/-- Wherever the point is put, the digits stay; zeros are filled in up to the point and behind it. -/
theorem Layout.place_spec (layout : Layout) (negative : Bool) (nonempty : digits ≠ []) (exponent : ℤ) :
    ∃ zeros : ℕ, (layout.place negative digits exponent).significand = valueOf digits * 10 ^ zeros ∧
      (layout.place negative digits exponent).scale = exponent + 1 - digits.length - zeros ∧
      (zeros = 0 ∨ layout.positional exponent = true ∧ zeros + digits.length ≤ (exponent + 1).toNat + 1) := by
  have some := List.length_pos_iff.mpr nonempty
  cases positional : layout.positional exponent with
  | true =>
    by_cases small : exponent < 0
    · rw [place_below_one positional nonempty small]
      refine ⟨0, ?_, ?_, .inl rfl⟩
      · simp only [Numeral.significand, ← List.append_assoc]
        rw [← List.replicate_one, ← List.replicate_add, valueOf_replicate_append, pow_zero, mul_one]
      · simp only [Numeral.scale, Numeral.exponent, List.length_append, List.length_replicate]
        omega
    by_cases short : (exponent + 1).toNat < digits.length
    · rw [place_pointed positional (by omega) short]
      refine ⟨0, ?_, ?_, .inl rfl⟩
      · rw [Numeral.significand, List.take_append_drop, pow_zero, mul_one]
      · simp only [Numeral.scale, Numeral.exponent, List.length_drop]
        omega
    · rw [place_whole positional nonempty (by omega)]
      cases layout.pointZero with
      | true =>
        refine ⟨(exponent + 1).toNat - digits.length + 1, ?_, ?_, .inr ⟨rfl, by omega⟩⟩
        · simp only [Numeral.significand, if_true, List.append_assoc]
          rw [← List.replicate_one, ← List.replicate_add, valueOf_append_replicate]
        · simp only [Numeral.scale, Numeral.exponent, if_true, List.length_singleton]
          omega
      | false =>
        refine ⟨(exponent + 1).toNat - digits.length, ?_, ?_, .inr ⟨rfl, by omega⟩⟩
        · simp only [Numeral.significand, Bool.false_eq_true, if_false, List.append_nil]
          rw [valueOf_append_replicate]
        · simp only [Numeral.scale, Numeral.exponent, Bool.false_eq_true, if_false, List.length_nil]
          omega
  | false =>
    rw [place_power positional]
    refine ⟨0, ?_, ?_, .inl rfl⟩
    · rw [Numeral.significand, List.take_append_drop, pow_zero, mul_one]
    · rw [Numeral.scale, ← place_power positional, place_exponent, positional, place_power positional]
      simp only [List.length_drop, Bool.false_eq_true, if_false]
      omega

end Layout

/-- Trailing zeros are left out. -/
theorem Scaled.leading_spec {d : Scaled} (nonzero : d.digits ≠ 0) :
    ∃ zeros : ℕ, d.digits = valueOf d.leading.1 * 10 ^ zeros ∧
      d.leading.2 + 1 - d.leading.1.length = d.exponent + zeros := by
  let significant := ((digitsOf d.digits).reverse.dropWhile (· == 0)).reverse
  let dropped := (digitsOf d.digits).reverse.takeWhile (· == 0)
  have parts : digitsOf d.digits = significant ++ List.replicate dropped.length 0 := by
    have zeros : dropped = List.replicate dropped.length 0 :=
      List.eq_replicate_of_mem fun digit inside => by simpa using List.mem_takeWhile_imp inside
    rw [← List.reverse_inj, List.reverse_append, List.reverse_reverse, List.reverse_replicate, ← zeros]
    exact List.takeWhile_append_dropWhile.symm
  have isLeading : d.leading.1 = significant := by
    change (if significant.isEmpty then [0] else significant) = significant
    split
    · rename_i empty
      rw [List.isEmpty_iff.mp empty, List.nil_append] at parts
      have isValue := valueOf_digitsOf d.digits
      rw [parts, valueOf_replicate] at isValue
      exact absurd isValue.symm nonzero
    · rfl
  refine ⟨dropped.length, ?_, ?_⟩
  · rw [isLeading, ← valueOf_append_replicate, ← parts, valueOf_digitsOf]
  · have length := congrArg List.length parts
    rw [List.length_append, List.length_replicate] at length
    rw [isLeading]
    change d.exponent + (digitsOf d.digits).length - 1 + 1 - significant.length = _
    omega

/-! ## The numeral of a double -/

theorem Layout.numeral_negative (layout : Layout) (x : Float) :
    (layout.numeral x).negative = (x.toBits >>> 63 != 0) := by
  unfold Layout.numeral
  dsimp only
  split
  · exact place_negative
  · exact place_negative

/-- A numeral that says which double it was written for, and is short. -/
structure Written (x : Binary) (n : Numeral) : Prop where
  reads : ∃ d, x.readsBack d = true ∧ n.value = d.value
  positive : 0 < n.significand
  short : n.significand ≤ 10 ^ 17
  exponent : n.exponent.natAbs ≤ Json.maxPower

theorem written_numeral {x : Float} (isFinite : x.isFinite = true)
    (nonzero : (Binary.ofBits x.toBits).mantissa ≠ 0) :
    Written (Binary.ofBits x.toBits) (Json.wireLayout.numeral x) := by
  obtain ⟨reads, few, least, largest⟩ := Binary.shortest_spec (Binary.sound_ofBits isFinite) nonzero .toEven
  have some := Binary.digits_shortest nonzero .toEven
  obtain ⟨first, rest, shape, leading, below⟩ := Scaled.leading_eq_cons some
  obtain ⟨dropped, isValue, isScale⟩ := Scaled.leading_spec some
  have isNumeral : Json.wireLayout.numeral x = Json.wireLayout.place (x.toBits >>> 63 != 0)
      ((Binary.ofBits x.toBits).shortest .toEven).leading.1
      ((Binary.ofBits x.toBits).shortest .toEven).leading.2 := by
    simp only [Layout.numeral, nonzero, if_false]
    rfl
  have length : ((Binary.ofBits x.toBits).shortest .toEven).leading.2 =
      ((Binary.ofBits x.toBits).shortest .toEven).exponent +
        (digitsOf ((Binary.ofBits x.toBits).shortest .toEven).digits).length - 1 := rfl
  rw [isNumeral]
  generalize (Binary.ofBits x.toBits).shortest .toEven = d at *
  have bound : (digitsOf d.digits).length ≤ 18 := (length_digitsOf_le_iff (by decide)).mpr (by omega)
  have nonempty : d.leading.1 ≠ [] := by rw [shape]; exact List.cons_ne_nil _ _
  obtain ⟨zeros, isSignificand, scale, filled⟩ :=
    Json.wireLayout.place_spec (x.toBits >>> 63 != 0) nonempty d.leading.2
  refine ⟨⟨d, reads, ?_⟩, ?_, ?_, ?_⟩
  · rw [Numeral.value, isSignificand, scale, isScale, Scaled.value]
    have digits : (d.digits : ℚ) = valueOf d.leading.1 * 10 ^ dropped := by exact_mod_cast isValue
    rw [digits, zpow_sub₀ (by norm_num), zpow_add₀ (by norm_num), zpow_natCast, zpow_natCast]
    push_cast
    field_simp
  · rw [isSignificand]
    refine Nat.mul_pos (Nat.pos_of_ne_zero fun zero => some ?_) (Nat.pow_pos (by decide))
    rw [isValue, zero, Nat.zero_mul]
  · rw [isSignificand]
    rcases filled with none | ⟨positional, filled⟩
    · rw [none, pow_zero, mul_one]
      exact (Nat.le_mul_of_pos_right _ (Nat.pow_pos (by decide))).trans (isValue ▸ few)
    · have inRange : -5 ≤ d.leading.2 ∧ d.leading.2 < 16 := of_decide_eq_true positional
      have fits : valueOf d.leading.1 < 10 ^ d.leading.1.length := valueOf_lt (shape ▸ below)
      calc valueOf d.leading.1 * 10 ^ zeros ≤ 10 ^ d.leading.1.length * 10 ^ zeros :=
            Nat.mul_le_mul_right _ fits.le
        _ = 10 ^ (zeros + d.leading.1.length) := by rw [← pow_add, Nat.add_comm]
        _ ≤ 10 ^ 17 := Nat.pow_le_pow_right (by decide) (by omega)
  · rw [Layout.place_exponent]
    split
    · decide
    · rw [length]
      have : Json.maxPower = 2147483647 := rfl
      omega

end DoubleEntry.Decimal
