import DoubleEntry.Json.Number
import DoubleEntry.Text.Hex
import Mathlib

/-! # Numerals as they are written

A whole number is written with one digit at least and without a zero in front of other digits, and its
digits give the number back. The numeral of a double keeps that form whatever the layout is, because the
decimal that stands for a double other than zero has no leading zero: `Layout.numeral_regular`.
-/

namespace DoubleEntry

/-! ## Runs of characters -/

namespace Text

variable {p : Char → Bool} {run rest : List Char}

/-- The text does not go on with a character of a class. -/
def Leaves (p : Char → Bool) (rest : List Char) : Prop := ∀ c ∈ rest.head?, p c = false

theorem leaves_cons {c : Char} (outside : p c = false) : Leaves p (c :: rest) := by
  rintro _ ⟨⟩
  exact outside

theorem takeWhile_append (inside : ∀ c ∈ run, p c = true) (leaves : Leaves p rest) :
    (run ++ rest).takeWhile p = run := by
  rw [List.takeWhile_append_of_pos inside]
  cases rest with
  | nil => simp
  | cons c _ => simp [leaves c rfl]

theorem dropWhile_append (inside : ∀ c ∈ run, p c = true) (leaves : Leaves p rest) :
    (run ++ rest).dropWhile p = rest := by
  rw [List.dropWhile_append_of_pos inside]
  cases rest with
  | nil => rfl
  | cons c _ => simp [leaves c rfl]

/-- Hexadecimal digits are the sixteen that there are. -/
theorem mem_hexDigits (width n : Nat) : ∀ c ∈ hexDigits width n, ∃ d < 16, c = hexChar d := by
  induction width generalizing n with
  | zero => exact nofun
  | succ width ih =>
    intro c inside
    rcases List.mem_append.mp inside with early | last
    · exact ih (n / 16) c early
    · exact ⟨n % 16, Nat.mod_lt n (by decide), List.mem_singleton.mp last⟩

end Text

namespace Decimal

/-! ## Digits -/

/-- Digits as the whole part of a number has them. -/
structure IsWhole (digits : List Nat) : Prop where
  nonempty : digits ≠ []
  below : ∀ d ∈ digits, d < 10
  leading : digits.head? = some 0 → digits = [0]

theorem isDigit_digitChar : ∀ d < 10, (digitChar d).isDigit = true := by decide

theorem value_digitChar : ∀ d < 10, (digitChar d).toNat - 48 = d := by decide

private theorem value_natDigitChar : ∀ d < 10, d.digitChar.toNat - 48 = d := by decide

theorem digitsOf_of_lt {n : Nat} (small : n < 10) : digitsOf n = [n] := by
  rw [digitsOf, Nat.toDigits_of_lt_base small, List.map_singleton, value_natDigitChar n small]

theorem digitsOf_of_le {n : Nat} (large : 10 ≤ n) : digitsOf n = digitsOf (n / 10) ++ [n % 10] := by
  rw [digitsOf, Nat.toDigits_of_base_le (by decide) large, List.map_append, List.map_singleton,
    value_natDigitChar _ (Nat.mod_lt n (by decide)), digitsOf]

theorem length_digitsOf_le_iff {n width : Nat} (positive : 0 < width) :
    (digitsOf n).length ≤ width ↔ n < 10 ^ width := by
  rw [digitsOf, List.length_map, Nat.length_toDigits_le_iff (by decide) positive]

/-- The first digit of a number other than zero is not zero. -/
theorem digitsOf_eq_cons {n : Nat} (nonzero : n ≠ 0) :
    ∃ first rest, digitsOf n = first :: rest ∧ first ≠ 0 := by
  induction n using Nat.strong_induction_on with
  | _ n ih =>
    by_cases small : n < 10
    · exact ⟨n, [], digitsOf_of_lt small, nonzero⟩
    · obtain ⟨first, rest, digits, leading⟩ := ih (n / 10) (by omega) (by omega)
      exact ⟨first, rest ++ [n % 10], by rw [digitsOf_of_le (by omega), digits, List.cons_append],
        leading⟩

theorem digitsOf_below (n : Nat) : ∀ d ∈ digitsOf n, d < 10 := by
  induction n using Nat.strong_induction_on with
  | _ n ih =>
    by_cases small : n < 10
    · simpa [digitsOf_of_lt small] using small
    · intro d inside
      rw [digitsOf_of_le (by omega), List.mem_append, List.mem_singleton] at inside
      rcases inside with inside | rfl
      · exact ih (n / 10) (by omega) d inside
      · exact Nat.mod_lt n (by decide)

theorem isWhole_digitsOf (n : Nat) : IsWhole (digitsOf n) := by
  by_cases zero : n = 0
  · subst zero
    rw [digitsOf_of_lt (by decide)]
    exact ⟨by simp, by simp, by simp⟩
  · obtain ⟨first, rest, digits, leading⟩ := digitsOf_eq_cons zero
    have below := digitsOf_below n
    rw [digits] at below ⊢
    exact ⟨by simp, below, fun head => absurd (Option.some.inj head) leading⟩

theorem valueOf_append_singleton (digits : List Nat) (d : Nat) :
    valueOf (digits ++ [d]) = valueOf digits * 10 + d := by
  simp [valueOf]

theorem valueOf_append (digits more : List Nat) :
    valueOf (digits ++ more) = valueOf digits * 10 ^ more.length + valueOf more := by
  induction more using List.reverseRecOn with
  | nil => simp [valueOf]
  | append_singleton more d ih =>
    rw [← List.append_assoc, valueOf_append_singleton, ih, valueOf_append_singleton, List.length_append,
      List.length_singleton, pow_succ]
    ring

theorem valueOf_replicate (count : Nat) : valueOf (List.replicate count 0) = 0 := by
  induction count with
  | zero => rfl
  | succ count ih => simpa [valueOf, List.replicate_succ] using ih

/-- Zeros in front do not count. -/
theorem valueOf_replicate_append (count : Nat) (digits : List Nat) :
    valueOf (List.replicate count 0 ++ digits) = valueOf digits := by
  rw [valueOf_append, valueOf_replicate, Nat.zero_mul, Nat.zero_add]

/-- Zeros behind multiply by ten. -/
theorem valueOf_append_replicate (digits : List Nat) (count : Nat) :
    valueOf (digits ++ List.replicate count 0) = valueOf digits * 10 ^ count := by
  rw [valueOf_append, valueOf_replicate, List.length_replicate, Nat.add_zero]

theorem valueOf_lt {digits : List Nat} (below : ∀ d ∈ digits, d < 10) :
    valueOf digits < 10 ^ digits.length := by
  induction digits using List.reverseRecOn with
  | nil => decide
  | append_singleton digits d ih =>
    have early := ih fun d inside => below d (List.mem_append_left _ inside)
    have last := below d (by simp)
    rw [valueOf_append_singleton, List.length_append, List.length_singleton, pow_succ]
    omega

theorem valueOf_digitsOf (n : Nat) : valueOf (digitsOf n) = n := by
  induction n using Nat.strong_induction_on with
  | _ n ih =>
    by_cases small : n < 10
    · simp [digitsOf_of_lt small, valueOf]
    · rw [digitsOf_of_le (by omega), valueOf_append_singleton, ih (n / 10) (by omega)]
      omega

theorem isDigit_of_mem_map {digits : List Nat} (below : ∀ d ∈ digits, d < 10) :
    ∀ c ∈ digits.map digitChar, c.isDigit = true := by
  intro c inside
  obtain ⟨d, isDigit, rfl⟩ := List.mem_map.mp inside
  exact isDigit_digitChar d (below d isDigit)

theorem map_value_digitChar {digits : List Nat} (below : ∀ d ∈ digits, d < 10) :
    (digits.map digitChar).map (fun c => c.toNat - 48) = digits := by
  rw [List.map_map]
  have each : digits.map ((fun c => c.toNat - 48) ∘ digitChar) = digits.map id :=
    List.map_congr_left fun d inside => value_digitChar d (below d inside)
  rw [each, List.map_id]

/-! ## Numerals -/

/-- A numeral in its usual form. -/
structure Numeral.Regular (n : Numeral) : Prop where
  whole : IsWhole n.whole
  fraction : ∀ d ∈ n.fraction, d < 10
  power : ∀ power, n.power = some power → power.digits ≠ [] ∧ ∀ d ∈ power.digits, d < 10

theorem Numeral.regular_ofNat (n : Nat) : (Numeral.ofNat n).Regular where
  whole := isWhole_digitsOf n
  fraction := nofun
  power := nofun

/-- Significant digits are put into a regular numeral, except that a zero would need the exponent of
itself. -/
theorem Layout.place_regular (layout : Layout) (negative : Bool) {first : Nat} {rest : List Nat}
    {exponent : Int} (below : ∀ d ∈ first :: rest, d < 10)
    (leading : first ≠ 0 ∨ rest = [] ∧ exponent = 0) :
    (layout.place negative (first :: rest) exponent).Regular := by
  have zeros (count : Nat) : ∀ d ∈ List.replicate count 0, d < 10 := fun d inside => by
    rw [List.eq_of_mem_replicate inside]
    decide
  unfold Layout.place
  split
  · constructor
    case whole =>
      dsimp only
      cases places : (exponent + 1).toNat with
      | zero => exact ⟨by simp, by simp, by simp⟩
      | succ width =>
        simp only [List.take_succ_cons, List.cons_append, List.isEmpty_cons, Bool.false_eq_true,
          if_false]
        refine ⟨by simp, fun d inside => ?_, fun head => ?_⟩
        · rcases List.mem_cons.mp inside with rfl | inside
          · exact below _ List.mem_cons_self
          · rcases List.mem_append.mp inside with inside | inside
            · exact below d (List.mem_cons_of_mem first (List.mem_of_mem_take inside))
            · exact zeros _ d inside
        · obtain rfl : first = 0 := Option.some.inj head
          obtain ⟨rfl, rfl⟩ := leading.resolve_left (by simp)
          obtain rfl : width = 0 := by simpa using places.symm
          rfl
    case fraction =>
      intro d inside
      dsimp only at inside
      split at inside
      · obtain rfl := List.mem_singleton.mp inside
        decide
      · rcases List.mem_append.mp inside with inside | inside
        · exact zeros _ d inside
        · exact below d (List.mem_of_mem_drop inside)
    case power => exact nofun
  · constructor
    case whole =>
      refine ⟨by simp, fun d inside => below d (List.mem_of_mem_take inside), fun head => ?_⟩
      simpa using head
    case fraction => exact fun d inside => below d (List.mem_of_mem_drop inside)
    case power =>
      rintro _ ⟨⟩
      exact ⟨(isWhole_digitsOf _).nonempty, digitsOf_below _⟩

/-! ## The decimal of a double -/

/-- Zero does not read back as another double. -/
theorem Binary.digits_ne_zero_of_readsBack {x : Binary} {d : Scaled} (nonzero : x.mantissa ≠ 0)
    (reads : x.readsBack d = true) : d.digits ≠ 0 := by
  intro zero
  have below : 0 < if x.narrowBelow then 4 * x.mantissa - 1 else 4 * x.mantissa - 2 := by
    split <;> omega
  have low : compareScaled d.digits d.exponent
      (if x.narrowBelow then 4 * x.mantissa - 1 else 4 * x.mantissa - 2) (x.exponent - 2) = .lt := by
    rw [compareScaled, zero, Nat.zero_mul, Nat.zero_mul, Nat.compare_eq_lt]
    exact Nat.mul_pos (Nat.mul_pos below (Nat.pow_pos (by decide))) (Nat.pow_pos (by decide))
  simp [Binary.readsBack, low] at reads

/-- The neighbour below on a grid. -/
def Binary.under (x : Binary) (k : Int) : Nat := (x.onGrid k).1 / (x.onGrid k).2

/-- What is found on a grid is one of the two neighbours, and reads back. -/
theorem Binary.nearestOnGrid?_eq_some {x : Binary} {tie : Tie} {k : Int} {d : Scaled}
    (found : x.nearestOnGrid? tie k = some d) :
    x.readsBack d = true ∧ (d = ⟨x.under k, k⟩ ∨ d = ⟨x.under k + 1, k⟩) := by
  unfold Binary.nearestOnGrid? at found
  dsimp only at found
  split at found
  · cases found
  · cases found
    exact ⟨‹_›, .inl rfl⟩
  · cases found
    exact ⟨‹_›, .inr rfl⟩
  · rename_i lower upper
    have either : d = ⟨x.under k, k⟩ ∨ d = ⟨x.under k + 1, k⟩ := by
      split at found
      · exact .inl (Option.some.inj found).symm
      · exact .inr (Option.some.inj found).symm
      · exact .inr (Option.some.inj found).symm
      · split at found
        · exact .inl (Option.some.inj found).symm
        · exact .inr (Option.some.inj found).symm
    rcases either with rfl | rfl
    · exact ⟨lower, .inl rfl⟩
    · exact ⟨upper, .inr rfl⟩

theorem Binary.nearestOnGrid?_eq_none {x : Binary} {tie : Tie} {k : Int}
    (none : x.nearestOnGrid? tie k = none) :
    x.readsBack ⟨x.under k, k⟩ = false ∧ x.readsBack ⟨x.under k + 1, k⟩ = false := by
  unfold Binary.nearestOnGrid? at none
  dsimp only at none
  split at none
  · exact ⟨‹_›, ‹_›⟩
  · cases none
  · cases none
  · split at none <;> cases none

theorem Binary.digits_nearestOnGrid? {x : Binary} {tie : Tie} {k : Int} {d : Scaled}
    (nonzero : x.mantissa ≠ 0) (found : x.nearestOnGrid? tie k = some d) : d.digits ≠ 0 :=
  digits_ne_zero_of_readsBack nonzero (nearestOnGrid?_eq_some found).1

theorem Binary.digits_shortest {x : Binary} (nonzero : x.mantissa ≠ 0) (tie : Tie) :
    (x.shortest tie).digits ≠ 0 := by
  have powers (base count : Nat) (positive : 0 < base) : x.mantissa * Nat.pow base count ≠ 0 :=
    Nat.mul_ne_zero nonzero (Nat.pow_pos positive).ne'
  unfold Binary.shortest
  dsimp only
  cases found : (List.range 17).findSome? fun n => x.nearestOnGrid? tie (x.magnitude - (n + 1 : Nat)) with
  | some d =>
    obtain ⟨n, -, found⟩ := List.exists_of_findSome?_eq_some found
    exact digits_nearestOnGrid? nonzero found
  | none =>
    rw [Option.getD_none, Binary.exact]
    split
    · exact powers 2 _ (by decide)
    · exact powers 5 _ (by decide)

/-- The significant digits of a decimal other than zero begin with one that is not zero. -/
theorem Scaled.leading_eq_cons {d : Scaled} (nonzero : d.digits ≠ 0) : ∃ first rest,
    d.leading.1 = first :: rest ∧ first ≠ 0 ∧ ∀ digit ∈ first :: rest, digit < 10 := by
  obtain ⟨first, rest, digits, leading⟩ := digitsOf_eq_cons nonzero
  let significant := (digitsOf d.digits).rdropWhile (· == 0)
  have isPrefix : significant <+: first :: rest := digits ▸ List.rdropWhile_prefix _ _
  have nonempty : significant ≠ [] := fun empty =>
    leading (by simpa using List.rdropWhile_eq_nil_iff.mp empty first (by simp [digits]))
  obtain ⟨head, tail, shape⟩ := List.exists_cons_of_ne_nil nonempty
  have isLeading : d.leading.1 = significant := by
    change (if significant.isEmpty then [0] else significant) = significant
    rw [shape, List.isEmpty_cons]
    rfl
  refine ⟨head, tail, isLeading.trans shape, ?_, fun digit inside => ?_⟩
  · rw [shape] at isPrefix
    exact (List.cons_prefix_cons.mp isPrefix).1 ▸ leading
  · refine digitsOf_below d.digits digit ?_
    rw [digits]
    exact isPrefix.subset (shape ▸ inside)

theorem Layout.numeral_regular (layout : Layout) (x : Float) : (layout.numeral x).Regular := by
  unfold Layout.numeral
  dsimp only
  split
  · exact layout.place_regular _ (by simp) (.inr ⟨rfl, rfl⟩)
  · rename_i nonzero
    obtain ⟨first, rest, digits, leading, below⟩ :=
      Scaled.leading_eq_cons (Binary.digits_shortest nonzero layout.tie)
    rw [digits]
    exact layout.place_regular _ below (.inl leading)

end Decimal

end DoubleEntry
