import DoubleEntry.Ident.Spelling
import DoubleEntry.Instant.Text
import DoubleEntry.Proofs.Calendar
import DoubleEntry.Proofs.Numerals

/-! # Identifiers and instants read back

The written form of an identifier is one of its four spellings, and that of an instant is read as what a
clock shows at it: a leap second at the end of a minute as second 60, one within a minute as the second after
it, a year beyond four digits by its sign, a fraction by as many threes of digits as it has.
-/

namespace DoubleEntry

/-! ## Identifiers -/

namespace Ident

open Text

/-- The grouped form is read by its digits. -/
theorem ofGrouped?_group {digits : List Char} (full : digits.length = 32) :
    ofGrouped? (group digits) = ofDigits? digits := by
  have marks : [8, 13, 18, 23].all (fun i => (group digits)[i]? == some '-') = true := by
    simp [group, List.getElem?_append, List.getElem?_cons, full]
  have cut (n : Nat) : (digits.drop n).take 4 ++ digits.drop (n + 4) = digits.drop n := by
    rw [← List.drop_drop, List.take_append_drop]
  have joined : (group digits).take 8 ++ ((group digits).drop 9).take 4 ++
      ((group digits).drop 14).take 4 ++ ((group digits).drop 19).take 4 ++ (group digits).drop 24 =
        digits := by
    simp [group, List.drop_append, full, List.drop_take, cut]
  rw [ofGrouped?]
  simp only [marks, if_true, joined]

/-- A text that begins with a digit is in no wrapping. -/
theorem unwrap?_eq_none {d : Nat} (small : d < 16) (rest : List Char) :
    unwrap? (hexChar d :: rest) = none := by
  have noBrace : ∀ d < 16, hexChar d ≠ '\x7b' := by decide
  have noScheme : ∀ d < 16, (hexChar d).toLower ≠ 'u' := by decide
  unfold unwrap?
  split
  · rename_i shape
    exact absurd (List.cons.inj shape).1 (noBrace d small)
  · rw [if_neg]
    intro scheme
    rw [List.take_succ_cons, List.map_cons] at scheme
    exact noScheme d small (List.cons.inj scheme).1

theorem ofDigits?_hexDigits (ident : Ident) : ofDigits? (hexDigits 32 ident.toNat) = some ident := by
  have small : ident.toNat % Nat.pow 16 32 = ident.toNat := Nat.mod_eq_of_lt ident.bits.isLt
  rw [ofDigits?, if_pos (hexDigits_length 32 _), readHex?_hexDigits, small, Option.map_some, ofNat, toNat,
    BitVec.ofNat_toNat, BitVec.setWidth_eq]

theorem ofChars?_chars (ident : Ident) : ofChars? ident.chars = some ident := by
  have full := hexDigits_length 32 ident.toNat
  have length : ident.chars.length ≠ 32 := by simp [chars, group, full]
  obtain ⟨first, rest, shape⟩ := List.exists_cons_of_length_eq_add_one full
  obtain ⟨d, small, rfl⟩ := mem_hexDigits 32 ident.toNat first (shape ▸ List.mem_cons_self)
  have starts : ∃ tail, ident.chars = hexChar d :: tail := ⟨_, by rw [chars, shape, group]; rfl⟩
  obtain ⟨tail, isChars⟩ := starts
  rw [ofChars?, isChars, unwrap?_eq_none small, ← isChars]
  simp only [ofDigits?, length, if_false, Option.none_or]
  rw [chars, ofGrouped?_group full, ofDigits?_hexDigits]

end Ident

/-! ## Instants -/

namespace Instant

open Decimal Text

variable {rest : List Char}

/-- The digits of a number, filled up with zeros. -/
theorem fixedDigits_eq (width n : Nat) : fixedDigits width n =
    (List.replicate (width - (digitsOf n).length) 0 ++ digitsOf n).map digitChar := by
  simp only [fixedDigits, List.map_append, List.map_replicate, List.length_map]
  rfl

theorem fixedDigits_below (width n : Nat) :
    ∀ d ∈ List.replicate (width - (digitsOf n).length) 0 ++ digitsOf n, d < 10 := by
  intro d inside
  rcases List.mem_append.mp inside with zero | inside
  · rw [List.eq_of_mem_replicate zero]
    decide
  · exact digitsOf_below n d inside

theorem isDigit_of_mem_fixedDigits {width n : Nat} : ∀ c ∈ fixedDigits width n, c.isDigit = true := by
  rw [fixedDigits_eq]
  exact isDigit_of_mem_map (fixedDigits_below width n)

theorem digitsValue_fixedDigits (width n : Nat) : digitsValue (fixedDigits width n) = n := by
  rw [digitsValue, fixedDigits_eq, map_value_digitChar (fixedDigits_below width n),
    valueOf_replicate_append, valueOf_digitsOf]

theorem length_fixedDigits {width n : Nat} (positive : 0 < width) (fits : n < 10 ^ width) :
    (fixedDigits width n).length = width := by
  have short := (length_digitsOf_le_iff positive).mpr fits
  rw [fixedDigits_eq, List.length_map, List.length_append, List.length_replicate]
  omega

/-- Digits at a fixed width begin with a digit, however many they are. -/
theorem fixedDigits_eq_cons (width n : Nat) :
    ∃ c tail, fixedDigits width n = c :: tail ∧ c.isDigit = true := by
  obtain ⟨c, tail, shape⟩ : ∃ c tail, fixedDigits width n = c :: tail := by
    refine List.exists_cons_of_ne_nil ?_
    rw [fixedDigits_eq]
    simp [(isWhole_digitsOf n).nonempty]
  exact ⟨c, tail, shape, isDigit_of_mem_fixedDigits c (shape ▸ List.mem_cons_self)⟩

theorem isEmpty_fixedDigits (width n : Nat) : (fixedDigits width n).isEmpty = false := by
  obtain ⟨c, tail, shape, -⟩ := fixedDigits_eq_cons width n
  rw [shape, List.isEmpty_cons]

theorem trimStart_cons {c : Char} (visible : isBlank c = false) : trimStart (c :: rest) = c :: rest := by
  rw [trimStart, List.dropWhile_cons_of_neg (by simp [visible])]

theorem isBlank_of_isDigit {c : Char} (digit : c.isDigit = true) : isBlank c = false := by
  simp only [Char.isDigit, Bool.and_eq_true, decide_eq_true_eq] at digit
  have low : 48 ≤ c.toNat := digit.1
  have high : c.toNat ≤ 57 := digit.2
  rw [Bool.eq_false_iff]
  intro blank
  obtain ⟨range, inside, first, last⟩ := inRanges_iff.mp blank
  have apart : ∀ range ∈ blankRanges, range.last < 48 ∨ 57 < range.first := by decide
  rcases apart range inside with before | after <;> omega

theorem trimStart_fixedDigits (width n : Nat) :
    trimStart (fixedDigits width n ++ rest) = fixedDigits width n ++ rest := by
  obtain ⟨c, tail, shape, digit⟩ := fixedDigits_eq_cons width n
  rw [shape, List.cons_append, trimStart_cons (isBlank_of_isDigit digit)]

theorem takeMark?_cons {mark : Char} (visible : isBlank mark = false) :
    takeMark? mark (mark :: rest) = some rest := by
  rw [takeMark?, trimStart_cons visible]
  exact if_pos rfl

theorem takeNumber?_fixedDigits {width n : Nat} (positive : 0 < width) (fits : n < 10 ^ width) :
    takeNumber? width (fixedDigits width n ++ rest) = some (n, rest) := by
  have length := length_fixedDigits positive fits
  have front : (fixedDigits width n ++ rest).take width = fixedDigits width n := List.take_left' length
  have digits : (fixedDigits width n).takeWhile Char.isDigit = fixedDigits width n :=
    List.takeWhile_eq_self_iff.mpr isDigit_of_mem_fixedDigits
  rw [takeNumber?, trimStart_fixedDigits]
  simp only [front, digits, isEmpty_fixedDigits, Bool.false_eq_true, if_false, digitsValue_fixedDigits]
  rw [List.drop_left' rfl]

/-- A year is read up to the mark behind it. -/
theorem takeYear?_yearChars {year : Int} (leaves : Leaves Char.isDigit rest) :
    takeYear? (yearChars year ++ rest) = some (year, rest) := by
  have digits : (fixedDigits 4 year.natAbs ++ rest).takeWhile Char.isDigit = fixedDigits 4 year.natAbs :=
    takeWhile_append isDigit_of_mem_fixedDigits leaves
  obtain ⟨c, tail, shape, digit⟩ := fixedDigits_eq_cons 4 year.natAbs
  unfold yearChars
  split
  case isTrue usual =>
    have read : takeNumber? 4 (fixedDigits 4 year.natAbs ++ rest) = some (year.natAbs, rest) :=
      takeNumber?_fixedDigits (by decide) (by omega)
    rw [takeYear?, trimStart_fixedDigits]
    split
    · rename_i isMinus
      rw [shape] at isMinus
      obtain rfl := (List.cons.inj isMinus).1
      exact absurd digit (by decide)
    · rename_i isPlus
      rw [shape] at isPlus
      obtain rfl := (List.cons.inj isPlus).1
      exact absurd digit (by decide)
    · simp only [read, Option.map_some, Int.natAbs_of_nonneg usual.1]
  case isFalse =>
    split
    case isTrue before =>
      rw [List.cons_append, takeYear?, trimStart_cons (by decide)]
      simp only [digits, isEmpty_fixedDigits, Bool.false_eq_true, if_false, digitsValue_fixedDigits,
        List.drop_left, Option.map_some]
      rw [Int.ofNat_natAbs_of_nonpos (Int.le_of_lt before), Int.neg_neg]
    case isFalse after =>
      rw [List.cons_append, takeYear?, trimStart_cons (by decide)]
      simp only [digits, isEmpty_fixedDigits, Bool.false_eq_true, if_false, digitsValue_fixedDigits,
        List.drop_left, Option.map_some]
      rw [Int.natAbs_of_nonneg (Int.not_lt.mp after)]

/-- A fraction of up to nine digits is read in nanoseconds. -/
theorem takeFraction?_fixedDigits {width n : Nat} (positive : 0 < width) (short : width ≤ 9)
    (fits : n < 10 ^ width) (leaves : Leaves Char.isDigit rest) :
    takeFraction? ('.' :: fixedDigits width n ++ rest) = some (n * 10 ^ (9 - width), rest) := by
  have length := length_fixedDigits positive fits
  have digits : (fixedDigits width n ++ rest).takeWhile Char.isDigit = fixedDigits width n :=
    takeWhile_append isDigit_of_mem_fixedDigits leaves
  have kept : (fixedDigits width n).take 9 = fixedDigits width n :=
    List.take_of_length_le (length.trans_le short)
  rw [List.cons_append, takeFraction?]
  simp only [digits, kept, isEmpty_fixedDigits, Bool.false_eq_true, if_false, digitsValue_fixedDigits, length,
    Nat.pow_eq]
  rw [List.drop_left' length]

theorem takeFraction?_fractionChars {nanos : Nat} (part : nanos < 1000000000) :
    takeFraction? (fractionChars nanos ++ ['Z']) = some (nanos, ['Z']) := by
  have leaves : Leaves Char.isDigit ['Z'] := leaves_cons (by decide)
  unfold fractionChars
  split
  case isTrue zero =>
    rw [zero]
    rfl
  case isFalse =>
    split
    case isTrue millis =>
      rw [takeFraction?_fixedDigits (by decide) (by decide) (by omega) leaves]
      simp
      omega
    case isFalse =>
      split
      case isTrue micros =>
        rw [takeFraction?_fixedDigits (by decide) (by decide) (by omega) leaves]
        simp
        omega
      case isFalse =>
        rw [takeFraction?_fixedDigits (by decide) (by decide) (by omega) leaves]
        simp

/-! ### Leap seconds within a minute -/

/-- A clock tells the instant from all others, for a leap second has a number of its own only at the end of
a minute. -/
def IsOnClock (instant : Instant) : Prop := instant.nanos < 1000000000 ∨ instant.seconds % 60 = 59

instance (instant : Instant) : Decidable instant.IsOnClock := inferInstanceAs (Decidable (_ ∨ _))

/-- What a clock shows at an instant: in a leap second within a minute, the second after it. -/
def shown (instant : Instant) : Instant :=
  if within : 1000000000 ≤ instant.nanos ∧ instant.seconds % 60 ≠ 59 then
    { seconds := instant.seconds + 1
      nanos := instant.nanos - 1000000000
      first_le := instant.first_le.trans (by omega)
      le_last := by have := instant.le_last; omega
      subsecond := (Nat.sub_le _ _).trans_lt instant.subsecond }
  else instant

theorem shown_of_isOnClock {instant : Instant} (onClock : instant.IsOnClock) : instant.shown = instant := by
  apply dif_neg
  rintro ⟨inLeap, within⟩
  rcases onClock with usual | last
  · omega
  · exact within last

/-- An instant is what a clock shows at it if a clock can tell it. -/
theorem shown_eq_iff {instant : Instant} : instant.shown = instant ↔ instant.IsOnClock := by
  refine ⟨fun same => ?_, shown_of_isOnClock⟩
  by_contra within
  have inLeap : 1000000000 ≤ instant.nanos ∧ instant.seconds % 60 ≠ 59 := by
    rw [IsOnClock] at within
    omega
  rw [shown, dif_pos inLeap] at same
  have later : instant.seconds + 1 = instant.seconds := congrArg Instant.seconds same
  omega

/-- The leap second that a clock shows as second 60. -/
def shownLeap (instant : Instant) : Nat :=
  if instant.seconds % 60 + (instant.nanos / 1000000000 : Nat) = 60 then 1 else 0

/-- A written second is 60 in such a leap second only. -/
theorem shownLeap_eq (instant : Instant) : instant.shownLeap =
    if (instant.seconds % 86400).toNat % 60 + instant.nanos / 1000000000 = 60 then 1 else 0 := by
  rw [shownLeap]
  apply if_congr _ rfl rfl
  omega

theorem shownLeap_le (instant : Instant) :
    instant.shownLeap ≤ (instant.seconds % 86400).toNat % 60 + instant.nanos / 1000000000 := by
  rw [shownLeap_eq]
  split <;> omega

theorem shown_parts (instant : Instant) :
    instant.shown.seconds = instant.seconds + (instant.nanos / 1000000000 : Nat) - instant.shownLeap ∧
      instant.shown.nanos = instant.shownLeap * 1000000000 + instant.nanos % 1000000000 := by
  have subsecond := instant.subsecond
  rw [shown, shownLeap]
  split
  case isTrue within =>
    rw [if_neg (by omega)]
    dsimp only
    omega
  case isFalse => split <;> omega

theorem of?_parts (instant : Instant) : of? instant.seconds instant.nanos = some instant :=
  dif_pos ⟨instant.first_le, instant.le_last, instant.subsecond⟩

/-- The written form is read as what a clock shows. -/
theorem ofChars?_chars (instant : Instant) : ofChars? instant.chars = some instant.shown := by
  have first_le := instant.first_le
  have le_last := instant.le_last
  have valid : (Calendar.Date.ofDayNumber (instant.seconds / 86400)).IsValid :=
    Calendar.Date.isValid_ofDayNumber (by omega) (by omega)
  have number := Calendar.Date.dayNumber_ofDayNumber (instant.seconds / 86400)
  have isLeap := instant.shownLeap_eq
  have inWritten := instant.shownLeap_le
  generalize isDate : Calendar.Date.ofDayNumber (instant.seconds / 86400) = date at valid number
  generalize isSecond : (instant.seconds % 86400).toNat = second at isLeap inWritten
  obtain ⟨year, month, day⟩ := date
  have inYear : month < 10 ^ 2 := lt_of_le_of_lt valid.2.2.2.1 (by decide)
  have inMonth : day < 10 ^ 2 :=
    lt_of_le_of_lt (valid.2.2.2.2.2.trans (Calendar.daysInMonth_le year month)) (by decide)
  have inDay : second / 3600 < 10 ^ 2 := by omega
  have inHour : second / 60 % 60 < 10 ^ 2 := by omega
  have subsecond := instant.subsecond
  have inMinute : second % 60 + instant.nanos / 1000000000 < 10 ^ 2 := by omega
  have part : instant.nanos % 1000000000 < 1000000000 := by omega
  simp only [chars, isDate, isSecond, List.append_assoc, List.cons_append]
  refine Option.bind_eq_some_iff.mpr ⟨_, takeYear?_yearChars (leaves_cons (by decide)), ?_⟩
  refine Option.bind_eq_some_iff.mpr ⟨_, takeMark?_cons (by decide), ?_⟩
  refine Option.bind_eq_some_iff.mpr ⟨_, takeNumber?_fixedDigits (by decide) inYear, ?_⟩
  refine Option.bind_eq_some_iff.mpr ⟨_, takeMark?_cons (by decide), ?_⟩
  refine Option.bind_eq_some_iff.mpr ⟨_, takeNumber?_fixedDigits (by decide) inMonth, ?_⟩
  refine Option.bind_eq_some_iff.mpr ⟨_, takeNumber?_fixedDigits (by decide) inDay, ?_⟩
  refine Option.bind_eq_some_iff.mpr ⟨_, takeMark?_cons (by decide), ?_⟩
  refine Option.bind_eq_some_iff.mpr ⟨_, takeNumber?_fixedDigits (by decide) inHour, ?_⟩
  refine Option.bind_eq_some_iff.mpr ⟨_, takeMark?_cons (by decide), ?_⟩
  refine Option.bind_eq_some_iff.mpr ⟨_, takeNumber?_fixedDigits (by decide) inMinute, ?_⟩
  refine Option.bind_eq_some_iff.mpr ⟨_, takeFraction?_fractionChars part, ?_⟩
  refine Option.bind_eq_some_iff.mpr ⟨(0, []), rfl, ?_⟩
  obtain ⟨isSeconds, isNanos⟩ := instant.shown_parts
  have whole : (⟨year, month, day⟩ : Calendar.Date).dayNumber * 86400 + (second / 3600 * 3600 +
      second / 60 % 60 * 60 + (second % 60 + instant.nanos / 1000000000 - instant.shownLeap) : Nat) - 0 =
        instant.shown.seconds := by omega
  dsimp only
  rw [← isLeap, if_pos ⟨rfl, valid, by omega, by omega, by omega⟩, whole, ← isNanos]
  exact of?_parts _

end Instant

end DoubleEntry
