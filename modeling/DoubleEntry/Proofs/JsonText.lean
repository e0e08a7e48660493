import DoubleEntry.Json.Printer
import DoubleEntry.Json.Reader
import DoubleEntry.Proofs.Numerals

/-! # JSON text reads back

A value whose numerals are regular and whose strings spell texts is read back from its own text, by
itself (`Definite.read?_text`) and with any more JSON behind it (`Definite.readsBack`). In no text is there
a control character, whatever the strings of the value contain, so none breaks a line
(`Definite.printable`).
-/

namespace DoubleEntry.Json

open Decimal Text

variable {rest : List Char}

/-- What may stand behind a value inside another: nothing, a comma or a closing bracket. -/
def Ends (rest : List Char) : Prop := ∀ c ∈ rest.head?, c = ',' ∨ c = ']' ∨ c = '\x7d'

theorem ends_nil : Ends [] := nofun

theorem ends_cons {c : Char} (closes : c = ',' ∨ c = ']' ∨ c = '\x7d') : Ends (c :: rest) := by
  rintro _ ⟨⟩
  exact closes

theorem skipBlanks_cons {c : Char} (visible : ¬ (c = ' ' ∨ c = '\n' ∨ c = '\t' ∨ c = '\r')) :
    skipBlanks (c :: rest) = c :: rest := by
  rw [skipBlanks, List.dropWhile_cons_of_neg (by simpa using visible)]

/-! ## Strings -/

/-- The part of a string token that stands for a character. -/
def pieceOf (c : Char) : Piece :=
  if c.toNat < 32 ∧ c ∉ ['\x08', '\t', '\n', '\x0c', '\r'] then .unit c.toNat else .char c

/-- Each character is written as one part, whatever comes next. -/
theorem pieces?_escapedChar (taken : List Piece) (c : Char) (rest : List Char) :
    pieces? taken (escapedChar c ++ rest) = pieces? (pieceOf c :: taken) rest := by
  unfold escapedChar
  split
  case isTrue quoted =>
    rcases quoted with rfl | rfl <;> rfl
  case isFalse unquoted =>
    rw [not_or] at unquoted
    by_cases short : c ∈ ['\x08', '\t', '\n', '\x0c', '\r']
    · simp only [List.mem_cons, List.not_mem_nil, or_false] at short
      rcases short with rfl | rfl | rfl | rfl | rfl <;> rfl
    · simp only [List.mem_cons, List.not_mem_nil, or_false, not_or] at short
      obtain ⟨backspace, tab, newline, feed, carriage⟩ := short
      simp only [backspace, tab, newline, feed, carriage, if_false]
      split
      case isTrue control =>
        have read := readHex?_hexDigits 4 c.toNat
        have small : c.toNat % Nat.pow 16 4 = c.toNat := Nat.mod_eq_of_lt (control.trans (by decide))
        rw [small] at read
        simp only [hexDigits, List.nil_append, List.cons_append] at read ⊢
        simp [pieces?, read, pieceOf, control, backspace, tab, newline, feed, carriage]
      case isFalse printable =>
        have plain : pieceOf c = .char c := if_neg fun control => printable control.1
        have noEscape : ¬ (c.toNat < 32 ∨ c = '\\') := not_or.mpr ⟨printable, unquoted.2⟩
        rw [List.singleton_append, pieces?, if_neg noEscape, plain]
        · exact unquoted.1
        · rintro _ _ _ _ _ rfl
          exact absurd rfl unquoted.2
        · rintro _ _ rfl
          exact absurd rfl unquoted.2

theorem pieces?_escaped (taken : List Piece) (text rest : List Char) :
    pieces? taken (text.flatMap escapedChar ++ '"' :: rest) =
      some (taken.reverse ++ text.map pieceOf, rest) := by
  induction text generalizing taken with
  | nil => simp [pieces?]
  | cons c text ih =>
    rw [List.flatMap_cons, List.append_assoc, pieces?_escapedChar, ih]
    simp

/-- A unit outside the surrogates spells a character by itself. -/
theorem spell?_unit {value : Nat} (small : value < 0xD800) (taken : List Char) (pieces : List Piece) :
    spell? taken (.unit value :: pieces) = spell? (Char.ofNat value :: taken) pieces := by
  have isChar : ¬ (0xD800 ≤ value ∧ value < 0xE000) := by omega
  rcases pieces with _ | ⟨_ | low, pieces⟩
  · simp only [spell?, isChar, if_false]
  · simp only [spell?, isChar, if_false]
  · rw [spell?, if_neg (by omega), if_neg (by omega)]

theorem spell?_map_pieceOf (taken text : List Char) :
    spell? taken (text.map pieceOf) = some (taken.reverse ++ text) := by
  induction text generalizing taken with
  | nil => simp [spell?]
  | cons c text ih =>
    have step : spell? taken (pieceOf c :: text.map pieceOf) = spell? (c :: taken) (text.map pieceOf) := by
      unfold pieceOf
      split
      case isTrue control => rw [spell?_unit (by omega), Char.ofNat_toNat]
      case isFalse _ => rw [spell?]
    rw [List.map_cons, step, ih]
    simp

theorem takeString?_escaped (text : String) (rest : List Char) :
    takeString? (text.toList.flatMap escapedChar ++ '"' :: rest) = some (some text, rest) := by
  rw [takeString?, pieces?_escaped]
  simp [spell?_map_pieceOf]

/-! ## Numerals -/

theorem takeDigits_append {digits : List Nat} (below : ∀ d ∈ digits, d < 10)
    (leaves : Leaves Char.isDigit rest) :
    takeDigits (digits.map digitChar ++ rest) = (digits, rest) := by
  have inside := isDigit_of_mem_map below
  rw [takeDigits, takeWhile_append inside leaves, dropWhile_append inside leaves,
    map_value_digitChar below]

theorem takeFraction?_append {fraction : List Nat} (below : ∀ d ∈ fraction, d < 10)
    (leaves : Leaves (fun c => c.isDigit || c == '.') rest) :
    takeFraction? ((if fraction.isEmpty then [] else '.' :: fraction.map digitChar) ++ rest) =
      some (fraction, rest) := by
  have noDigit : Leaves Char.isDigit rest := fun c head => (Bool.or_eq_false_iff.mp (leaves c head)).1
  cases fraction with
  | nil =>
    rw [List.isEmpty_nil, if_pos rfl, List.nil_append, takeFraction?]
    rintro _ rfl
    exact absurd (leaves '.' rfl) (by decide)
  | cons d fraction =>
    rw [List.isEmpty_cons, if_neg (by decide), List.cons_append, takeFraction?,
      takeDigits_append below noDigit]
    rfl

/-- The written power of a numeral. -/
def powerChars (power? : Option Power) : List Char :=
  match power? with
  | none => []
  | some power => 'e' :: (if power.negative then '-' else '+') :: power.digits.map digitChar

theorem takePower?_append {power? : Option Power}
    (regular : ∀ power, power? = some power → power.digits ≠ [] ∧ ∀ d ∈ power.digits, d < 10)
    (ends : Ends rest) : takePower? (powerChars power? ++ rest) = some (power?, rest) := by
  have noDigit : Leaves Char.isDigit rest := fun c head => by
    rcases ends c head with rfl | rfl | rfl <;> decide
  cases power? with
  | none =>
    rw [powerChars, List.nil_append]
    cases rest with
    | nil => rfl
    | cons c rest => rcases ends c rfl with rfl | rfl | rfl <;> rfl
  | some power =>
    obtain ⟨nonempty, below⟩ := regular power rfl
    have digits := takeDigits_append below noDigit
    obtain ⟨negative, _⟩ := power
    cases negative <;> simp_all [powerChars, takePower?]

/-- A numeral is read back, up to what may stand behind it. -/
theorem takeNumeral?_chars {n : Numeral} (regular : n.Regular) (ends : Ends rest) :
    takeNumeral? (n.chars ++ rest) = some (n, rest) := by
  obtain ⟨negative, whole, fraction, power⟩ := n
  obtain ⟨⟨nonempty, below, leading⟩, inFraction, inPower⟩ := regular
  dsimp only at nonempty below leading inFraction inPower
  have afterFraction : Leaves (fun c => c.isDigit || c == '.') (powerChars power ++ rest) := by
    cases power with
    | none => exact fun c head => by rcases ends c head with rfl | rfl | rfl <;> decide
    | some power => exact leaves_cons (by decide)
  have afterWhole : Leaves Char.isDigit
      ((if fraction.isEmpty then [] else '.' :: fraction.map digitChar) ++ (powerChars power ++ rest)) := by
    split
    · exact fun c head => (Bool.or_eq_false_iff.mp (afterFraction c head)).1
    · exact leaves_cons (by decide)
  have unsigned : takeUnsigned? negative (whole.map digitChar ++
      ((if fraction.isEmpty then [] else '.' :: fraction.map digitChar) ++ (powerChars power ++ rest))) =
      some (⟨negative, whole, fraction, power⟩, rest) := by
    have noZero : ¬ (whole.isEmpty ∨ (whole.head? = some 0 ∧ 1 < whole.length)) := by
      rintro (empty | ⟨zero, long⟩)
      · exact nonempty (List.isEmpty_iff.mp empty)
      · rw [leading zero] at long
        exact absurd long (by decide)
    simp only [takeUnsigned?, takeDigits_append below afterWhole, noZero, if_false,
      takeFraction?_append inFraction afterFraction, Option.bind_eq_bind, Option.bind_some,
      takePower?_append inPower ends]
  have body : (Numeral.mk negative whole fraction power).chars ++ rest =
      (if negative then ['-'] else []) ++ (whole.map digitChar ++
        ((if fraction.isEmpty then [] else '.' :: fraction.map digitChar) ++ (powerChars power ++ rest))) := by
    simp only [Numeral.chars, List.append_assoc]
    rfl
  rw [body]
  cases negative with
  | true => exact unsigned
  | false =>
    obtain ⟨d, digits, rfl⟩ := List.exists_cons_of_ne_nil nonempty
    have notSign : digitChar d ≠ '-' := fun same => by
      have digit := isDigit_digitChar d (below d List.mem_cons_self)
      rw [same] at digit
      exact absurd digit (by decide)
    simp only [Bool.false_eq_true, if_false, List.nil_append, List.map_cons, List.cons_append]
      at unsigned ⊢
    rw [takeNumeral?.eq_def]
    split
    · rename_i shape
      exact absurd (List.cons.inj shape).1 notSign
    · exact unsigned

/-! ## Values -/

/-- Values whose text says all of them: numerals are regular, and strings and names spell texts. -/
inductive Definite : Json → Prop
  | null : Definite .null
  | bool (value : Bool) : Definite (.bool value)
  | number (numeral : Numeral) (regular : numeral.Regular) : Definite (.number numeral)
  | string (text : String) : Definite (.string (some text))
  | array (elements : List Json) (each : ∀ element ∈ elements, Definite element) :
      Definite (.array elements)
  | object (members : List (Option String × Json)) (named : ∀ entry ∈ members, entry.1.isSome)
      (each : ∀ entry ∈ members, Definite entry.2) : Definite (.object members)

/-- A value is read back with more JSON behind it, if there are as many steps as it has characters. -/
def ReadsBack (json : Json) : Prop :=
  ∀ steps rest, json.chars.length ≤ steps → Ends rest →
    takeValue? steps (json.chars ++ rest) = some (json, rest)

/-- The characters that values begin with. -/
def opening : List Char := ['n', 't', 'f', '"', '[', '\x7b', '-']

theorem chars_eq_cons_of_regular {n : Numeral} (regular : n.Regular) :
    ∃ c tail, n.chars = c :: tail ∧ (c.isDigit = true ∨ c = '-') := by
  obtain ⟨⟨_ | _, whole, fraction, power⟩, ⟨nonempty, below, -⟩, -⟩ := n, regular
  · obtain ⟨d, digits, rfl⟩ := List.exists_cons_of_ne_nil nonempty
    exact ⟨digitChar d, _, rfl, .inl (isDigit_digitChar d (below d List.mem_cons_self))⟩
  · exact ⟨'-', _, rfl, .inr rfl⟩

theorem Definite.chars_eq_cons {json : Json} (definite : Definite json) :
    ∃ c tail, json.chars = c :: tail ∧ (c.isDigit = true ∨ c ∈ opening) := by
  cases definite with
  | null => exact ⟨'n', _, rfl, .inr (by decide)⟩
  | bool value => cases value <;> exact ⟨_, _, rfl, .inr (by decide)⟩
  | string text => exact ⟨'"', _, rfl, .inr (by decide)⟩
  | array elements _ => cases elements <;> exact ⟨'[', _, rfl, .inr (by decide)⟩
  | object members _ _ => cases members <;> exact ⟨'\x7b', _, rfl, .inr (by decide)⟩
  | number n regular =>
    obtain ⟨c, tail, shape, starts⟩ := chars_eq_cons_of_regular regular
    refine ⟨c, tail, shape, starts.imp_right ?_⟩
    rintro rfl
    decide

theorem not_blank_of_opens {c : Char} (opens : c.isDigit = true ∨ c ∈ opening) :
    ¬ (c = ' ' ∨ c = '\n' ∨ c = '\t' ∨ c = '\r') := by
  rintro (rfl | rfl | rfl | rfl) <;> exact absurd opens (by decide)

theorem takeValue?_numeral {c : Char} (starts : c.isDigit = true ∨ c = '-') (steps : Nat)
    (tail : List Char) : takeValue? (steps + 1) (c :: tail) =
      (takeNumeral? (c :: tail)).map fun (numeral, rest) => (.number numeral, rest) := by
  have opens : c.isDigit = true ∨ c ∈ opening := by
    refine starts.imp_right ?_
    rintro rfl
    decide
  rw [takeValue?, skipBlanks_cons (not_blank_of_opens opens)]
  split
  case h_7 => rfl
  all_goals
    rename_i shape
    obtain rfl := (List.cons.inj shape).1
    exact absurd starts (by decide)

theorem takeValue?_bracket {c : Char} (opens : c.isDigit = true ∨ c ∈ opening) (steps : Nat)
    (tail : List Char) : takeValue? (steps + 1) ('[' :: c :: tail) =
      (takeElements? steps (c :: tail)).map fun (elements, rest) => (.array elements, rest) := by
  have notClosed : c ≠ ']' := by
    rintro rfl
    exact absurd opens (by decide)
  simp only [takeValue?, skipBlanks_cons (not_blank_of_opens (.inr (by decide : '[' ∈ opening))),
    skipBlanks_cons (not_blank_of_opens opens)]
  split
  · rename_i closes
    exact absurd (List.cons.inj closes).1 notClosed
  · rfl

theorem takeValue?_brace (steps : Nat) (tail : List Char) : takeValue? (steps + 1) ('\x7b' :: '"' :: tail) =
    (takeMembers? steps ('"' :: tail)).map fun (members, rest) => (.object members, rest) := by
  simp [takeValue?, skipBlanks_cons]

/-- Elements are read back one after another, up to the closing bracket. -/
theorem takeElements?_chars {first : Json} {others : List Json} {steps : Nat}
    (each : ∀ element ∈ first :: others, ReadsBack element)
    (enough : first.chars.length + (elementsChars others).length + 1 ≤ steps) :
    takeElements? steps (first.chars ++ (elementsChars others ++ ']' :: rest)) =
      some (first :: others, rest) := by
  induction others generalizing first steps with
  | nil =>
    obtain ⟨steps, rfl⟩ := Nat.exists_eq_add_one.mpr (Nat.zero_lt_of_lt enough)
    rw [elementsChars, List.length_nil] at enough
    have read := each first List.mem_cons_self steps (']' :: rest) (by omega) (ends_cons (by decide))
    rw [elementsChars, List.nil_append, takeElements?, read]
    simp [skipBlanks_cons]
  | cons second others ih =>
    obtain ⟨steps, rfl⟩ := Nat.exists_eq_add_one.mpr (Nat.zero_lt_of_lt enough)
    simp only [elementsChars, List.length_append, List.length_cons] at enough
    have read := each first List.mem_cons_self steps
      (',' :: (second.chars ++ (elementsChars others ++ ']' :: rest))) (by omega) (ends_cons (by decide))
    have go : takeElements? steps (second.chars ++ (elementsChars others ++ ']' :: rest)) =
        some (second :: others, rest) :=
      ih (fun element inside => each element (List.mem_cons_of_mem first inside)) (by omega)
    have shape : elementsChars (second :: others) ++ ']' :: rest =
        ',' :: (second.chars ++ (elementsChars others ++ ']' :: rest)) := by
      simp [elementsChars]
    rw [shape, takeElements?, read]
    simp [skipBlanks_cons, go]

/-- Members are read back one after another, up to the closing brace. -/
theorem takeMembers?_chars {name : String} {value : Json} {others : List (Option String × Json)}
    {steps : Nat} (reads : ReadsBack value)
    (each : ∀ entry ∈ others, entry.1.isSome ∧ ReadsBack entry.2)
    (enough : value.chars.length + (membersChars others).length + 1 ≤ steps) :
    takeMembers? steps (stringChars name ++ ':' :: (value.chars ++ (membersChars others ++
      '\x7d' :: rest))) = some ((some name, value) :: others, rest) := by
  have token (tail : List Char) : stringChars name ++ tail =
      '"' :: (name.toList.flatMap escapedChar ++ '"' :: tail) := by
    simp [stringChars]
  induction others generalizing name value steps with
  | nil =>
    obtain ⟨steps, rfl⟩ := Nat.exists_eq_add_one.mpr (Nat.zero_lt_of_lt enough)
    rw [membersChars, List.length_nil] at enough
    have read := reads steps ('\x7d' :: rest) (by omega) (ends_cons (by decide))
    rw [membersChars, List.nil_append, token, takeMembers?]
    simp [skipBlanks_cons, takeString?_escaped, read]
  | cons second others ih =>
    obtain ⟨steps, rfl⟩ := Nat.exists_eq_add_one.mpr (Nat.zero_lt_of_lt enough)
    obtain ⟨named, again⟩ := each second List.mem_cons_self
    obtain ⟨_ | next, worth⟩ := second
    · cases named
    simp only [membersChars, List.length_append, List.length_cons] at enough
    have go : takeMembers? steps (stringChars next ++ ':' :: (worth.chars ++ (membersChars others ++
        '\x7d' :: rest))) = some ((some next, worth) :: others, rest) :=
      ih again (fun entry inside => each entry (List.mem_cons_of_mem _ inside)) (by omega) (fun tail => by
        simp [stringChars])
    have read := reads steps (',' :: (stringChars next ++ ':' :: (worth.chars ++ (membersChars others ++
      '\x7d' :: rest)))) (by omega) (ends_cons (by decide))
    have shape : membersChars ((some next, worth) :: others) ++ '\x7d' :: rest =
        ',' :: (stringChars next ++ ':' :: (worth.chars ++ (membersChars others ++ '\x7d' :: rest))) := by
      simp [membersChars]
    rw [shape, token, takeMembers?]
    simp [skipBlanks_cons, takeString?_escaped, read, go]

/-- The text of a value has a character, so the first step is there. -/
theorem Definite.readsBack_of_succ {json : Json} (definite : Definite json)
    (reads : ∀ steps rest, json.chars.length ≤ steps + 1 → Ends rest →
      takeValue? (steps + 1) (json.chars ++ rest) = some (json, rest)) : ReadsBack json := by
  intro steps rest enough ends
  obtain ⟨c, tail, shape, -⟩ := definite.chars_eq_cons
  obtain ⟨steps, rfl⟩ := Nat.exists_eq_add_one.mpr
    (Nat.lt_of_lt_of_le (by rw [shape]; exact Nat.succ_pos _) enough)
  exact reads steps rest enough ends

/-- An object shows its own end, so anything may stand behind it. -/
theorem takeValue?_object {members : List (Option String × Json)} {steps : Nat}
    (named : ∀ entry ∈ members, entry.1.isSome) (each : ∀ entry ∈ members, ReadsBack entry.2)
    (enough : (object members).chars.length ≤ steps) :
    takeValue? steps ((object members).chars ++ rest) = some (.object members, rest) := by
  rcases members with _ | ⟨⟨_ | name, value⟩, others⟩
  · obtain ⟨steps, rfl⟩ := Nat.exists_eq_add_one.mpr (Nat.lt_of_lt_of_le (by decide) enough)
    simp [chars, takeValue?, skipBlanks_cons]
  · cases named _ List.mem_cons_self
  · simp only [chars, Option.getD_some, List.length_cons, List.length_append, List.length_nil] at enough
    obtain ⟨steps, rfl⟩ := Nat.exists_eq_add_one.mpr (Nat.lt_of_lt_of_le (Nat.succ_pos _) enough)
    have read : takeMembers? steps (stringChars name ++ ':' :: (value.chars ++ (membersChars others ++
        '\x7d' :: rest))) = some ((some name, value) :: others, rest) :=
      takeMembers?_chars (each _ List.mem_cons_self) (fun entry inside =>
        ⟨named entry (List.mem_cons_of_mem _ inside), each entry (List.mem_cons_of_mem _ inside)⟩) (by omega)
    simp only [chars, Option.getD_some, stringChars, List.cons_append, List.append_assoc,
      List.nil_append] at read ⊢
    rw [takeValue?_brace, read, Option.map_some]

theorem Definite.readsBack {json : Json} (definite : Definite json) : ReadsBack json := by
  induction definite with
  | null =>
    exact readsBack_of_succ .null fun steps rest _ _ => by simp [chars, takeValue?, skipBlanks_cons]
  | bool value =>
    refine readsBack_of_succ (.bool value) fun steps rest _ _ => ?_
    cases value <;> simp [chars, takeValue?, skipBlanks_cons]
  | string text =>
    exact readsBack_of_succ (.string text) fun steps rest _ _ => by
      simp [chars, stringChars, takeValue?, skipBlanks_cons, takeString?_escaped]
  | number n regular =>
    refine readsBack_of_succ (.number n regular) fun steps rest _ ends => ?_
    have read := takeNumeral?_chars regular ends
    obtain ⟨c, tail, shape, starts⟩ : ∃ c tail, n.chars = c :: tail ∧ (c.isDigit = true ∨ c = '-') :=
      chars_eq_cons_of_regular regular
    rw [shape, List.cons_append] at read
    rw [chars, shape, List.cons_append, takeValue?_numeral starts, read, Option.map_some]
  | array elements each ih =>
    refine readsBack_of_succ (.array elements each) fun steps rest enough ends => ?_
    rcases elements with _ | ⟨first, others⟩
    · simp [chars, takeValue?, skipBlanks_cons]
    · obtain ⟨c, tail, shape, opens⟩ := (each first List.mem_cons_self).chars_eq_cons
      simp only [chars, List.length_cons, List.length_append, List.length_nil] at enough
      have read : takeElements? steps (first.chars ++ (elementsChars others ++ ']' :: rest)) =
          some (first :: others, rest) := takeElements?_chars ih (by omega)
      simp only [chars, shape, List.cons_append, List.append_assoc, List.nil_append] at read ⊢
      rw [takeValue?_bracket opens, read, Option.map_some]
  | object members named each ih => exact fun steps rest enough _ => takeValue?_object named ih enough

/-- A value is read back from its own text. -/
theorem Definite.read?_text {json : Json} (definite : Definite json) : read? json.text = some json := by
  have read := definite.readsBack (json.chars.length + 1) [] (Nat.le_succ _) ends_nil
  rw [List.append_nil] at read
  simp [read?, text, ofChars?, read, skipBlanks]

/-- Two objects one behind the other are no value. -/
theorem Definite.ofChars?_append {members : List (Option String × Json)} {other : Json}
    (definite : Definite (Json.object members)) (another : Definite other) :
    ofChars? ((Json.object members).chars ++ (other.chars ++ rest)) = none := by
  obtain ⟨c, tail, shape, opens⟩ := another.chars_eq_cons
  cases definite with
  | object _ named each =>
    have enough : (Json.object members).chars.length ≤
        ((Json.object members).chars ++ (other.chars ++ rest)).length + 1 := by
      rw [List.length_append]
      omega
    have read : takeValue? (((Json.object members).chars ++ (other.chars ++ rest)).length + 1)
        ((Json.object members).chars ++ (other.chars ++ rest)) =
          some (.object members, other.chars ++ rest) :=
      takeValue?_object named (fun entry inside => (each entry inside).readsBack) enough
    rw [ofChars?, read, shape, List.cons_append]
    simp [skipBlanks_cons (not_blank_of_opens opens)]

/-! ## No control characters -/

/-- A character that stands in a line. -/
def Printable (c : Char) : Prop := 32 ≤ c.toNat

instance : DecidablePred Printable := fun c => inferInstanceAs (Decidable (32 ≤ c.toNat))

theorem printable_hexDigits (width n : Nat) : ∀ d ∈ hexDigits width n, Printable d := by
  intro c inside
  obtain ⟨d, small, rfl⟩ := mem_hexDigits width n c inside
  exact (by decide : ∀ d < 16, Printable (hexChar d)) d small

theorem printable_escapedChar (c : Char) : ∀ d ∈ escapedChar c, Printable d := by
  unfold escapedChar
  split
  case isTrue quoted => rcases quoted with rfl | rfl <;> simp [Printable]
  case isFalse =>
    by_cases control : c.toNat < 32
    · have digits := printable_hexDigits 4 c.toNat
      simp only [control, if_true]
      repeat' split
      all_goals simp_all [Printable]
    · have plain : c ≠ '\x08' ∧ c ≠ '\t' ∧ c ≠ '\n' ∧ c ≠ '\x0c' ∧ c ≠ '\r' := by
        refine ⟨?_, ?_, ?_, ?_, ?_⟩ <;> (rintro rfl; exact control (by decide))
      simp only [plain, control, if_false, List.mem_singleton]
      rintro d rfl
      exact not_lt.mp control

theorem printable_stringChars (text : String) : ∀ c ∈ stringChars text, Printable c := by
  intro c inside
  simp only [stringChars, List.cons_append, List.mem_cons, List.mem_append, List.mem_flatMap,
    List.not_mem_nil, or_false] at inside
  rcases inside with rfl | ⟨d, -, inside⟩ | rfl
  · decide
  · exact printable_escapedChar d c inside
  · decide

theorem printable_numeral {n : Numeral} (regular : n.Regular) : ∀ c ∈ n.chars, Printable c := by
  have digits {run : List Nat} (below : ∀ d ∈ run, d < 10) : ∀ c ∈ run.map digitChar, Printable c := by
    intro c inside
    have digit := isDigit_of_mem_map below c inside
    simp only [Char.isDigit, Bool.and_eq_true, decide_eq_true_eq] at digit
    exact le_trans (by decide) digit.1
  intro c inside
  simp only [Numeral.chars, List.mem_append] at inside
  rcases inside with ((sign | inWhole) | inFraction) | inPower
  · split at sign
    · rw [List.mem_singleton.mp sign]
      decide
    · cases sign
  · exact digits regular.whole.below c inWhole
  · split at inFraction
    · cases inFraction
    · rcases List.mem_cons.mp inFraction with rfl | inFraction
      · decide
      · exact digits regular.fraction c inFraction
  · split at inPower
    · cases inPower
    · rename_i power isPower
      simp only [List.mem_cons] at inPower
      rcases inPower with rfl | rfl | inPower
      · decide
      · split <;> decide
      · exact digits (regular.power power isPower).2 c inPower

theorem printable_elementsChars {elements : List Json}
    (each : ∀ element ∈ elements, ∀ c ∈ element.chars, Printable c) :
    ∀ c ∈ elementsChars elements, Printable c := by
  induction elements with
  | nil => exact nofun
  | cons first others ih =>
    intro c inside
    simp only [elementsChars, List.mem_append, List.mem_cons] at inside
    rcases inside with (rfl | inside) | inside
    · decide
    · exact each first List.mem_cons_self c inside
    · exact ih (fun element later => each element (List.mem_cons_of_mem first later)) c inside

theorem printable_membersChars {members : List (Option String × Json)}
    (each : ∀ entry ∈ members, ∀ c ∈ entry.2.chars, Printable c) :
    ∀ c ∈ membersChars members, Printable c := by
  induction members with
  | nil => exact nofun
  | cons first others ih =>
    obtain ⟨name, value⟩ := first
    intro c inside
    simp only [membersChars, List.mem_append, List.mem_cons] at inside
    rcases inside with ((rfl | inName) | rfl | inValue) | later
    · decide
    · exact printable_stringChars _ c inName
    · decide
    · exact each (name, value) List.mem_cons_self c inValue
    · exact ih (fun entry later => each entry (List.mem_cons_of_mem _ later)) c later

/-- No text of JSON has a control character in it. -/
theorem Definite.printable {json : Json} (definite : Definite json) : ∀ c ∈ json.chars, Printable c := by
  induction definite with
  | null => simp [chars, Printable]
  | bool value => cases value <;> simp [chars, Printable]
  | string text => exact printable_stringChars text
  | number n regular => exact printable_numeral regular
  | array elements each ih =>
    rcases elements with _ | ⟨first, others⟩
    · simp [chars, Printable]
    · have inOthers := printable_elementsChars fun element later =>
        ih element (List.mem_cons_of_mem first later)
      have inFirst := ih first List.mem_cons_self
      intro c inside
      simp only [chars, List.mem_append, List.mem_cons, List.not_mem_nil, or_false] at inside
      rcases inside with ((rfl | inside) | inside) | rfl
      · decide
      · exact inFirst c inside
      · exact inOthers c inside
      · decide
  | object members named each ih =>
    rcases members with _ | ⟨⟨name, value⟩, others⟩
    · simp [chars, Printable]
    · have inOthers := printable_membersChars fun entry later =>
        ih entry (List.mem_cons_of_mem _ later)
      have inFirst := ih _ List.mem_cons_self
      intro c inside
      simp only [chars, List.mem_append, List.mem_cons, List.not_mem_nil, or_false] at inside
      rcases inside with (((rfl | inName) | rfl | inValue) | later) | rfl
      · decide
      · exact printable_stringChars _ c inName
      · decide
      · exact inFirst c inValue
      · exact inOthers c later
      · decide

end DoubleEntry.Json
