import DoubleEntry.Json.Value
import DoubleEntry.Text.Hex

/-! # Reading JSON

A text is read as one value between blanks. Each step takes a value off the front of the text and
leaves the rest. A value takes at least one character, so the length of the text bounds the steps.
-/

namespace DoubleEntry.Json

/-- The text after its leading blanks: spaces, tabs and line ends. -/
def skipBlanks (cs : List Char) : List Char :=
  cs.dropWhile fun c => c = ' ' ∨ c = '\n' ∨ c = '\t' ∨ c = '\r'

/-! ## Strings -/

/-- A part of a string token: a character, or a 16-bit unit given by an escape. -/
inductive Piece where
  | char (c : Char)
  | unit (value : Nat)
deriving DecidableEq, Repr

/-- The character that a letter stands for after a backslash. -/
def unescaped? : Char → Option Char
  | '"' => some '"'
  | '\\' => some '\\'
  | '/' => some '/'
  | 'b' => some '\x08'
  | 'f' => some '\x0c'
  | 'n' => some '\n'
  | 'r' => some '\r'
  | 't' => some '\t'
  | _ => none

/-- The parts of a string token up to the closing quote, after those in `taken`. -/
def pieces? (taken : List Piece) : List Char → Option (List Piece × List Char)
  | '"' :: rest => some (taken.reverse, rest)
  | '\\' :: 'u' :: a :: b :: c :: d :: rest =>
    match Text.readHex? [a, b, c, d] with
    | some value => pieces? (.unit value :: taken) rest
    | none => none
  | '\\' :: letter :: rest =>
    match unescaped? letter with
    | some c => pieces? (.char c :: taken) rest
    | none => none
  | c :: rest => if c.toNat < 32 ∨ c = '\\' then none else pieces? (.char c :: taken) rest
  | [] => none

/-- The characters that the parts spell, after those in `taken`; two surrogates make one character,
and a surrogate without its partner spells nothing. -/
def spell? (taken : List Char) : List Piece → Option (List Char)
  | [] => some taken.reverse
  | .char c :: rest => spell? (c :: taken) rest
  | .unit high :: .unit low :: rest =>
    if 0xD800 ≤ high ∧ high < 0xDC00 then
      if 0xDC00 ≤ low ∧ low < 0xE000 then
        spell? (Char.ofNat ((high - 0xD800) * 0x400 + (low - 0xDC00) + 0x10000) :: taken) rest
      else none
    else if 0xDC00 ≤ high ∧ high < 0xE000 then none
    else spell? (Char.ofNat high :: taken) (.unit low :: rest)
  | .unit value :: rest =>
    if 0xD800 ≤ value ∧ value < 0xE000 then none else spell? (Char.ofNat value :: taken) rest

/-- The content of a string token, from after its opening quote. -/
def takeString? (cs : List Char) : Option (Option String × List Char) :=
  match pieces? [] cs with
  | some (pieces, rest) => some ((spell? [] pieces).map String.ofList, rest)
  | none => none

/-! ## Numbers -/

/-- The longest run of digits at the front, as values, and the rest. -/
def takeDigits (cs : List Char) : List Nat × List Char :=
  ((cs.takeWhile Char.isDigit).map fun c => c.toNat - 48, cs.dropWhile Char.isDigit)

/-- The point and the digits after it, if there is a point. -/
def takeFraction? (cs : List Char) : Option (List Nat × List Char) :=
  match cs with
  | '.' :: rest =>
    let (digits, rest) := takeDigits rest
    if digits.isEmpty then none else some (digits, rest)
  | _ => some ([], cs)

/-- The power of ten, if there is one. -/
def takePower? (cs : List Char) : Option (Option Decimal.Power × List Char) :=
  let signed (negative : Bool) (cs : List Char) : Option (Option Decimal.Power × List Char) :=
    let (digits, rest) := takeDigits cs
    if digits.isEmpty then none else some (some ⟨negative, digits⟩, rest)
  match cs with
  | c :: rest =>
    if c = 'e' ∨ c = 'E' then
      match rest with
      | '+' :: rest => signed false rest
      | '-' :: rest => signed true rest
      | rest => signed false rest
    else some (none, cs)
  | [] => some (none, cs)

/-- A numeral without its sign. Only zero itself starts with a zero. -/
def takeUnsigned? (negative : Bool) (cs : List Char) : Option (Decimal.Numeral × List Char) := do
  let (whole, rest) := takeDigits cs
  if whole.isEmpty ∨ (whole.head? = some 0 ∧ 1 < whole.length) then none
  let (fraction, rest) ← takeFraction? rest
  let (power, rest) ← takePower? rest
  some (⟨negative, whole, fraction, power⟩, rest)

def takeNumeral? (cs : List Char) : Option (Decimal.Numeral × List Char) :=
  match cs with
  | '-' :: rest => takeUnsigned? true rest
  | cs => takeUnsigned? false cs

/-! ## Values -/

mutual

/-- Takes a value in at most `steps` nested steps. -/
def takeValue? : Nat → List Char → Option (Json × List Char)
  | 0, _ => none
  | steps + 1, cs =>
    match skipBlanks cs with
    | 'n' :: 'u' :: 'l' :: 'l' :: rest => some (.null, rest)
    | 't' :: 'r' :: 'u' :: 'e' :: rest => some (.bool true, rest)
    | 'f' :: 'a' :: 'l' :: 's' :: 'e' :: rest => some (.bool false, rest)
    | '"' :: rest => (takeString? rest).map fun (content, rest) => (.string content, rest)
    | '[' :: rest =>
      match skipBlanks rest with
      | ']' :: rest => some (.array [], rest)
      | rest => (takeElements? steps rest).map fun (elements, rest) => (.array elements, rest)
    | '\x7b' :: rest =>
      match skipBlanks rest with
      | '\x7d' :: rest => some (.object [], rest)
      | rest => (takeMembers? steps rest).map fun (members, rest) => (.object members, rest)
    | rest => (takeNumeral? rest).map fun (numeral, rest) => (.number numeral, rest)

/-- Takes the elements of an array and its closing bracket. -/
def takeElements? : Nat → List Char → Option (List Json × List Char)
  | 0, _ => none
  | steps + 1, cs => do
    let (value, rest) ← takeValue? steps cs
    match skipBlanks rest with
    | ',' :: rest =>
      let (others, rest) ← takeElements? steps rest
      some (value :: others, rest)
    | ']' :: rest => some ([value], rest)
    | _ => none

/-- Takes the members of an object and its closing brace. -/
def takeMembers? : Nat → List Char → Option (List (Option String × Json) × List Char)
  | 0, _ => none
  | steps + 1, cs =>
    match skipBlanks cs with
    | '"' :: rest => do
      let (name, rest) ← takeString? rest
      match skipBlanks rest with
      | ':' :: rest =>
        let (value, rest) ← takeValue? steps rest
        match skipBlanks rest with
        | ',' :: rest =>
          let (others, rest) ← takeMembers? steps rest
          some ((name, value) :: others, rest)
        | '\x7d' :: rest => some ([(name, value)], rest)
        | _ => none
      | _ => none
    | _ => none

end

/-- Reads a text that is one value between blanks. -/
def ofChars? (cs : List Char) : Option Json :=
  match takeValue? (cs.length + 1) cs with
  | some (json, rest) => if (skipBlanks rest).isEmpty then some json else none
  | none => none

def read? (text : String) : Option Json := ofChars? text.toList

end DoubleEntry.Json
