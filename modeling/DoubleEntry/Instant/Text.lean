import DoubleEntry.Decimal.Numeral
import DoubleEntry.Instant.Basic
import DoubleEntry.Text.Blank

/-! # Instants as text

The written form is `2024-02-29T23:59:59.5Z` with zero, three, six or nine digits after the point,
the fewest that are exact; a leap second is written as the second after the one that it follows, which
is second 60 at the end of a minute, and a year outside 0 to 9999 with its sign. The reader takes any
offset from universal time, one or two digits where two are usual, and blanks between the parts.
-/

namespace DoubleEntry.Instant

/-- The last `width` digits of a number. -/
def fixedDigits (width n : Nat) : List Char :=
  let digits := (Decimal.digitsOf n).map Decimal.digitChar
  List.replicate (width - digits.length) '0' ++ digits

def yearChars (year : Int) : List Char :=
  if 0 ≤ year ∧ year ≤ 9999 then fixedDigits 4 year.natAbs
  else (if year < 0 then '-' else '+') :: fixedDigits 4 year.natAbs

/-- The point and the digits after it, as many threes as are needed. -/
def fractionChars (nanos : Nat) : List Char :=
  if nanos = 0 then []
  else if nanos % 1000000 = 0 then '.' :: fixedDigits 3 (nanos / 1000000)
  else if nanos % 1000 = 0 then '.' :: fixedDigits 6 (nanos / 1000)
  else '.' :: fixedDigits 9 nanos

/-- The written form, in universal time. -/
def chars (instant : Instant) : List Char :=
  let date := Calendar.Date.ofDayNumber (instant.seconds / 86400)
  let second := (instant.seconds % 86400).toNat
  let leap := instant.nanos / 1000000000
  yearChars date.year ++ '-' :: fixedDigits 2 date.month ++ '-' :: fixedDigits 2 date.day ++
    'T' :: fixedDigits 2 (second / 3600) ++ ':' :: fixedDigits 2 (second / 60 % 60) ++
    ':' :: fixedDigits 2 (second % 60 + leap) ++ fractionChars (instant.nanos % 1000000000) ++ ['Z']

def text (instant : Instant) : String := String.ofList instant.chars

/-! ## Reading -/

/-- The value of a run of digits. -/
def digitsValue (digits : List Char) : Nat := Decimal.valueOf (digits.map fun c => c.toNat - 48)

/-- One digit at least and `width` at most, after blanks. -/
def takeNumber? (width : Nat) (cs : List Char) : Option (Nat × List Char) :=
  let trimmed := Text.trimStart cs
  let digits := (trimmed.take width).takeWhile Char.isDigit
  if digits.isEmpty then none else some (digitsValue digits, trimmed.drop digits.length)

/-- A year: up to four digits, or a sign and any number of them. -/
def takeYear? (cs : List Char) : Option (Int × List Char) :=
  let signed (rest : List Char) : Option (Nat × List Char) :=
    let digits := rest.takeWhile Char.isDigit
    if digits.isEmpty then none else some (digitsValue digits, rest.drop digits.length)
  match Text.trimStart cs with
  | '-' :: rest => (signed rest).map fun (year, rest) => (-(year : Int), rest)
  | '+' :: rest => (signed rest).map fun (year, rest) => ((year : Int), rest)
  | cs => (takeNumber? 4 cs).map fun (year, rest) => ((year : Int), rest)

/-- A separator, after blanks. -/
def takeMark? (mark : Char) (cs : List Char) : Option (List Char) :=
  match Text.trimStart cs with
  | c :: rest => if c = mark then some rest else none
  | [] => none

/-- The nanoseconds of a fraction. Digits after the ninth are passed over. -/
def takeFraction? (cs : List Char) : Option (Nat × List Char) :=
  match cs with
  | '.' :: rest =>
    let digits := rest.takeWhile Char.isDigit
    let kept := digits.take 9
    if digits.isEmpty then none
    else some (digitsValue kept * Nat.pow 10 (9 - kept.length), rest.drop digits.length)
  | _ => some (0, cs)

/-- Two digits, the first below `bound`. -/
def takeTwoDigits? (bound : Nat) (cs : List Char) : Option (Nat × List Char) :=
  match cs with
  | a :: b :: rest =>
    if a.isDigit ∧ b.isDigit ∧ a.toNat - 48 < bound then some (digitsValue [a, b], rest) else none
  | _ => none

/-- The offset from universal time in seconds: `Z`, `UTC`, or a sign, hours and minutes. -/
def takeOffset? (cs : List Char) : Option (Int × List Char) :=
  if (cs.take 3).map Char.toUpper = ['U', 'T', 'C'] then some (0, cs.drop 3)
  else
    match cs with
    | [] => none
    | sign :: rest =>
      if sign = 'Z' ∨ sign = 'z' then some (0, rest)
      else if sign = '+' ∨ sign = '-' ∨ sign = '\u2212' then do
        let (hours, rest) ← takeTwoDigits? 10 rest
        let (minutes, rest) ← takeTwoDigits? 6 (rest.dropWhile fun c => c = ':' ∨ Text.isBlank c)
        let offset : Int := hours * 3600 + minutes * 60
        if offset < 86400 then some (if sign = '+' then offset else -offset, rest) else none
      else none

/-- Reads an instant. -/
def ofChars? (cs : List Char) : Option Instant := do
  let (year, cs) ← takeYear? cs
  let cs ← takeMark? '-' cs
  let (month, cs) ← takeNumber? 2 cs
  let cs ← takeMark? '-' cs
  let (day, cs) ← takeNumber? 2 cs
  let cs ← match cs with
    | c :: rest => if c = 'T' ∨ c = 't' ∨ c = ' ' then some rest else none
    | [] => none
  let (hour, cs) ← takeNumber? 2 cs
  let cs ← takeMark? ':' cs
  let (minute, cs) ← takeNumber? 2 cs
  let cs ← takeMark? ':' cs
  let (second, cs) ← takeNumber? 2 cs
  let (fraction, cs) ← takeFraction? cs
  let (offset, cs) ← takeOffset? (Text.trimStart cs)
  let date : Calendar.Date := ⟨year, month, day⟩
  if (Text.trimStart cs).isEmpty ∧ date.IsValid ∧ hour < 24 ∧ minute < 60 ∧ second ≤ 60 then
    let leap := if second = 60 then 1 else 0
    let seconds := date.dayNumber * 86400 + (hour * 3600 + minute * 60 + (second - leap) : Nat)
    of? (seconds - offset) (leap * 1000000000 + fraction)
  else none

def ofText? (text : String) : Option Instant := ofChars? text.toList

end DoubleEntry.Instant
