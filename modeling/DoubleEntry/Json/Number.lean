import DoubleEntry.Json.Value

/-! # Numbers in JSON

Doubles are written with the fewest digits, positionally from `0.00001` up to below `10 ^ 16`, and
always with a point or a power of ten; infinities and NaN are written as null.

The reader is fast rather than exact. It takes the digits into 64 bits as far as they fit, and
multiplies or divides once by a power of ten, so a numeral of many digits may come out one unit away
from the nearest double. A numeral too large for a double is refused.
-/

namespace DoubleEntry.Json

def wireLayout : Decimal.Layout where
  positional exponent := -5 ≤ exponent ∧ exponent < 16
  pointZero := true
  tie := .toEven

def ofFloat (x : Float) : Json :=
  if x.isFinite then .number (wireLayout.numeral x) else .null

/-- The largest 64-bit significand. -/
def maxSignificand : Nat := 0xFFFFFFFFFFFFFFFF

/-- Appends digits to a significand as long as it stays within 64 bits, and gives the rest. -/
def absorb (significand : Nat) : List Nat → Nat × List Nat
  | [] => (significand, [])
  | d :: rest =>
    if significand * 10 + d ≤ maxSignificand then absorb (significand * 10 + d) rest
    else (significand, d :: rest)

/-- The double nearest to `10 ^ k`. -/
def powerOfTen (k : Nat) : Float := Float.ofScientific 1 false k

/-- Divides by `10 ^ 308` until the remaining exponent has a power of ten among the doubles. -/
def scaleDown : Nat → Float → Nat → Float
  | 0, x, _ => x
  | steps + 1, x, k =>
    if k ≤ 308 then x / powerOfTen k
    else if x == 0 then x
    else scaleDown steps (x / powerOfTen 308) (k - 308)

/-- `significand * 10 ^ exponent` with one rounding of each operation, unless it is too large. -/
def scaled? (significand : Nat) (exponent : Int) : Option Float :=
  let x := (UInt64.ofNat significand).toFloat
  if exponent < 0 then some (scaleDown (exponent.natAbs / 308 + 1) x exponent.natAbs)
  else if 308 < exponent then if significand = 0 then some x else none
  else
    let product := x * powerOfTen exponent.natAbs
    if product.isFinite then some product else none

/-- The exponents that are added up; beyond them only zero is left, or nothing. -/
def maxPower : Nat := 0x7FFFFFFF

/-- The magnitude that a numeral is read as. -/
def magnitude? (n : Decimal.Numeral) : Option Float :=
  let (whole, dropped) := absorb 0 n.whole
  let (significand, ignored) := absorb whole n.fraction
  let taken := n.fraction.length - ignored.length
  let exponent : Int := dropped.length - taken
  match n.power with
  | none => scaled? significand exponent
  | some power =>
    let value := Decimal.valueOf power.digits
    if maxPower < value then if significand ≠ 0 ∧ ¬ power.negative then none else some 0
    else scaled? significand (if power.negative then exponent - value else exponent + value)

/-- The double that a number is read as. -/
def float? : Json → Option Float
  | .number n => (magnitude? n).map fun x => if n.negative then -x else x
  | _ => none

/-- A natural number up to a limit: digits alone, without a sign, a point or a power of ten. -/
def nat? (limit : Nat) : Json → Option Nat
  | .number ⟨false, whole, [], none⟩ =>
    if Decimal.valueOf whole ≤ limit then some (Decimal.valueOf whole) else none
  | _ => none

end DoubleEntry.Json
