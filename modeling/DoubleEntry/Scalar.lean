import DoubleEntry.Decimal.Numeral

/-! # Amounts and prices

The ledger calculates with any type that has the arithmetic below. It runs on doubles. No law is
part of the class, so a statement for every scalar type assumes none of its arithmetic, and exact
rationals are an instance as well.
-/

namespace DoubleEntry

class Scalar (α : Type) extends Zero α, One α, Add α, Neg α, Mul α, Div α where
  isZero : α → Bool
  isFinite : α → Bool
  /-- Further from zero than one millionth. -/
  isSignificant : α → Bool
  /-- At most one millionth from zero. -/
  isNegligible : α → Bool
  /-- How a message shows the number. -/
  text : α → String

/-- Numbers in messages: never with a power of ten, without a point if whole, and the larger of two
equally close decimals. -/
def messageLayout : Decimal.Layout where
  positional _ := true
  pointZero := false
  tie := .away

/-- The text of a double in a message. -/
def floatText (x : Float) : String :=
  if x.isNaN then "NaN"
  else if x.isFinite then String.ofList (messageLayout.numeral x).chars
  else if x > 0 then "inf"
  else "-inf"

instance : Scalar Float where
  zero := 0
  one := 1
  isZero x := x == 0
  isFinite := Float.isFinite
  isSignificant x := x.abs > 1e-6
  isNegligible x := x.abs ≤ 1e-6
  text := floatText

instance : Scalar Rat where
  zero := 0
  one := 1
  isZero x := x == 0
  isFinite _ := true
  isSignificant x := 1 / 1000000 < x ∨ 1 / 1000000 < -x
  isNegligible x := x ≤ 1 / 1000000 ∧ -x ≤ 1 / 1000000
  text x := toString x.num ++ "/" ++ toString x.den

end DoubleEntry
