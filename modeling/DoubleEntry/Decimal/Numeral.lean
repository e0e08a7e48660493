import DoubleEntry.Decimal.Shortest

/-! # Decimal numerals

A numeral is a sign, the digits before and after the point, and a power of ten. A layout says which
doubles are written positionally and which with a power of ten.
-/

namespace DoubleEntry.Decimal

/-- A written power of ten. -/
structure Power where
  negative : Bool
  digits : List Nat
deriving DecidableEq, Repr

/-- A decimal numeral; digits are values below ten. No fraction digits means no point. -/
structure Numeral where
  negative : Bool := false
  whole : List Nat
  fraction : List Nat := []
  power : Option Power := none
deriving DecidableEq, Repr

def digitChar (d : Nat) : Char := Char.ofNat (48 + d)

/-- The decimal digits of a natural number; zero has one digit. -/
def digitsOf (n : Nat) : List Nat := (Nat.toDigits 10 n).map fun c => c.toNat - 48

def valueOf (digits : List Nat) : Nat := digits.foldl (fun value d => value * 10 + d) 0

/-- The text of a numeral. The sign of a power of ten is always written. -/
def Numeral.chars (n : Numeral) : List Char :=
  (if n.negative then ['-'] else []) ++ n.whole.map digitChar ++
    (if n.fraction.isEmpty then [] else '.' :: n.fraction.map digitChar) ++
    match n.power with
    | none => []
    | some power => 'e' :: (if power.negative then '-' else '+') :: power.digits.map digitChar

def Numeral.ofNat (n : Nat) : Numeral where
  whole := digitsOf n

def Numeral.ofInt (n : Int) : Numeral where
  negative := n < 0
  whole := digitsOf n.natAbs

/-- The nearest double, ties to even; infinite beyond the largest. -/
def Numeral.nearest (n : Numeral) : Float :=
  let power : Int := match n.power with
    | none => 0
    | some power => if power.negative then -(valueOf power.digits : Int) else valueOf power.digits
  let scale := power - n.fraction.length
  let magnitude := Float.ofScientific (valueOf (n.whole ++ n.fraction)) (scale < 0) scale.natAbs
  if n.negative then -magnitude else magnitude

/-- How doubles are written: which exponents of the leading digit are written positionally, whether
a whole number keeps a point and a zero, and which of two equally close decimals is taken. -/
structure Layout where
  positional : Int → Bool
  pointZero : Bool
  tie : Tie

/-- The significant digits, without trailing zeros, and the exponent of the leading one. -/
def Scaled.leading (d : Scaled) : List Nat × Int :=
  let digits := digitsOf d.digits
  let significant := (digits.reverse.dropWhile (· == 0)).reverse
  (if significant.isEmpty then [0] else significant, d.exponent + digits.length - 1)

/-- Lays out significant digits whose leading one stands for `10 ^ exponent`. -/
def Layout.place (layout : Layout) (negative : Bool) (digits : List Nat) (exponent : Int) : Numeral :=
  if layout.positional exponent then
    let wholeDigits := (exponent + 1).toNat
    let whole := digits.take wholeDigits ++ List.replicate (wholeDigits - digits.length) 0
    let fraction := List.replicate (-(exponent + 1)).toNat 0 ++ digits.drop wholeDigits
    { negative
      whole := if whole.isEmpty then [0] else whole
      fraction := if fraction.isEmpty && layout.pointZero then [0] else fraction }
  else
    { negative
      whole := digits.take 1
      fraction := digits.drop 1
      power := some ⟨exponent < 0, digitsOf exponent.natAbs⟩ }

/-- The numeral of a finite double. -/
def Layout.numeral (layout : Layout) (x : Float) : Numeral :=
  let bits := x.toBits
  let negative := bits >>> 63 != 0
  let magnitude := Binary.ofBits bits
  if magnitude.mantissa = 0 then layout.place negative [0] 0
  else
    let (digits, exponent) := (magnitude.shortest layout.tie).leading
    layout.place negative digits exponent

end DoubleEntry.Decimal
