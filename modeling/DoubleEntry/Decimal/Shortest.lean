import DoubleEntry.Decimal.Binary

/-! # The fewest digits that read back

Among the decimals that round to a double, those with the fewest digits are wanted, and of these
the closest to the double. For one, two, … seventeen digits the two neighbours of the value on that
decimal grid are tested; the first grid with a hit wins.
-/

namespace DoubleEntry.Decimal

/-- Which of two equally close decimals is taken. -/
inductive Tie where
  | toEven
  | away
deriving DecidableEq, Repr

/-- The least `k` with `x < 10 ^ k`, for a nonzero `x`. The binary logarithm locates it up to two. -/
def Binary.magnitude (x : Binary) : Int :=
  let estimate := ((x.mantissa.log2 : Int) + x.exponent) * 30103 / 100000
  let fits (k : Int) : Bool := compareScaled 1 k x.mantissa x.exponent == .gt
  ([estimate - 1, estimate, estimate + 1].find? fits).getD (estimate + 2)

/-- The value divided by `10 ^ k`, as numerator and denominator. -/
def Binary.onGrid (x : Binary) (k : Int) : Nat × Nat :=
  (x.mantissa * Nat.pow 2 x.exponent.toNat * Nat.pow 10 (-k).toNat,
    Nat.pow 2 (-x.exponent).toNat * Nat.pow 10 k.toNat)

/-- The closer of the value's neighbours on the grid `10 ^ k` that read back, if one does. -/
def Binary.nearestOnGrid? (x : Binary) (tie : Tie) (k : Int) : Option Scaled :=
  let (numerator, denominator) := x.onGrid k
  let under := numerator / denominator
  let lower : Scaled := ⟨under, k⟩
  let upper : Scaled := ⟨under + 1, k⟩
  match x.readsBack lower, x.readsBack upper with
  | false, false => none
  | true, false => some lower
  | false, true => some upper
  | true, true =>
    match compare (2 * numerator) ((2 * under + 1) * denominator), tie with
    | .lt, _ => some lower
    | .gt, _ => some upper
    | .eq, .away => some upper
    | .eq, .toEven => some (if under % 2 = 0 then lower else upper)

/-- The exact value as a decimal. -/
def Binary.exact (x : Binary) : Scaled :=
  if 0 ≤ x.exponent then ⟨x.mantissa * Nat.pow 2 x.exponent.toNat, 0⟩
  else ⟨x.mantissa * Nat.pow 5 (-x.exponent).toNat, x.exponent⟩

/-- The fewest digits that read back to a nonzero double. -/
def Binary.shortest (x : Binary) (tie : Tie) : Scaled :=
  let magnitude := x.magnitude
  ((List.range 17).findSome? fun n => x.nearestOnGrid? tie (magnitude - (n + 1 : Nat))).getD x.exact

end DoubleEntry.Decimal
