import DoubleEntry.Text.Blank

/-! # Commodities

A currency or security is an opaque code. Any text is a code unless it is empty or all blank, and
two commodities are the same exactly when their codes are. Codes are kept as they were given.
-/

namespace DoubleEntry

structure Commodity where
  code : String
  notBlank : Text.trim code.toList ≠ []
deriving DecidableEq, Repr

namespace Commodity

def ofCode? (code : String) : Option Commodity :=
  if notBlank : Text.trim code.toList ≠ [] then some ⟨code, notBlank⟩ else none

/-- Codes are ordered by code point. -/
def atMost (a b : Commodity) : Bool := compare a.code b.code != .gt

/-- Drops each entry that equals the one before it. -/
def dropRepeats : List Commodity → List Commodity
  | a :: b :: rest => if a = b then dropRepeats (b :: rest) else a :: dropRepeats (b :: rest)
  | short => short

/-- The distinct commodities of a list in the order of their codes. -/
def sorted (commodities : List Commodity) : List Commodity :=
  dropRepeats (commodities.mergeSort atMost)

end Commodity

end DoubleEntry
