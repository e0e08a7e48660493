import DoubleEntry.Instant.Calendar

/-! # Instants

An instant is a second counted from the start of 1970 and a part of it in nanoseconds. A part of a
thousand million nanoseconds or more lies in a leap second that follows the one that is counted, which
may be any second of a minute. Instants stay inside the years that the calendar gives dates for.
-/

namespace DoubleEntry

structure Instant where
  seconds : Int
  nanos : Nat
  first_le : -8334601228800 ≤ seconds
  le_last : seconds ≤ 8210266876799
  subsecond : nanos < 2000000000
deriving DecidableEq, Repr

namespace Instant

/-- The instant with these parts, if there is one. -/
def of? (seconds : Int) (nanos : Nat) : Option Instant :=
  if h : -8334601228800 ≤ seconds ∧ seconds ≤ 8210266876799 ∧ nanos < 2000000000 then
    some ⟨seconds, nanos, h.1, h.2.1, h.2.2⟩
  else none

/-- The start of 1970. -/
def epoch : Instant := ⟨0, 0, by decide, by decide, by decide⟩

instance : Inhabited Instant := ⟨epoch⟩

/-- Earlier seconds come first; within one, earlier parts. -/
def order (a b : Instant) : Ordering :=
  (compare a.seconds b.seconds).then (compare a.nanos b.nanos)

/-- A time of a calendar day. -/
def onDay? (date : Calendar.Date) (hour : Nat) : Option Instant :=
  if date.IsValid then of? (date.dayNumber * 86400 + hour * 3600) 0 else none

end Instant

end DoubleEntry
