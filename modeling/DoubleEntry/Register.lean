import DoubleEntry.Ident.Basic

/-! # Registers

A register lists the splits of an account in ledger order. A split is put in after all entries that
do not come after it, and the place is found by halving, so it is meaningful even in a register that
has fallen out of order.
-/

namespace DoubleEntry.Register

/-- Narrows a window of `size` entries from `first` on to one entry. Each round halves the window
and goes on from its middle if the middle entry stays in front; `rounds` bounds the rounds. -/
def narrowed (stays : Nat → Bool) : (rounds first size : Nat) → Nat
  | 0, first, _ => first
  | rounds + 1, first, size =>
    if size ≤ 1 then first
    else
      let middle := first + size / 2
      narrowed stays rounds (if stays middle then middle else first) (size - size / 2)

/-- How many entries stay in front of a new one. -/
def place {κ : Type} (stays : κ → Bool) (entries : List κ) : Nat :=
  let staysAt (index : Nat) : Bool := entries[index]?.any stays
  let last := narrowed staysAt entries.length 0 entries.length
  if staysAt last then last + 1 else last

/-- Puts an entry in its place, out of any place it had. -/
def insert {κ : Type} [DecidableEq κ] (order : κ → κ → Ordering) (entry : κ) (entries : List κ) :
    List κ :=
  let others := entries.filter (· ≠ entry)
  let index := place (fun other => order other entry != .gt) others
  others.take index ++ entry :: others.drop index

/-- Whether an entry is at odds with neither of its neighbours. -/
def isInPlace {κ : Type} (order : κ → κ → Ordering) (entries : List κ) (index : Nat) (entry : κ) :
    Bool :=
  (index = 0 || entries[index - 1]?.all fun before => order before entry != .gt) &&
    entries[index + 1]?.all fun after => order entry after != .gt

end DoubleEntry.Register
