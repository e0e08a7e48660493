import DoubleEntry.Ident.Basic
import DoubleEntry.Instant.Basic
import DoubleEntry.RunningBalance

/-! # Splits

A split is one monetary leg: an amount of shares at a price, in an account and as part of a
transaction, if it has them. Its running balance is a copy of what its register last calculated.
-/

namespace DoubleEntry

structure Split (α : Type) where
  account : Option AccountId
  parent : Option TransactionId
  memo : String
  action : String
  docref : String
  reconcile : Reconcile
  reconciledOn : Instant
  amount : α
  price : α
  running : RunningBalance α
deriving DecidableEq, Repr

namespace Split

variable {α : Type} [Scalar α]

/-- A split on its own: no shares at price one, without account, transaction or text. -/
def empty : Split α where
  account := none
  parent := none
  memo := ""
  action := ""
  docref := ""
  reconcile := .unreconciled
  reconciledOn := .epoch
  amount := 0
  price := 1
  running := .zero

/-- What the split is worth in the currency of its account. -/
def value (split : Split α) : α := split.amount * split.price

/-- The split that balances this one: the opposite value at price one, with the same texts and
account, in no transaction yet. -/
def counterpart (split : Split α) : Split α :=
  { (empty : Split α) with
    amount := -split.value
    memo := split.memo
    action := split.action
    account := split.account }

end Split

/-- A text of a split that can be set through its transaction. -/
inductive Caption where
  | memo
  | action
deriving DecidableEq, Repr

def Split.setCaption {α : Type} (caption : Caption) (text : String) (split : Split α) : Split α :=
  match caption with
  | .memo => { split with memo := text }
  | .action => { split with action := text }

end DoubleEntry
