import DoubleEntry.Reconcile
import DoubleEntry.Scalar

/-! # Running balances

The sums over a register up to and including one of its splits: values and share amounts, each over
all splits, over the cleared ones and over the reconciled ones. Sums are taken from the left.
-/

namespace DoubleEntry

structure RunningBalance (α : Type) where
  balance : α
  cleared : α
  reconciled : α
  shareBalance : α
  shareCleared : α
  shareReconciled : α
deriving DecidableEq, Repr

namespace RunningBalance

variable {α : Type} [Scalar α]

def zero : RunningBalance α := ⟨0, 0, 0, 0, 0, 0⟩

/-- Adds one more split. A reconciled split counts as cleared as well. -/
def add (sums : RunningBalance α) (value amount : α) (state : Reconcile) : RunningBalance α where
  balance := sums.balance + value
  cleared := if state.isCleared then sums.cleared + value else sums.cleared
  reconciled := if state = .reconciled then sums.reconciled + value else sums.reconciled
  shareBalance := sums.shareBalance + amount
  shareCleared := if state.isCleared then sums.shareCleared + amount else sums.shareCleared
  shareReconciled :=
    if state = .reconciled then sums.shareReconciled + amount else sums.shareReconciled

end RunningBalance

end DoubleEntry
