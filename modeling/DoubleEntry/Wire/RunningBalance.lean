import DoubleEntry.RunningBalance
import DoubleEntry.Wire.Basic

/-! # The wire form of running balances

Six numbers, value sums before share sums.
-/

namespace DoubleEntry.Wire

variable {α : Type} [Wire α]

def balanceFields : List String :=
  ["balance", "cleared", "reconciled", "share_balance", "share_cleared", "share_reconciled"]

instance : Wire (RunningBalance α) where
  toJson b := .record (balanceFields.zip [toJson b.balance, toJson b.cleared, toJson b.reconciled,
    toJson b.shareBalance, toJson b.shareCleared, toJson b.shareReconciled])
  ofJson? json := do
    let [balance, cleared, reconciled, shareBalance, shareCleared, shareReconciled] ←
      json.fields? balanceFields | none
    some ⟨← required? balance, ← required? cleared, ← required? reconciled,
      ← required? shareBalance, ← required? shareCleared, ← required? shareReconciled⟩

end DoubleEntry.Wire
