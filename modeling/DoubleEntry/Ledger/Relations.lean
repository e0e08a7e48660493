import DoubleEntry.Ledger.Action

/-! # How entries relate

Which splits belong together, which account of a book is meant by a name, and ledger order over the
entries of a ledger. Sorting is stable.
-/

namespace DoubleEntry

namespace Ledger

variable {α J : Type}

/-- Whether two splits are parts of the same transaction. -/
def arePeers (ledger : Ledger α J) (a b : SplitId) : Bool :=
  match ledger.parentOf? a, ledger.parentOf? b with
  | some one, some other => one = other
  | _, _ => false

/-- The account with a name in the book that the first account of a transaction is from. -/
def accountByName? (ledger : Ledger α J) (id : TransactionId) (name : String) : Option AccountId :=
  ((ledger.splitsOf id).findSome? ledger.accountOf?).bind fun account =>
    ledger.accounts.peerByName? account name

/-- The other one of two splits. There is none among more or fewer, or if the split is neither. -/
def otherOfTwo (splits : List SplitId) (split : SplitId) : Option SplitId :=
  match splits with
  | [a, b] => if a = split then some b else if b = split then some a else none
  | _ => none

def compareTransactions (ledger : Ledger α J) (a b : TransactionId) : Ordering :=
  transactionOrder (ledger.transaction? a) (ledger.transaction? b)

def compareSplits (ledger : Ledger α J) (a b : SplitId) : Ordering := ledger.postings.compare a b

def sortTransactions (ledger : Ledger α J) (ids : List TransactionId) : List TransactionId :=
  ids.mergeSort fun a b => ledger.compareTransactions a b != .gt

def sortSplits (ledger : Ledger α J) (ids : List SplitId) : List SplitId :=
  ids.mergeSort fun a b => ledger.compareSplits a b != .gt

/-- All transactions in ledger order. -/
def transactionsInOrder (ledger : Ledger α J) : List TransactionId :=
  ledger.sortTransactions ledger.transactions.keys

end Ledger

/-- The other split of a two-split transaction. There is none for an unknown split; a split outside
any transaction is a fault. -/
def Action.otherSplit {α J : Type} (split : SplitId) : Action α J (Option SplitId) := do
  match ← read (·.split? split) with
  | none => return none
  | some found =>
    match found.parent with
    | none =>
      report .otherOfDetached
      fail (.detached split)
    | some owner =>
      let transaction ← ask (·.transaction owner)
      return Ledger.otherOfTwo transaction.splits split

end DoubleEntry
