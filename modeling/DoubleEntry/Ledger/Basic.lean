import DoubleEntry.Book
import DoubleEntry.Enforcement
import DoubleEntry.Journal.Basic

/-! # The ledger

A ledger owns splits and transactions and works with a book of accounts and a journal. New
identifiers are numbered from a counter that only grows, so that none is given out twice while the
counter stays below `2 ^ 128`. The time of day is set from outside.

Reading a split or transaction that does not exist gives a default: no shares at price one, a blank
flag, the start of 1970, no text.
-/

namespace DoubleEntry

structure Ledger (α J : Type) where
  settings : Settings
  splits : Table SplitId (Split α) := .empty
  transactions : Table TransactionId Transaction := .empty
  accounts : Book := .empty
  journal : J
  /-- How many identifiers were given out. -/
  minted : Nat := 0
  now : Instant := .epoch
deriving DecidableEq, Repr

namespace Ledger

variable {α J : Type}

/-- Whether double entry is enforced. -/
def enforces (ledger : Ledger α J) : Bool := ledger.settings.enforcement.isEnforced

def postings (ledger : Ledger α J) : Postings α := ⟨ledger.splits, ledger.transactions⟩

/-! ## Looking up -/

def split? (ledger : Ledger α J) (id : SplitId) : Option (Split α) := ledger.splits.get? id

def transaction? (ledger : Ledger α J) (id : TransactionId) : Option Transaction :=
  ledger.transactions.get? id

def account? (ledger : Ledger α J) (id : AccountId) : Option Account := ledger.accounts.get? id

def split (ledger : Ledger α J) (id : SplitId) : Except Fault (Split α) :=
  match ledger.split? id with
  | some split => .ok split
  | none => .error (.missing (.split id))

def transaction (ledger : Ledger α J) (id : TransactionId) : Except Fault Transaction :=
  match ledger.transaction? id with
  | some transaction => .ok transaction
  | none => .error (.missing (.transaction id))

def account (ledger : Ledger α J) (id : AccountId) : Except Fault Account :=
  match ledger.account? id with
  | some account => .ok account
  | none => .error (.missing (.account id))

/-- The splits of a transaction in order, none for an unknown transaction. -/
def splitsOf (ledger : Ledger α J) (id : TransactionId) : List SplitId :=
  match ledger.transaction? id with
  | some transaction => transaction.splits
  | none => []

/-- The account that a split is in. -/
def accountOf? (ledger : Ledger α J) (id : SplitId) : Option AccountId :=
  (ledger.split? id).bind (·.account)

/-- The transaction that a split is part of. -/
def parentOf? (ledger : Ledger α J) (id : SplitId) : Option TransactionId :=
  (ledger.split? id).bind (·.parent)

/-! ## Reading with defaults -/

section Reading

variable [Scalar α]

def amount (ledger : Ledger α J) (id : SplitId) : α := ((ledger.split? id).map (·.amount)).getD 0

def price (ledger : Ledger α J) (id : SplitId) : α := ((ledger.split? id).map (·.price)).getD 1

def value (ledger : Ledger α J) (id : SplitId) : α := ((ledger.split? id).map (·.value)).getD 0

def running (ledger : Ledger α J) (id : SplitId) : RunningBalance α :=
  ((ledger.split? id).map (·.running)).getD .zero

end Reading

def reconcile? (ledger : Ledger α J) (id : SplitId) : Option Reconcile :=
  (ledger.split? id).map (·.reconcile)

def reconcileFlag (ledger : Ledger α J) (id : SplitId) : Char :=
  ((ledger.reconcile? id).map (·.flag)).getD ' '

def reconciledOn (ledger : Ledger α J) (id : SplitId) : Instant :=
  ((ledger.split? id).map (·.reconciledOn)).getD .epoch

def memo? (ledger : Ledger α J) (id : SplitId) : Option String := (ledger.split? id).map (·.memo)

def action? (ledger : Ledger α J) (id : SplitId) : Option String := (ledger.split? id).map (·.action)

def splitDocref? (ledger : Ledger α J) (id : SplitId) : Option String :=
  (ledger.split? id).map (·.docref)

def num? (ledger : Ledger α J) (id : TransactionId) : Option String :=
  (ledger.transaction? id).map (·.num)

def description? (ledger : Ledger α J) (id : TransactionId) : Option String :=
  (ledger.transaction? id).map (·.description)

def docref? (ledger : Ledger α J) (id : TransactionId) : Option String :=
  (ledger.transaction? id).map (·.docref)

def posted (ledger : Ledger α J) (id : TransactionId) : Instant :=
  ((ledger.transaction? id).map (·.posted)).getD .epoch

def entered (ledger : Ledger α J) (id : TransactionId) : Instant :=
  ((ledger.transaction? id).map (·.entered)).getD .epoch

def splitAt? (ledger : Ledger α J) (id : TransactionId) (index : Nat) : Option SplitId :=
  (ledger.splitsOf id)[index]?

/-! ## Changing one thing -/

def modifySplit (id : SplitId) (change : Split α → Split α) (ledger : Ledger α J) : Ledger α J :=
  { ledger with splits := ledger.splits.modify id change }

def modifyTransaction (id : TransactionId) (change : Transaction → Transaction)
    (ledger : Ledger α J) : Ledger α J :=
  { ledger with transactions := ledger.transactions.modify id change }

/-- Takes a split out of the register of an account. -/
def leaveRegister (account : AccountId) (split : SplitId) (ledger : Ledger α J) : Ledger α J :=
  { ledger with accounts := ledger.accounts.removeSplit account split }

/-- Notes on the account of a split that one of its splits has changed. -/
def mark (split : SplitId) (ledger : Ledger α J) : Ledger α J :=
  match ledger.accountOf? split with
  | some account => { ledger with accounts := ledger.accounts.markChanged account }
  | none => ledger

/-- Marks every split of a transaction. -/
def markTransaction (transaction : TransactionId) (ledger : Ledger α J) : Ledger α J :=
  (ledger.splitsOf transaction).foldl (fun ledger split => ledger.mark split) ledger

/-- Copies the running balances of an account onto its splits. -/
def recompute [Scalar α] (account : AccountId) (ledger : Ledger α J) : Ledger α J :=
  let balances := ledger.accounts.runningBalances ledger.postings account
  balances.foldl (fun ledger (id, running) => ledger.modifySplit id fun s => { s with running })
    ledger

/-- Recomputes the account of a split that has one. -/
def recompute? [Scalar α] (account : Option AccountId) (ledger : Ledger α J) : Ledger α J :=
  match account with
  | some account => ledger.recompute account
  | none => ledger

/-- Takes a split out of the register that it is in and recomputes the account. -/
def leaveAccount [Scalar α] (split : SplitId) (ledger : Ledger α J) : Ledger α J :=
  match ledger.accountOf? split with
  | some account => (ledger.leaveRegister account split).recompute account
  | none => ledger

/-- Removes a split, also from its register. -/
def eraseSplit [Scalar α] (split : SplitId) (ledger : Ledger α J) : Ledger α J :=
  let left := ledger.leaveAccount split
  { left with splits := left.splits.erase split }

end Ledger

end DoubleEntry
