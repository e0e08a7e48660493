import DoubleEntry.Commodity.Basic
import DoubleEntry.Order
import DoubleEntry.Register

/-! # The book of accounts

An account has a currency, possibly a security that it holds, and the register of its splits. It
remembers that one of its splits was changed, and may put off rebalancing. The book finds the place
of a split in a register and adds up running balances; it never changes a split.
-/

namespace DoubleEntry

structure Account where
  name : String
  currency : Commodity
  security : Option Commodity := none
  changed : Bool := false
  defers : Bool := false
  register : List SplitId := []
deriving DecidableEq, Repr

abbrev Book := Table AccountId Account

namespace Book

variable {α : Type}

def markChanged (book : Book) (account : AccountId) : Book :=
  book.modify account fun a => { a with changed := true }

def clearChanged (book : Book) (account : AccountId) : Book :=
  book.modify account fun a => { a with changed := false }

def setDefers (book : Book) (account : AccountId) (defers : Bool) : Book :=
  book.modify account fun a => { a with defers }

/-- Whether an account puts off rebalancing; an unknown one does not. -/
def defers (book : Book) (account : AccountId) : Bool := (book.get? account).any (·.defers)

/-- Puts a split into a register, at its place in ledger order. -/
def insertSplit (book : Book) (postings : Postings α) (account : AccountId) (split : SplitId) : Book :=
  book.modify account fun a =>
    { a with register := Register.insert postings.compare split a.register, changed := true }

/-- Takes a split out of a register; the account counts as changed even if it was not in it. -/
def removeSplit (book : Book) (account : AccountId) (split : SplitId) : Book :=
  book.modify account fun a =>
    { a with register := a.register.filter (· ≠ split), changed := true }

/-- Whether a split in a register has to move to another place. -/
def isMisplaced (book : Book) (postings : Postings α) (account : AccountId) (split : SplitId) : Bool :=
  (book.get? account).any fun a =>
    (a.register.idxOf? split).any fun index =>
      ! Register.isInPlace postings.compare a.register index split

/-- Moves a split to its place if it has to move. -/
def restoreOrder (book : Book) (postings : Postings α) (account : AccountId) (split : SplitId) : Book :=
  if book.isMisplaced postings account split then book.insertSplit postings account split else book

/-- The running balances along a register that starts from given sums. Entries that are no longer
splits are passed over. -/
def runningFrom [Scalar α] (postings : Postings α) :
    RunningBalance α → List SplitId → List (SplitId × RunningBalance α)
  | _, [] => []
  | sums, id :: rest =>
    match postings.splits.get? id with
    | none => runningFrom postings sums rest
    | some split =>
      let sums := sums.add split.value split.amount split.reconcile
      (id, sums) :: runningFrom postings sums rest

/-- The running balances of an account's splits in register order. -/
def runningBalances [Scalar α] (book : Book) (postings : Postings α) (account : AccountId) :
    List (SplitId × RunningBalance α) :=
  match book.get? account with
  | none => []
  | some a => runningFrom postings .zero a.register

/-- The account with a name, for someone who holds an account of the same book. -/
def peerByName? (book : Book) (account : AccountId) (name : String) : Option AccountId :=
  if book.contains account then
    (book.entries.find? fun entry => entry.2.name = name).map Prod.fst
  else none

end Book

end DoubleEntry
