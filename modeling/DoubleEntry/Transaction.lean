import DoubleEntry.Ident.Basic
import DoubleEntry.Instant.Basic

/-! # Transactions

A transaction is a dated event with an ordered list of splits, the first of which is its source. It
accepts changes only during an edit session, which may put off rebalancing to its end.
-/

namespace DoubleEntry

inductive EditState where
  | closed
  | editing (defer : Bool)
deriving DecidableEq, Repr

namespace EditState

def isOpen : EditState → Bool
  | .closed => false
  | .editing _ => true

def defers : EditState → Bool
  | .closed => false
  | .editing defer => defer

end EditState

structure Transaction where
  num : String
  description : String
  docref : String
  entered : Instant
  posted : Instant
  splits : List SplitId
  edit : EditState
deriving DecidableEq, Repr

namespace Transaction

/-- A closed transaction with one split. -/
def ofSource (source : SplitId) : Transaction where
  num := ""
  description := ""
  docref := ""
  entered := .epoch
  posted := .epoch
  splits := [source]
  edit := .closed

def source? (transaction : Transaction) : Option SplitId := transaction.splits.head?

/-- Adds a split at the end. -/
def push (split : SplitId) (transaction : Transaction) : Transaction :=
  { transaction with splits := transaction.splits ++ [split] }

/-- Takes a split out; the others keep their order. -/
def drop (split : SplitId) (transaction : Transaction) : Transaction :=
  { transaction with splits := transaction.splits.filter (· ≠ split) }

/-- Puts a split at an index, or at the end if there are fewer splits. -/
def insertAt (index : Nat) (split : SplitId) (transaction : Transaction) : Transaction :=
  { transaction with
    splits := transaction.splits.take index ++ split :: transaction.splits.drop index }

end Transaction

end DoubleEntry
