import DoubleEntry.Split
import DoubleEntry.Table
import DoubleEntry.Transaction

/-! # Ledger order

Transactions go by posted date, then number, then description; splits by their transactions, then
memo, then action. Text is compared by code point. What is present comes before what is missing,
except for text, where missing text comes first.
-/

namespace DoubleEntry

def textOrder : Option String → Option String → Ordering
  | none, none => .eq
  | none, some _ => .lt
  | some _, none => .gt
  | some a, some b => compare a b

/-- Compares present entries and puts missing ones last. -/
def presentFirst {β : Type} (order : β → β → Ordering) : Option β → Option β → Ordering
  | some a, some b => order a b
  | some _, none => .lt
  | none, some _ => .gt
  | none, none => .eq

def Transaction.order (a b : Transaction) : Ordering :=
  ((a.posted.order b.posted).then (textOrder (some a.num) (some b.num))).then
    (textOrder (some a.description) (some b.description))

/-- The ledger order of transactions, missing ones last. -/
def transactionOrder : Option Transaction → Option Transaction → Ordering :=
  presentFirst Transaction.order

/-- What decides the place of a split: its transaction and its own texts. -/
structure Position where
  parent : Option Transaction
  memo : String
  action : String
deriving DecidableEq, Repr

def Position.order (a b : Position) : Ordering :=
  ((transactionOrder a.parent b.parent).then (textOrder (some a.memo) (some b.memo))).then
    (textOrder (some a.action) (some b.action))

/-- The ledger order of splits, missing ones last. -/
def splitOrder : Option Position → Option Position → Ordering := presentFirst Position.order

/-- The splits and transactions of a ledger, as a book of accounts sees them. -/
structure Postings (α : Type) where
  splits : Table SplitId (Split α)
  transactions : Table TransactionId Transaction
deriving DecidableEq, Repr

namespace Postings

variable {α : Type}

def position? (postings : Postings α) (split : SplitId) : Option Position :=
  (postings.splits.get? split).map fun s =>
    ⟨s.parent.bind postings.transactions.get?, s.memo, s.action⟩

def compare (postings : Postings α) (a b : SplitId) : Ordering :=
  splitOrder (postings.position? a) (postings.position? b)

end Postings

end DoubleEntry
