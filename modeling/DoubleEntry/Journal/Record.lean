import DoubleEntry.Ident.Basic
import DoubleEntry.Instant.Basic
import DoubleEntry.Reconcile

/-! # What a journal records

A record says that an edit session of a transaction began, was committed, or ended with the
transaction destroyed, with a snapshot of the transaction. An envelope adds the number of the record
within its journal.
-/

namespace DoubleEntry

inductive EventKind where
  | began
  | committed
  | destroyed
deriving DecidableEq, Repr

namespace EventKind

def all : List EventKind := [.began, .committed, .destroyed]

def name : EventKind → String
  | .began => "begin"
  | .committed => "commit"
  | .destroyed => "destroy"

def tag : EventKind → Char
  | .began => 'B'
  | .committed => 'C'
  | .destroyed => 'D'

def eventType (kind : EventKind) : String := "ledger.transaction." ++ kind.name

end EventKind

/-- A split as it is recorded. -/
structure SplitSnapshot (α : Type) where
  split : SplitId
  account : Option AccountId
  memo : String
  action : String
  docref : String
  reconcile : Reconcile
  amount : α
  price : α
deriving DecidableEq, Repr

/-- A transaction as it is recorded, with its splits in order. -/
structure TransactionSnapshot (α : Type) where
  transaction : TransactionId
  num : String
  description : String
  docref : String
  posted : Instant
  entered : Instant
  splits : List (SplitSnapshot α)
deriving DecidableEq, Repr

structure Record (α : Type) where
  kind : EventKind
  snapshot : TransactionSnapshot α
  writtenAt : Instant
deriving DecidableEq, Repr

namespace Record

variable {α : Type}

/-- The transaction that a record is about. -/
def subject (record : Record α) : TransactionId := record.snapshot.transaction

def eventType (record : Record α) : String := record.kind.eventType

/-- The version of the record format. -/
def version (_ : Record α) : Nat := 1

end Record

structure Envelope (α : Type) where
  event : Ident
  eventType : String
  version : Nat
  sequence : Nat
  payload : Record α
deriving DecidableEq, Repr

/-- Puts a record into an envelope. -/
def Envelope.wrap {α : Type} (event : Ident) (sequence : Nat) (record : Record α) : Envelope α where
  event
  eventType := record.eventType
  version := record.version
  sequence
  payload := record

end DoubleEntry
