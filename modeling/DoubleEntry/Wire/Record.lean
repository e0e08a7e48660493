import DoubleEntry.Journal.Record
import DoubleEntry.Wire.Basic

/-! # The wire form of journal records

Fields are written in a fixed order. A missing account means a split without one; every other field
has to be there.
-/

namespace DoubleEntry.Wire

variable {α : Type} [Wire α]

instance : Wire EventKind where
  toJson kind := .ofText kind.name
  ofJson? := Json.caseOf? EventKind.all EventKind.name

def splitFields : List String :=
  ["split_id", "account_id", "memo", "action", "docref", "reconcile", "share_amount", "share_price"]

instance : Wire (SplitSnapshot α) where
  toJson s := .record (splitFields.zip [toJson s.split, toJson s.account, toJson s.memo,
    toJson s.action, toJson s.docref, toJson s.reconcile, toJson s.amount, toJson s.price])
  ofJson? json := do
    let [split, account, memo, action, docref, reconcile, amount, price] ← json.fields? splitFields
      | none
    some ⟨← required? split, ← optional? account, ← required? memo, ← required? action,
      ← required? docref, ← required? reconcile, ← required? amount, ← required? price⟩

def transactionFields : List String :=
  ["transaction_id", "num", "description", "docref", "date_posted", "date_entered", "splits"]

instance : Wire (TransactionSnapshot α) where
  toJson t := .record (transactionFields.zip [toJson t.transaction, toJson t.num,
    toJson t.description, toJson t.docref, toJson t.posted, toJson t.entered, toJson t.splits])
  ofJson? json := do
    let [transaction, num, description, docref, posted, entered, splits] ←
      json.fields? transactionFields | none
    some ⟨← required? transaction, ← required? num, ← required? description, ← required? docref,
      ← required? posted, ← required? entered, ← required? splits⟩

def recordFields : List String := ["kind", "transaction", "written_at"]

instance : Wire (Record α) where
  toJson r := .record (recordFields.zip [toJson r.kind, toJson r.snapshot, toJson r.writtenAt])
  ofJson? json := do
    let [kind, snapshot, writtenAt] ← json.fields? recordFields | none
    some ⟨← required? kind, ← required? snapshot, ← required? writtenAt⟩

def envelopeFields : List String :=
  ["event_id", "event_type", "version", "sequence_number", "payload"]

/-- Reads a natural number below `2 ^ width`. -/
def word? (width : Nat) (field : Option Json) : Option Nat :=
  field.bind (Json.nat? (Nat.pow 2 width - 1))

instance : Wire (Envelope α) where
  toJson e := .record (envelopeFields.zip [toJson e.event, toJson e.eventType, .ofNat e.version,
    .ofNat e.sequence, toJson e.payload])
  ofJson? json := do
    let [event, eventType, version, sequence, payload] ← json.fields? envelopeFields | none
    some ⟨← required? event, ← required? eventType, ← word? 32 version, ← word? 64 sequence,
      ← required? payload⟩

end DoubleEntry.Wire
