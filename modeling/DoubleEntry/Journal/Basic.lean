import DoubleEntry.Fault
import DoubleEntry.Journal.Record

/-! # Journals

A journal is opened and then takes records one after another; both may fail, and a failure may
leave it changed. The journal in memory never fails and numbers its envelopes from one.
-/

namespace DoubleEntry

inductive JournalFault where
  | notOpen
  | encode (reason : String)
  | io (reason : String)
deriving DecidableEq, Repr

namespace JournalFault

def message : JournalFault → String
  | .notOpen => "journal is not open"
  | .encode reason => "failed to encode journal record: " ++ reason
  | .io reason => "journal io: " ++ reason

/-- A journal's failure as a fault of the ledger. -/
def toFault (fault : JournalFault) : Fault := .journal fault.message

end JournalFault

/-- What a ledger asks of its journal `J` for records with amounts in `α`. -/
class Journal (J : Type) (α : outParam Type) where
  openLog : J → Except JournalFault Unit × J
  /-- Takes a record; the identifier is that of the new envelope. -/
  append : Ident → Record α → J → Except JournalFault Unit × J

/-- A journal kept in memory. It takes records whether or not it was opened. -/
structure MemoryLog (α : Type) where
  isOpen : Bool := false
  entries : List (Envelope α) := []
deriving DecidableEq, Repr, Inhabited

namespace MemoryLog

variable {α : Type}

/-- The records of one transaction, oldest first. -/
def entriesFor (log : MemoryLog α) (transaction : TransactionId) : List (Record α) :=
  (log.entries.map (·.payload)).filter fun record => record.subject = transaction

def push (event : Ident) (record : Record α) (log : MemoryLog α) : MemoryLog α :=
  { log with entries := log.entries ++ [.wrap event (log.entries.length + 1) record] }

instance : Journal (MemoryLog α) α where
  openLog log := (.ok (), { log with isOpen := true })
  append event record log := (.ok (), log.push event record)

end MemoryLog

end DoubleEntry
