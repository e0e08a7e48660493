import DoubleEntry.Journal.Basic
import DoubleEntry.Wire.Record

/-! # A journal of JSON lines

Every envelope becomes one line of JSON in a sink. Writing a line has three stages, each of which
the sink may refuse: the text of the envelope, the end of the line, and the flush after it. What an
earlier stage wrote stays, and the number of a failed envelope is used again by the next.
-/

namespace DoubleEntry

inductive Stage where
  | record
  | newline
  | flush
deriving DecidableEq, Repr

/-- Text that was written so far, the number of calls of each stage, and which calls fail. -/
structure Sink where
  written : String := ""
  records : Nat := 0
  newlines : Nat := 0
  flushes : Nat := 0
  /-- The reason for which a call of a stage fails, calls counted from zero. -/
  failure : Stage → Nat → Option String := fun _ _ => none

namespace Sink

def calls (sink : Sink) : Stage → Nat
  | .record => sink.records
  | .newline => sink.newlines
  | .flush => sink.flushes

def count (sink : Sink) : Stage → Sink
  | .record => { sink with records := sink.records + 1 }
  | .newline => { sink with newlines := sink.newlines + 1 }
  | .flush => { sink with flushes := sink.flushes + 1 }

/-- Calls a stage with the text that it writes unless it fails. -/
def call (sink : Sink) (stage : Stage) (text : String) : Except String Unit × Sink :=
  match sink.failure stage (sink.calls stage) with
  | some reason => (.error reason, sink.count stage)
  | none => (.ok (), { sink.count stage with written := sink.written ++ text })

end Sink

structure LineLog where
  sink : Sink := {}
  isOpen : Bool := false
  lastSequence : Nat := 0

namespace LineLog

variable {α : Type} [Wire α]

/-- Writes a record as the next line. Its number counts only when all stages succeed. -/
def write (event : Ident) (record : Record α) (log : LineLog) : Except JournalFault Unit × LineLog :=
  if log.isOpen then
    let sequence := log.lastSequence + 1
    match log.sink.call .record (Wire.text (Envelope.wrap event sequence record)) with
    | (.error reason, sink) => (.error (.encode reason), { log with sink })
    | (.ok (), sink) =>
      match sink.call .newline "\n" with
      | (.error reason, sink) => (.error (.io reason), { log with sink })
      | (.ok (), sink) =>
        match sink.call .flush "" with
        | (.error reason, sink) => (.error (.io reason), { log with sink })
        | (.ok (), sink) => (.ok (), { log with sink, lastSequence := sequence })
  else (.error .notOpen, log)

end LineLog

instance : Journal LineLog Float where
  openLog log := (.ok (), { log with isOpen := true })
  append := LineLog.write

end DoubleEntry
