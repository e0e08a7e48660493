import DoubleEntry.Journal.Lines
import DoubleEntry.Proofs.WireForm

/-! # What a log of lines holds

A write halts at the stage that its sink refuses, and leaves behind what the stages before it wrote
(`writes_write`). Over a sink that refuses nothing a log holds one line for each record, and every line reads
back as the envelope of its record, with the dates as a clock shows them: `writeAll_readsBack`. A record in a
leap second within a minute is therefore not read back as it was written (`writeAll_shifts`).
-/

namespace DoubleEntry

open Wire

namespace LineLog

variable {α : Type} [Wire α]

/-- A new log, opened, over an empty sink that fails as given. -/
def opened (failure : Stage → Nat → Option String) : LineLog :=
  (Journal.openLog ({ sink := { failure } } : LineLog)).2

/-- Writes records one after another, whether or not they are taken. -/
def writeAll : List (Ident × Record α) → LineLog → List (Except JournalFault Unit) × LineLog
  | [], log => ([], log)
  | (event, record) :: rest, log =>
    let (result, log) := log.write event record
    let (results, log) := writeAll rest log
    (result :: results, log)

/-- The stage at which the sink refuses the next record. -/
def halt? (log : LineLog) : Option Stage :=
  [.record, .newline, .flush].find? fun stage => (log.sink.failure stage (log.sink.calls stage)).isSome

/-- What an envelope leaves in the sink. -/
def residue (text : String) : Option Stage → String
  | some .record => ""
  | some .newline => text
  | some .flush | none => text ++ "\n"

/-- What a write does to an open log, by the stage at which it halts. -/
structure Writes (log : LineLog) (text : String) (result : Except JournalFault Unit) (after : LineLog) :
    Prop where
  isOpen : after.isOpen = true
  failure : after.sink.failure = log.sink.failure
  written : after.sink.written = log.sink.written ++ residue text log.halt?
  number : after.lastSequence = log.lastSequence + if log.halt? = none then 1 else 0
  result : result = .ok () ↔ log.halt? = none

theorem writes_write {log : LineLog} (isOpen : log.isOpen = true) (event : Ident) (record : Record α) :
    Writes log (text (Envelope.wrap event (log.lastSequence + 1) record)) (log.write event record).1
      (log.write event record).2 := by
  cases atRecord : log.sink.failure .record log.sink.records with
  | some reason =>
    have halt : log.halt? = some .record := by simp [halt?, Sink.calls, atRecord]
    constructor <;> simp [write, isOpen, Sink.call, Sink.calls, Sink.count, atRecord, halt, residue]
  | none =>
    cases atNewline : log.sink.failure .newline log.sink.newlines with
    | some reason =>
      have halt : log.halt? = some .newline := by simp [halt?, Sink.calls, atRecord, atNewline]
      constructor <;>
        simp [write, isOpen, Sink.call, Sink.calls, Sink.count, atRecord, atNewline, halt, residue]
    | none =>
      cases atFlush : log.sink.failure .flush log.sink.flushes with
      | some reason =>
        have halt : log.halt? = some .flush := by simp [halt?, Sink.calls, atRecord, atNewline, atFlush]
        constructor <;> simp [write, isOpen, Sink.call, Sink.calls, Sink.count, atRecord, atNewline, atFlush,
          halt, residue, String.append_assoc]
      | none =>
        have halt : log.halt? = none := by simp [halt?, Sink.calls, atRecord, atNewline, atFlush]
        constructor <;> simp [write, isOpen, Sink.call, Sink.calls, Sink.count, atRecord, atNewline, atFlush,
          halt, residue, String.append_assoc]

/-! ## Sinks that refuse nothing -/

/-- The numbers in a record are read as they were written. -/
def Readable (record : Record Float) : Prop := ∀ x ∈ record.numbers, Json.float? (Json.ofFloat x) = some x

theorem readsAs_wrap {record : Record Float} (readable : Readable record) {sequence : Nat}
    (numbered : sequence < 2 ^ 64) (event : Ident) :
    ReadsAs (Envelope.wrap event sequence record) (Envelope.wrap event sequence record.shown) :=
  readsAs_envelope (by decide : 1 < 2 ^ 32) numbered fun x isNumber => faithful_float (readable x isNumber)

theorem writeAll_calm {entries : List (Ident × Record Float)} {log : LineLog} (isOpen : log.isOpen = true)
    (calm : ∀ stage count, log.sink.failure stage count = none)
    (numbered : log.lastSequence + entries.length < 2 ^ 64)
    (readable : ∀ entry ∈ entries, Readable entry.2) :
    (writeAll entries log).1 = List.replicate entries.length (.ok ()) ∧
      ∃ lines : List String, lines.length = entries.length ∧
        (writeAll entries log).2.sink.written = log.sink.written ++ String.join (lines.map (· ++ "\n")) ∧
        ∀ i (inside : i < entries.length), ∃ line, lines[i]? = some line ∧ '\n' ∉ line.toList ∧
          read? line = some (Envelope.wrap entries[i].1 (log.lastSequence + i + 1) entries[i].2.shown) := by
  induction entries generalizing log with
  | nil => exact ⟨rfl, [], rfl, by simp [writeAll], nofun⟩
  | cons entry rest ih =>
    obtain ⟨event, record⟩ := entry
    rw [List.length_cons] at numbered
    have writes := writes_write isOpen event record
    have halt : log.halt? = none := by simp [halt?, calm]
    have number := writes.number
    rw [if_pos halt] at number
    have reads : ReadsAs (Envelope.wrap event (log.lastSequence + 1) record)
        (Envelope.wrap event (log.lastSequence + 1) record.shown) :=
      readsAs_wrap (readable _ List.mem_cons_self) (by omega) event
    obtain ⟨results, lines, length, written, each⟩ := ih writes.isOpen
      (fun stage count => by rw [writes.failure, calm]) (by omega)
      fun entry later => readable entry (List.mem_cons_of_mem _ later)
    refine ⟨?_, text (Envelope.wrap event (log.lastSequence + 1) record) :: lines, ?_, ?_, fun i inside => ?_⟩
    · rw [List.length_cons, List.replicate_succ, ← results, ← writes.result.mpr halt]
      rfl
    · rw [List.length_cons, List.length_cons, length]
    · change (writeAll rest (log.write event record).2).2.sink.written = _
      rw [written, writes.written, halt, List.map_cons, String.join_cons, String.append_assoc]
      rfl
    · cases i with
      | zero => exact ⟨_, rfl, reads.newline_not_mem, reads.read?_text⟩
      | succ i =>
        obtain ⟨line, isLine, unbroken, read⟩ := each i (Nat.lt_of_succ_lt_succ inside)
        have same : log.lastSequence + 1 + i + 1 = log.lastSequence + (i + 1) + 1 := by omega
        rw [number, same] at read
        exact ⟨line, isLine, unbroken, read⟩

/-- Whatever is recorded reads back line by line through a new log over a sink that refuses nothing, with its
dates as a clock shows them. It reads back as it was written exactly if a clock can tell all of its dates. The
numbers of envelopes are kept in 64 bits. -/
theorem writeAll_readsBack (entries : List (Ident × Record Float)) (numbered : entries.length < 2 ^ 64)
    (readable : ∀ entry ∈ entries, Readable entry.2) :
    let (results, log) := writeAll entries (opened fun _ _ => none)
    results = List.replicate entries.length (.ok ()) ∧
      ∃ lines : List String, lines.length = entries.length ∧
        log.sink.written = String.join (lines.map (· ++ "\n")) ∧
        ∀ i (inside : i < entries.length), ∃ line, lines[i]? = some line ∧ '\n' ∉ line.toList ∧
          read? line = some (Envelope.wrap entries[i].1 (i + 1) entries[i].2.shown) ∧
          (entries[i].2.shown = entries[i].2 ↔ entries[i].2.IsOnClock) := by
  have isOpen : (opened fun _ _ => none).isOpen = true := rfl
  obtain ⟨results, lines, length, written, each⟩ :=
    writeAll_calm isOpen (fun _ _ => rfl) ((Nat.zero_add _).trans_lt numbered) readable
  refine ⟨results, lines, length, written.trans (String.empty_append), fun i inside => ?_⟩
  obtain ⟨line, isLine, unbroken, read⟩ := each i inside
  have first : (opened fun _ _ => none).lastSequence + i + 1 = i + 1 := congrArg (· + 1) (Nat.zero_add i)
  exact ⟨line, isLine, unbroken, first ▸ read, Record.shown_eq_iff⟩

/-- A record with texts that need escapes, a leap second and a year of five digits. -/
def sampleRecord (kind : EventKind) : Record Float where
  kind
  snapshot := {
    transaction := ⟨.ofNat 2⟩
    num := "7"
    description := "two\nlines, \"quoted\""
    docref := "\\"
    posted := ⟨327403680059, 1500000000, by decide, by decide, by decide⟩
    entered := .epoch
    splits := [⟨⟨.ofNat 1⟩, some ⟨.ofNat 0⟩, "", "", "", .cleared, 12.5, 1⟩,
      ⟨⟨.ofNat 3⟩, none, "", "", "", .unreconciled, -0.1, 0.5⟩] }
  writtenAt := .epoch

theorem readable_sampleRecord (kind : EventKind) : Readable (sampleRecord kind) := by
  have numbers : (sampleRecord kind).numbers = [12.5, 1, -0.1, 0.5] := rfl
  rw [Readable, numbers]
  decide +kernel

theorem isOnClock_sampleRecord (kind : EventKind) : (sampleRecord kind).IsOnClock := by
  have atEpoch : Instant.epoch.IsOnClock := by decide
  exact ⟨.inr rfl, atEpoch, atEpoch⟩

/-- The records of a session, as they are written. -/
def sampleEntries : List (Ident × Record Float) :=
  [(.ofNat 8, sampleRecord .began), (.ofNat 9, sampleRecord .committed)]

theorem readable_sampleEntries : ∀ entry ∈ sampleEntries, Readable entry.2 := by
  simp [sampleEntries, readable_sampleRecord]

theorem writeAll_readsBack_sample : ∃ first second : String,
    (writeAll sampleEntries (opened fun _ _ => none)).2.sink.written = first ++ "\n" ++ (second ++ "\n") ∧
      read? first = some (Envelope.wrap (.ofNat 8) 1 (sampleRecord .began)) ∧
      read? second = some (Envelope.wrap (.ofNat 9) 2 (sampleRecord .committed)) := by
  obtain ⟨-, lines, length, written, each⟩ :=
    writeAll_readsBack sampleEntries (by decide) readable_sampleEntries
  obtain ⟨first, second, rfl⟩ := List.length_eq_two.mp length
  obtain ⟨line, isLine, -, readFirst, sameFirst⟩ := each 0 (by decide)
  obtain rfl : first = line := Option.some.inj isLine
  obtain ⟨line, isLine, -, readSecond, sameSecond⟩ := each 1 (by decide)
  obtain rfl : second = line := Option.some.inj isLine
  rw [sameFirst.mpr (isOnClock_sampleRecord .began)] at readFirst
  rw [sameSecond.mpr (isOnClock_sampleRecord .committed)] at readSecond
  have joined : String.join ([first, second].map (· ++ "\n")) = first ++ "\n" ++ (second ++ "\n") := by simp
  exact ⟨first, second, written.trans joined, readFirst, readSecond⟩

/-- A third of a leap second behind the fourth second of 1970. -/
def withinMinute : Instant := ⟨4, 1333333333, by decide, by decide, by decide⟩

def shiftedRecord : Record Float where
  kind := .began
  snapshot := {
    transaction := ⟨.ofNat 2⟩
    num := ""
    description := ""
    docref := ""
    posted := withinMinute
    entered := .epoch
    splits := [] }
  writtenAt := withinMinute

/-- A leap second within a minute is read back as the second after it. -/
theorem writeAll_shifts :
    let (results, log) := writeAll [(.ofNat 8, shiftedRecord)] (opened fun _ _ => none)
    Readable shiftedRecord ∧ results = [.ok ()] ∧ ∃ (line : String) (envelope : Envelope Float),
      log.sink.written = line ++ "\n" ∧ read? line = some envelope ∧
        shiftedRecord.writtenAt.seconds = 4 ∧ shiftedRecord.writtenAt.nanos = 1333333333 ∧
        envelope.payload.writtenAt.seconds = 5 ∧ envelope.payload.writtenAt.nanos = 333333333 ∧
        envelope.payload ≠ shiftedRecord := by
  have readable : Readable shiftedRecord := by
    have numbers : shiftedRecord.numbers = [] := rfl
    rw [Readable, numbers]
    exact List.forall_mem_nil _
  have each : ∀ entry ∈ [((.ofNat 8 : Ident), shiftedRecord)], Readable entry.2 := by simpa using readable
  have isOpen : (opened fun _ _ => none).isOpen = true := rfl
  obtain ⟨results, lines, length, written, read⟩ := writeAll_calm isOpen (fun _ _ => rfl) (by decide) each
  obtain ⟨line, rfl⟩ := List.length_eq_one_iff.mp length
  obtain ⟨_, isLine, -, read⟩ := read 0 (by decide)
  obtain rfl := Option.some.inj isLine
  have later : shiftedRecord.shown ≠ shiftedRecord := by
    rw [Ne, Record.shown_eq_iff]
    decide
  refine ⟨readable, results, line, _, ?_, read, rfl, rfl, rfl, rfl, later⟩
  have joined : String.join ([line].map (· ++ "\n")) = line ++ "\n" := by simp
  exact (written.trans String.empty_append).trans joined

end LineLog

end DoubleEntry
