import DoubleEntry.Journal.Lines
import DoubleEntry.Proofs.Recorded

/-! # When the journal fails

A session is opened before its record is written, and closed before the record of the commit is written. So
the two part when a journal fails: the transaction is open without the record of it, or closed without. That
is the only way for them to part, over any journal. A transaction that is to be destroyed is recorded first,
and stays if that fails.
-/

namespace DoubleEntry

open DoubleEntry.Action Ledger

section Calls

variable {α J : Type} [Chronicle J α] {ledger : Ledger α J} {id : TransactionId}

/-- One more record is taken, which shows a transaction as it is. -/
def Ledger.Tells (before : Ledger α J) (kind : EventKind) (id : TransactionId) (after : Ledger α J) : Prop :=
  ∃ record, record.kind = kind ∧ after.snapshot id = .ok record.snapshot ∧
    Chronicle.records after.journal = Chronicle.records before.journal ++ [record]

/-- No record is taken, and the journal is blamed. -/
def Ledger.Slipped {β : Type} (before : Ledger α J) (result : Except Fault β) (after : Ledger α J) : Prop :=
  (∃ message, result = .error (.journal message)) ∧
    Chronicle.records after.journal = Chronicle.records before.journal

variable [Scalar α]

/-- Opening a session of a transaction that is there. -/
theorem Command.ends_beginEdit (live : (ledger.isOpen? id).isSome) (defer : Bool) :
    (Command.act (.beginEdit id defer)).Ends ledger fun result after =>
      (after.transaction? id).map (·.edit) = some (.editing defer) ∧
        (result = .ok .done ∧ ledger.Tells .began id after ∨ ledger.Slipped result after) := by
  refine ends_bind.mpr ((Action.ends_beginEdit id defer).imp fun result after begins => ?_)
  cases begins with
  | absent missing => simp [isOpen?, missing] at live
  | told opened record isKind isSnapshot told =>
    exact ⟨opened.edit, .inl ⟨rfl, record, isKind, isSnapshot, told⟩⟩
  | untold opened fault _ told => exact ⟨opened.edit, .inr ⟨⟨_, rfl⟩, told⟩⟩

/-- Committing an open transaction. -/
theorem Command.ends_commitEdit (isOpen : ledger.isOpen? id = some true) :
    (Command.act (.commitEdit id)).Ends ledger fun result after =>
      after.isOpen? id = some false ∧
          (result = .ok .done ∧ ledger.Tells .committed id after ∨ ledger.Slipped result after) ∨
        after.isOpen? id = some true ∧ after.journal = ledger.journal ∧
          ∃ fault, result = .error fault ∧ ∀ message, fault ≠ .journal message := by
  refine ends_bind.mpr ((Action.ends_commitEdit id).imp fun result after commits => ?_)
  have closed (closed : ledger.Closed id after) : after.isOpen? id = some false :=
    (congrFun closed.status id).trans (Function.update_self ..)
  cases commits with
  | refused notOpen _ _ => exact absurd isOpen notOpen
  | unbalanced _ fault own status journal _ =>
    exact .inr ⟨(congrFun status id).trans isOpen, journal, fault, rfl, own⟩
  | balanced closes =>
    cases closes with
    | told isClosed record isKind isSnapshot told =>
      exact .inl ⟨closed isClosed, .inl ⟨rfl, record, isKind, isSnapshot, told⟩⟩
    | untold isClosed fault _ told => exact .inl ⟨closed isClosed, .inr ⟨⟨_, rfl⟩, told⟩⟩

end Calls

/-- Over any journal, whenever its calls fail. A transaction is open, closed or gone as the last record that
was taken of it has it, if the journal did not fail while a session of it was opened or closed. Opening a
session opens it also when the journal fails, and a commit that balances closes it also when the journal
fails; then no record is taken. A commit that fails for another reason leaves the session open. -/
theorem Recorded.sessions_follow {α J : Type} [Scalar α] [Journal J α] (id : TransactionId) :
    (∀ (been : Set TransactionId) (ledger : Ledger α (Transcript J α)),
      Recorded (fun ledger deed => deed.KeepsRecords ledger ∧ ¬ deed.Slips ledger id) been ledger →
      id ∈ been →
        (ledger.isOpen? id = some true ↔ (ledger.kindsOf id).getLast? = some .began) ∧
        (ledger.isOpen? id = none ↔ (ledger.kindsOf id).getLast? = some .destroyed) ∧
        (ledger.isOpen? id = some false ↔
          (ledger.kindsOf id).getLast? = none ∨ (ledger.kindsOf id).getLast? = some .committed)) ∧
    (∀ (ledger : Ledger α (Transcript J α)) (defer : Bool), (ledger.isOpen? id).isSome →
      let outcome := (Command.beginEdit id defer).run ledger
      (outcome.ledger.transaction? id).map (·.edit) = some (.editing defer) ∧
        (outcome.result = .ok .done ∧ ledger.Tells .began id outcome.ledger ∨
          ledger.Slipped outcome.result outcome.ledger)) ∧
    (∀ ledger : Ledger α (Transcript J α), ledger.isOpen? id = some true →
      let outcome := (Command.commitEdit id).run ledger
      outcome.ledger.isOpen? id = some false ∧
          (outcome.result = .ok .done ∧ ledger.Tells .committed id outcome.ledger ∨
            ledger.Slipped outcome.result outcome.ledger) ∨
        outcome.ledger.isOpen? id = some true ∧ outcome.ledger.journal = ledger.journal ∧
          ∃ fault, outcome.result = .error fault ∧ ∀ message, fault ≠ .journal message) :=
  ⟨fun _ _ recorded inside => (recorded.known.told inside).status_iff,
    fun _ defer live => Command.ends_beginEdit live defer, fun _ isOpen => Command.ends_commitEdit isOpen⟩

/-- A journal of lines whose sink refuses one record, counted from zero. -/
def LineLog.refusingRecord (call : Nat) : LineLog where
  sink := { failure := fun stage number =>
    if stage = .record ∧ number = call then some "sink failed" else none }

/-- A session of transaction 1 over such a journal, with a list of what it took. -/
def Ledger.transcribed : Ledger Float (Transcript LineLog Float) :=
  (Ledger.start ⟨.tolerant⟩ { journal := .refusingRecord 1 }).after
    [.command .createTransaction, .command (.beginEdit ⟨.ofNat 1⟩ false)]

/-- The session is open as recorded, may be opened anew, and is closed by a commit that is not recorded. -/
theorem Recorded.sessions_follow_transcribed :
    transcribed.isOpen? ⟨.ofNat 1⟩ = some true ∧
    (((Command.beginEdit ⟨.ofNat 1⟩ true).run transcribed).ledger.transaction? ⟨.ofNat 1⟩).map (·.edit) =
      some (.editing true) ∧
    let outcome := (Command.commitEdit ⟨.ofNat 1⟩).run transcribed
    outcome.ledger.isOpen? ⟨.ofNat 1⟩ = some false ∧ transcribed.Slipped outcome.result outcome.ledger := by
  obtain ⟨follows, begins, commits⟩ :=
    Recorded.sessions_follow (α := Float) (J := LineLog) ⟨.ofNat 1⟩
  have start : Recorded (fun (ledger : Ledger Float (Transcript LineLog Float)) deed =>
      deed.KeepsRecords ledger ∧ ¬ deed.Slips ledger ⟨.ofNat 1⟩) ∅ (.start ⟨.tolerant⟩ _) :=
    .start ⟨.tolerant⟩ { journal := .refusingRecord 1 } rfl
  have created := start.step (.command .createTransaction) ⟨trivial, fun slips => slips.1⟩
    (by decide +kernel)
  have accepted : ((Command.beginEdit ⟨.ofNat 1⟩ false).run ((Deed.command .createTransaction).apply
      (Ledger.start ⟨.tolerant⟩ ({ journal := .refusingRecord 1 } : Transcript LineLog Float)))).result =
      .ok .done := rfl
  have begun := created.step (.command (.beginEdit ⟨.ofNat 1⟩ false))
    ⟨trivial, fun ⟨_, _, failed⟩ => nomatch accepted.symm.trans failed⟩ (by decide +kernel)
  have opened : transcribed.isOpen? ⟨.ofNat 1⟩ = some true :=
    (follows _ _ begun (.inr (by decide +kernel))).1.mpr (by decide +kernel)
  have closed : ((Command.commitEdit ⟨.ofNat 1⟩).run transcribed).ledger.isOpen? ⟨.ofNat 1⟩ =
      some false := by decide +kernel
  obtain ⟨message, refused⟩ : ∃ message, ((Command.commitEdit ⟨.ofNat 1⟩).run transcribed).result =
      .error (.journal message) := ⟨_, rfl⟩
  refine ⟨opened, (begins _ true (by rw [opened]; rfl)).1, closed, ?_⟩
  rcases commits transcribed opened with ⟨-, told | slipped⟩ | ⟨still, -⟩
  · exact absurd (told.1.symm.trans refused) (by simp)
  · exact slipped
  · exact absurd (closed.symm.trans still) (by decide)

/-- Transaction 1 over such a journal, with what is asked of it. -/
def Ledger.overRefusing (call : Nat) (commands : List (Command Float)) : Ledger Float LineLog :=
  (Ledger.start ⟨.tolerant⟩ (.refusingRecord call)).after
    (.command .createTransaction :: commands.map Deed.command)

/-- The journal fails and the transaction is opened all the same, or closed all the same. -/
theorem Reachable.sessions_drift :
    (Reachable (fun _ => True) (overRefusing 0 []) ∧
      (overRefusing 0 []).isOpen? ⟨.ofNat 1⟩ = some false ∧
      let outcome := (Command.beginEdit ⟨.ofNat 1⟩ false).run (overRefusing 0 [])
      (∃ message, outcome.result = .error (.journal message)) ∧
        outcome.ledger.isOpen? ⟨.ofNat 1⟩ = some true) ∧
    Reachable (fun _ => True) (overRefusing 1 [.beginEdit ⟨.ofNat 1⟩ false]) ∧
      let outcome := (Command.commitEdit ⟨.ofNat 1⟩).run (overRefusing 1 [.beginEdit ⟨.ofNat 1⟩ false])
      (∃ message, outcome.result = .error (.journal message)) ∧
        outcome.ledger.isOpen? ⟨.ofNat 1⟩ = some false := by
  refine ⟨⟨?_, ?_, ⟨_, rfl⟩, ?_⟩, ?_, ⟨_, rfl⟩, ?_⟩
  · exact (Reachable.start _ _).after _ (fun _ _ => trivial) (by decide +kernel)
  · decide +kernel
  · decide +kernel
  · exact (Reachable.start _ _).after _ (fun _ _ => trivial) (by decide +kernel)
  · decide +kernel

end DoubleEntry
