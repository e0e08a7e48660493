import DoubleEntry.Proofs.Recorded

/-! # The journal in memory

What a journal keeps by its own two calls a ledger keeps too (`Journal.Keeps.act`); so the envelopes of a
journal in memory are numbered from one without a gap. It never fails, and so no session slips. The last
record of a closed transaction shows it as it still is, unless it was rebalanced directly, which needs no
session.
-/

namespace DoubleEntry

open DoubleEntry.Action Ledger

/-! ## What a journal keeps -/

/-- A property of journals that is kept by opening them and by writing to them. -/
structure Journal.Keeps {J α : Type} [Journal J α] (holds : J → Prop) : Prop where
  openLog : ∀ log, holds log → holds (Journal.openLog log).2
  append : ∀ event record log, holds log → holds (Journal.append event record log).2

namespace Journal.Keeps

variable {α J β : Type} [Journal J α] {holds : J → Prop} (kept : Journal.Keeps holds)

omit [Journal J α] in
private theorem unrecorded {action : Action α J β}
    (quiet : ∀ start : Ledger α J, Action.Keeps start.Unrecorded action) :
    Action.Keeps (fun ledger => holds ledger.journal) action := fun before held =>
  (quiet before before (.refl before)).imp fun _ _ unrecorded =>
    (congrArg holds unrecorded.journal).mpr held

omit [Journal J α] in
private theorem setEditState (id : TransactionId) (edit : EditState) :
    Action.Keeps (α := α) (fun ledger => holds ledger.journal) (setEditState id edit) :=
  fun _ held => held

include kept

theorem opens :
    Action.Keeps (fun ledger : Ledger α J => holds ledger.journal) (toJournal Journal.openLog) :=
  fun ledger => kept.openLog ledger.journal

theorem writeRecord (kind : EventKind) (id : TransactionId) :
    Action.Keeps (fun ledger => holds ledger.journal) (writeRecord kind id) :=
  keeps_ask.bind fun _ => keeps_read.bind fun _ => Action.Keeps.bind (fun _ held => held) fun _ ledger =>
    kept.append _ _ ledger.journal

theorem beginEdit (id : TransactionId) (defer : Bool) :
    Action.Keeps (fun ledger => holds ledger.journal) (beginEdit id defer) :=
  keeps_ask.bind fun _ => (setEditState id _).bind fun _ => kept.opens.bind fun _ =>
    kept.writeRecord .began id

variable [Scalar α]

theorem commitEdit (id : TransactionId) :
    Action.Keeps (fun ledger => holds ledger.journal) (commitEdit id) :=
  (keeps_ensureOpen id).bind fun _ => (setEditState id _).bind fun _ =>
    (unrecorded fun _ => keeps_rebalanceTransaction Unrecorded.keeps_rebalanceSplit id).bind fun _ =>
      keeps_ask.bind fun transaction =>
        (unrecorded fun _ => Unrecorded.keeps (Unrecorded.restoreOrder transaction.splits)).bind fun _ =>
          (unrecorded fun _ => Unrecorded.keeps (Unrecorded.recomputeAll transaction.splits)).bind fun _ =>
            (setEditState id _).bind fun _ => kept.writeRecord .committed id

theorem discardTransaction (id : TransactionId) :
    Action.Keeps (fun ledger => holds ledger.journal) (discardTransaction id) :=
  (kept.writeRecord .destroyed id).bind fun _ => keeps_ask.bind fun transaction =>
    (unrecorded fun _ => Unrecorded.keeps (Unrecorded.eraseSplits transaction.splits)).bind fun _ =>
      keeps_update fun _ held => held

/-- A split is destroyed unrecorded, unless its transaction goes with it. -/
theorem destroySplit (split : SplitId) :
    Action.Keeps (fun ledger => holds ledger.journal) (destroySplit split) := by
  refine keeps_ask.bind fun entry => ?_
  cases entry.parent with
  | none => exact keeps_report.bind fun _ => keeps_fail
  | some owner =>
    refine (keeps_ensureOpen owner).bind fun _ => keeps_ask.bind fun _ => keeps_raise.ite <|
      (kept.discardTransaction owner).ite ?_
    exact unrecorded fun _ => Unrecorded.keeps_removal owner split

theorem act (command : Command α) : Action.Keeps (fun ledger => holds ledger.journal) command.act := by
  cases session : command.isSession with
  | false => exact unrecorded fun _ => Unrecorded.keeps_act session
  | true =>
    cases command with
    | createTransaction => exact Action.Keeps.bind (fun _ held => held) fun _ => keeps_pure
    | beginEdit id defer => exact (kept.beginEdit id defer).bind fun _ => keeps_pure
    | commitEdit id => exact (kept.commitEdit id).bind fun _ => keeps_pure
    | destroyTransaction id =>
      exact ((keeps_ensureOpen id).bind fun _ => kept.discardTransaction id).bind fun _ => keeps_pure
    | destroySplit split => exact (kept.destroySplit split).bind fun _ => keeps_pure
    | _ => nomatch session

end Journal.Keeps

/-! ## What a record shows -/

section Showing

variable {α J : Type} {before after ledger : Ledger α J} {id : TransactionId} {transaction : Transaction}

/-- A snapshot leaves out running balances. -/
theorem Ledger.snapshot_congr [Scalar α] (isOwner : before.transaction? id = some transaction)
    (same : after.transaction? id = before.transaction? id)
    (splits : ∀ split ∈ transaction.splits,
      (after.split? split).map Split.bare = (before.split? split).map Split.bare) :
    after.snapshot id = before.snapshot id := by
  rw [snapshot, snapshot, transaction_eq_ok_iff.mpr (same.trans isOwner), transaction_eq_ok_iff.mpr isOwner,
    ok_bind, ok_bind]
  congr 2
  refine List.filterMap_congr fun split listed => ?_
  have view := congrArg (Option.map fun s : Split α => (⟨split, s.account, s.memo, s.action, s.docref,
    s.reconcile, s.amount, s.price⟩ : SplitSnapshot α)) (splits split listed)
  rw [Option.map_map, Option.map_map] at view
  exact view

/-- Neither is the journal replaced, nor a transaction rebalanced directly. -/
def Deed.IsPlain : Deed α J → Prop
  | .setJournal _ | .command (.rebalanceSplit _) | .command (.rebalanceTransaction _) => False
  | _ => True

variable [Scalar α] [Chronicle J α] {been : Set TransactionId} {deed : Deed α J}

/-- The last record of a transaction shows it as it is, if that is the record of a commit. -/
def Ledger.ShowsLast (ledger : Ledger α J) (id : TransactionId) : Prop :=
  ∀ record, (Chronicle.about ledger.journal id).getLast? = some record → record.kind = .committed →
    ledger.snapshot id = .ok record.snapshot

theorem Ledger.isOpen?_beginEdit (live : (ledger.isOpen? id).isSome) (defer : Bool) :
    ((Deed.command (.beginEdit id defer)).apply ledger).isOpen? id = some true := by
  change (Command.act (.beginEdit id defer)).Ends ledger fun _ after => after.isOpen? id = some true
  refine ends_bind.mpr ((ends_beginEdit id defer).imp fun result after begins => ?_)
  cases begins with
  | absent missing => simp [isOpen?, missing] at live
  | told opened _ _ _ _ => exact (congrFun opened.status id).trans (Function.update_self ..)
  | untold opened _ _ _ => exact (congrFun opened.status id).trans (Function.update_self ..)

/-- A plain deed leaves a closed transaction as it is, unless it opens it. -/
theorem Ledger.snapshot_of_plain (owned : ledger.Owned) (plain : deed.IsPlain)
    (fresh : (deed.apply ledger).minted ≤ 2 ^ 128) (closed : ledger.isOpen? id = some false)
    (stays : (deed.apply ledger).isOpen? id = some false) :
    (deed.apply ledger).snapshot id = ledger.snapshot id := by
  obtain ⟨transaction, isOwner, shut⟩ := isOpen?_eq_some_iff.mp closed
  have edit : transaction.edit = .closed := by
    cases edit : transaction.edit with
    | closed => rfl
    | editing _ => simp [edit, EditState.isOpen] at shut
  have keeps : ¬ deed.Unseals ledger id := fun unseals => by
    cases deed with
    | command command =>
      cases command with
      | beginEdit other defer =>
        obtain rfl : other = id := unseals
        rw [isOpen?_beginEdit (by rw [closed]; rfl)] at stays
        contradiction
      | rebalanceSplit _ | rebalanceTransaction _ => exact plain
      | _ => exact unseals
    | _ => exact unseals
  have spares := Sealed.stays ⟨isOwner, edit, owned⟩ keeps fresh
  exact snapshot_congr isOwner (spares.transaction rfl) fun split listed => spares.split listed

theorem Ledger.ShowsLast.step (shows : ledger.ShowsLast id) (known : Recorded.Known been ledger id)
    (owned : ledger.Owned) (plain : deed.IsPlain) (fresh : (deed.apply ledger).minted ≤ 2 ^ 128)
    (turn : ledger.Turn False (deed.apply ledger) id) : (deed.apply ledger).ShowsLast id := by
  intro record last isKind
  cases turn with
  | rests status told =>
    rw [told] at last
    have inside : id ∈ been := by
      by_contra outside
      rw [(known.unborn outside).2] at last
      contradiction
    have closed : ledger.isOpen? id = some false := by
      have means := (known.told inside).last
      rwa [kindsOf, List.getLast?_map, last, Option.map_some, isKind] at means
    rw [snapshot_of_plain owned plain fresh closed (status.trans closed)]
    exact shows record last isKind
  | born unnumbered _ told =>
    rw [told, (known.unborn fun inside => absurd (known.numbered inside) (by omega)).2] at last
    contradiction
  | begins other otherKind _ _ told | destroys other otherKind _ _ told =>
    rw [told, List.getLast?_concat] at last
    cases last
    rw [otherKind] at isKind
    contradiction
  | commits other _ isSnapshot _ _ told =>
    rw [told, List.getLast?_concat] at last
    cases last
    exact isSnapshot
  | slips slipped => exact slipped.elim

end Showing

/-! ## Runs -/

section Memory

variable {α : Type} [Scalar α] {ledger : Ledger α (MemoryLog α)} {been : Set TransactionId}

/-- Envelopes are numbered from one without a gap. -/
def MemoryLog.Numbered {α : Type} (log : MemoryLog α) : Prop :=
  log.entries.map (·.sequence) = List.range' 1 log.entries.length

omit [Scalar α] in
theorem MemoryLog.keeps_numbered : Journal.Keeps (Numbered (α := α)) where
  openLog _ numbered := numbered
  append event record log numbered := by
    change (log.push event record).Numbered
    rw [Numbered, push, List.map_append, numbered, List.length_append, List.length_singleton,
      List.range'_concat]
    simp [Envelope.wrap, Nat.add_comm]

theorem Deed.keeps_numbered {deed : Deed α (MemoryLog α)} (plain : deed.IsPlain)
    (numbered : ledger.journal.Numbered) : (deed.apply ledger).journal.Numbered := by
  cases deed with
  | command request => exact MemoryLog.keeps_numbered.act request ledger numbered
  | setJournal _ => exact plain.elim
  | _ => exact numbered

theorem Deed.not_slips (deed : Deed α (MemoryLog α)) (id : TransactionId) : ¬ deed.Slips ledger id := by
  intro slips
  obtain ⟨fault, fails⟩ := Deed.fails_of_slips slips
  exact MemoryLog.not_fails fault fails

omit [Scalar α] in
theorem Deed.IsPlain.keepsRecords {deed : Deed α (MemoryLog α)} (plain : deed.IsPlain) :
    deed.KeepsRecords ledger := by
  cases deed with
  | setJournal _ => exact plain.elim
  | _ => trivial

namespace Recorded

variable (recorded : Recorded (fun _ deed => deed.IsPlain) been ledger)

include recorded

theorem numbered : ledger.journal.Numbered := by
  induction recorded with
  | start settings journal blank =>
    have empty : journal.entries = [] := List.map_eq_nil_iff.mp blank
    change journal.Numbered
    rw [MemoryLog.Numbered, empty]
    rfl
  | step _ _ plain _ ih => exact Deed.keeps_numbered plain ih

theorem known_of_plain (id : TransactionId) : Known been ledger id :=
  (recorded.mono fun _ deed plain => ⟨plain.keepsRecords, deed.not_slips id⟩).known

theorem showsLast (id : TransactionId) : ledger.ShowsLast id := by
  induction recorded with
  | start settings journal blank =>
    intro record last
    change (Chronicle.about journal id).getLast? = some record at last
    rw [Chronicle.about, blank] at last
    contradiction
  | step before deed plain fresh ih =>
    have turn := (deed.turn plain.keepsRecords).2 fresh id
    exact ih.step (before.known_of_plain id) before.reachable.owned plain fresh (turn.imp (deed.not_slips id))

end Recorded

end Memory

/-- In a run whose journal is in memory and left to the ledger, and without direct rebalancing: the
envelopes are numbered from one, and the records of a transaction tell the story of its sessions. It is open,
closed or gone as the last record has it, and the record of a commit that is the last one shows it as it is. -/
theorem Recorded.journal_truthful {α : Type} [Scalar α] {ledger : Ledger α (MemoryLog α)}
    {been : Set TransactionId} (recorded : Recorded (fun _ deed => deed.IsPlain) been ledger) :
    ledger.journal.entries.map (·.sequence) = List.range' 1 ledger.journal.entries.length ∧
    ∀ id, let kinds := (ledger.journal.entriesFor id).map (·.kind)
      (id ∉ been → ledger.isOpen? id = none ∧ kinds = []) ∧
      (id ∈ been → kinds ∈ EventKind.story ∧
        (ledger.isOpen? id = some true ↔ kinds.getLast? = some .began) ∧
        (ledger.isOpen? id = none ↔ kinds.getLast? = some .destroyed) ∧
        (ledger.isOpen? id = some false ↔ kinds.getLast? = none ∨ kinds.getLast? = some .committed)) ∧
      ∀ record, (ledger.journal.entriesFor id).getLast? = some record → record.kind = .committed →
        ledger.snapshot id = .ok record.snapshot := by
  refine ⟨recorded.numbered, fun id => ?_⟩
  have known := recorded.known_of_plain id
  refine ⟨fun outside => ?_, fun inside => ?_, recorded.showsLast id⟩
  · obtain ⟨absent, silent⟩ := known.unborn outside
    exact ⟨absent, congrArg (List.map _) silent⟩
  · have tells := known.told inside
    exact ⟨EventKind.storyOf_le_story tells.word, tells.status_iff⟩

/-- Transaction 1 is numbered in a session, and a session of transaction 5 is begun twice. -/
def Deed.sessions : List (Deed Rat (MemoryLog Rat)) :=
  [.command .createTransaction, .command (.beginEdit ⟨.ofNat 1⟩ false),
    .command (.setNum ⟨.ofNat 1⟩ "5"), .command (.commitEdit ⟨.ofNat 1⟩), .command .createTransaction,
    .command (.beginEdit ⟨.ofNat 5⟩ false), .command (.beginEdit ⟨.ofNat 5⟩ true)]

/-- Transaction 5 is destroyed then, and transaction 1 is still as it was recorded. -/
theorem Recorded.journal_truthful_sessions :
    let ledger := ((Ledger.start ⟨.tolerant⟩ {}).after Deed.sessions).after
      [.command (.destroyTransaction ⟨.ofNat 5⟩)]
    ledger.journal.entries.map (·.sequence) = [1, 2, 3, 4, 5] ∧ ledger.isOpen? ⟨.ofNat 5⟩ = none ∧
      ∃ record, (ledger.journal.entriesFor ⟨.ofNat 1⟩).getLast? = some record ∧
        record.snapshot.num = "5" ∧ ledger.snapshot ⟨.ofNat 1⟩ = .ok record.snapshot := by
  intro ledger
  have start : Recorded (fun _ deed => deed.IsPlain) ∅
      (Ledger.start (α := Rat) ⟨.tolerant⟩ ({} : MemoryLog Rat)) := .start _ _ rfl
  obtain ⟨been, -, before⟩ := start.after Deed.sessions (by simp [Deed.sessions, Deed.IsPlain])
    (by decide +kernel)
  have inside : ⟨.ofNat 5⟩ ∈ been := before.mem_of_live (by decide +kernel)
  obtain ⟨later, grows, recorded⟩ := before.after [.command (.destroyTransaction ⟨.ofNat 5⟩)]
    (by simp [Deed.IsPlain]) (by decide +kernel)
  obtain ⟨numbered, truthful⟩ := Recorded.journal_truthful recorded
  refine ⟨numbered.trans (by decide +kernel), ?_, ?_⟩
  · refine ((truthful ⟨.ofNat 5⟩).2.1 (grows inside)).2.2.1.mpr ?_
    decide +kernel
  · have last : ((ledger.journal.entriesFor ⟨.ofNat 1⟩).getLast?.map fun record =>
        (record.kind, record.snapshot.num)) = some (.committed, "5") := by decide +kernel
    obtain ⟨record, isLast, same⟩ := Option.map_eq_some_iff.mp last
    obtain ⟨isKind, num⟩ := Prod.mk.inj same
    exact ⟨record, isLast, num, (truthful ⟨.ofNat 1⟩).2.2 record isLast isKind⟩

end DoubleEntry
