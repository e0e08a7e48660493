import DoubleEntry.Proofs.Unrecorded

/-! # What sessions record

A `Chronicle` is a journal that gives back what it has taken: the records that it accepted, in order. The
commands of a session are described here by all the ways in which they can end, with what they do to the
ledger and to its records: `Ledger.Begins`, `Ledger.Commits` and `Ledger.Discards`. Opening and closing a
session come before the record of it is written, and stay when it is refused; a transaction goes only after.
-/

namespace DoubleEntry

open DoubleEntry.Action Ledger

/-! ## Journals that can be read -/

/-- A journal with the records that it has taken. A refused record is not among them. -/
class Chronicle (J : Type) (α : outParam Type) extends Journal J α where
  records : J → List (Record α)
  records_openLog : ∀ log, records (openLog log).2 = records log
  records_accepted : ∀ {event record log}, (append event record log).1 = .ok () →
    records (append event record log).2 = records log ++ [record]
  records_refused : ∀ {event record log fault}, (append event record log).1 = .error fault →
    records (append event record log).2 = records log

/-- Some call of a journal fails in this way. -/
def Journal.Fails (J : Type) {α : Type} [Journal J α] (fault : JournalFault) : Prop :=
  (∃ log : J, (Journal.openLog log).1 = .error fault) ∨
    ∃ (event : Ident) (record : Record α) (log : J), (Journal.append event record log).1 = .error fault

/-- The records of one transaction, oldest first. -/
def Chronicle.about {J α : Type} [Chronicle J α] (log : J) (id : TransactionId) : List (Record α) :=
  (Chronicle.records log).filter fun record => record.subject = id

namespace MemoryLog

variable {α : Type}

instance : Chronicle (MemoryLog α) α where
  records log := log.entries.map (·.payload)
  records_openLog _ := rfl
  records_accepted _ := by simp [Journal.append, push, Envelope.wrap]
  records_refused := nofun

theorem not_fails (fault : JournalFault) : ¬ Journal.Fails (MemoryLog α) fault := by
  rintro (⟨_, _⟩ | ⟨_, _, _, _⟩) <;> contradiction

end MemoryLog

/-- Any journal, with a list of what it has taken beside it. -/
structure Transcript (J α : Type) where
  journal : J
  taken : List (Record α) := []

namespace Transcript

variable {J α : Type} [Journal J α]

instance : Journal (Transcript J α) α where
  openLog log := ((Journal.openLog log.journal).1, { log with journal := (Journal.openLog log.journal).2 })
  append event record log :=
    match Journal.append event record log.journal with
    | (.ok (), journal) => (.ok (), { journal, taken := log.taken ++ [record] })
    | (.error fault, journal) => (.error fault, { log with journal })

instance : Chronicle (Transcript J α) α where
  records log := log.taken
  records_openLog _ := rfl
  records_accepted {event record log} accepted := by
    simp only [Journal.append] at accepted ⊢
    split at accepted <;> simp_all
  records_refused {event record log fault} refused := by
    simp only [Journal.append] at refused ⊢
    split at refused <;> simp_all

end Transcript

/-! ## A record -/

section Writing

variable {α J : Type} {ledger before after : Ledger α J} {id : TransactionId} {kind : EventKind}

/-- Whether a transaction is open, if it is there. -/
def Ledger.isOpen? (ledger : Ledger α J) (id : TransactionId) : Option Bool :=
  (ledger.transaction? id).map (·.edit.isOpen)

theorem Ledger.isOpen?_eq_of_sameEdits (same : Upkeep.SameEdits before after) :
    after.isOpen? = before.isOpen? := by
  funext id
  have edit := congrArg (Option.map EditState.isOpen) (same id)
  rw [Option.map_map, Option.map_map] at edit
  exact edit

theorem Ledger.isOpen?_eq_some_iff {isOpen : Bool} : ledger.isOpen? id = some isOpen ↔
    ∃ transaction, ledger.transaction? id = some transaction ∧ transaction.edit.isOpen = isOpen :=
  Option.map_eq_some_iff

theorem Ledger.isSome_isOpen? : (ledger.isOpen? id).isSome = (ledger.transaction? id).isSome :=
  Option.isSome_map ..

theorem Ledger.isOpen?_congr (same : after.transactions = before.transactions) :
    after.isOpen? = before.isOpen? :=
  isOpen?_eq_of_sameEdits fun id => by rw [transaction?, same, transaction?]

theorem Ledger.isOpen?_setEditState (live : (ledger.transaction? id).isSome) (edit : EditState) :
    (ledger.modifyTransaction id fun t => { t with edit }).isOpen? =
      Function.update ledger.isOpen? id (some edit.isOpen) := by
  funext other
  rw [isOpen?, transaction?_modifyTransaction, Function.update_apply]
  obtain ⟨transaction, found⟩ := Option.isSome_iff_exists.mp live
  split
  · simp [found]
  · rfl

theorem Ledger.snapshot_of_live (live : (ledger.transaction? id).isSome) :
    ∃ snapshot, ledger.snapshot id = .ok snapshot ∧ snapshot.transaction = id := by
  obtain ⟨transaction, found⟩ := Option.isSome_iff_exists.mp live
  rw [snapshot, transaction_eq_ok_iff.mpr found]
  exact ⟨_, rfl, rfl⟩

theorem Action.ends_toJournal {call : J → Except JournalFault Unit × J}
    {property : Except Fault Unit → Ledger α J → Prop} : (toJournal call).Ends ledger property ↔
      property ((call ledger.journal).1.mapError JournalFault.toFault)
        { ledger with journal := (call ledger.journal).2 } := .rfl

variable [Chronicle J α]

/-- How writing a record of a transaction ends: the journal accepts it, or fails and has it not. Apart from
the journal, only the number of identifiers given out may change. -/
inductive Ledger.Writes (ledger : Ledger α J) (kind : EventKind) (id : TransactionId) :
    Except Fault Unit → Ledger α J → Prop
  | accepted (record : Record α) (isKind : record.kind = kind)
    (isSnapshot : ledger.snapshot id = .ok record.snapshot) (journal : J)
    (told : Chronicle.records journal = Chronicle.records ledger.journal ++ [record]) (minted : Nat)
    (grows : ledger.minted ≤ minted) : ledger.Writes kind id (.ok ()) { ledger with journal, minted }
  | refused (fault : JournalFault) (fails : Journal.Fails J fault) (journal : J)
    (told : Chronicle.records journal = Chronicle.records ledger.journal) (minted : Nat)
    (grows : ledger.minted ≤ minted) :
    ledger.Writes kind id (.error fault.toFault) { ledger with journal, minted }

theorem Action.ends_writeRecord (live : (ledger.transaction? id).isSome) (kind : EventKind) :
    (writeRecord kind id).Ends ledger (ledger.Writes kind id) := by
  obtain ⟨snapshot, isSnapshot, -⟩ := Ledger.snapshot_of_live live
  rw [writeRecord, ends_bind, ends_ask, isSnapshot]
  simp only [ends_bind, ends_read, ends_mint, ends_toJournal]
  cases answer : (Journal.append (Ident.ofNat ledger.minted) ⟨kind, snapshot, ledger.now⟩
    ledger.journal).1 with
  | ok _ =>
    exact .accepted ⟨kind, snapshot, ledger.now⟩ rfl isSnapshot _ (Chronicle.records_accepted answer) _
      (Nat.le_succ _)
  | error fault =>
    exact .refused fault (.inr ⟨_, _, _, answer⟩) _ (Chronicle.records_refused answer) _ (Nat.le_succ _)

/-- A journal may also fail when it is opened. -/
theorem Action.ends_openLog_writeRecord (live : (ledger.transaction? id).isSome) (kind : EventKind) :
    (toJournal Journal.openLog >>= fun _ => writeRecord kind id).Ends ledger (ledger.Writes kind id) := by
  have same := Chronicle.records_openLog ledger.journal
  rw [ends_bind, ends_toJournal]
  cases answer : (Journal.openLog ledger.journal).1 with
  | error fault => exact .refused fault (.inl ⟨_, answer⟩) _ same _ le_rfl
  | ok _ =>
    refine (ends_writeRecord (by exact live) kind).imp fun result after writes => ?_
    cases writes with
    | accepted record isKind isSnapshot journal told minted grows =>
      have shows : ledger.snapshot id = .ok record.snapshot := isSnapshot
      exact .accepted record isKind shows journal (told.trans (congrArg (· ++ [record]) same)) minted grows
    | refused fault fails journal told minted grows =>
      exact .refused fault fails journal (told.trans same) minted grows

/-! ## Sessions -/

/-- A session is open with what it says about rebalancing. -/
structure Ledger.Opened (before : Ledger α J) (id : TransactionId) (defer : Bool) (after : Ledger α J) :
    Prop where
  live : (before.isOpen? id).isSome
  edit : (after.transaction? id).map (·.edit) = some (.editing defer)
  status : after.isOpen? = Function.update before.isOpen? id (some true)
  grows : before.minted ≤ after.minted

/-- A session is over. -/
structure Ledger.Closed (before : Ledger α J) (id : TransactionId) (after : Ledger α J) : Prop where
  wasOpen : before.isOpen? id = some true
  status : after.isOpen? = Function.update before.isOpen? id (some false)
  grows : before.minted ≤ after.minted

end Writing

section Sessions

variable {α J : Type} [Chronicle J α] {ledger before after : Ledger α J} {id : TransactionId}

/-- How opening a session ends. Once the transaction is found the session is open, whatever the journal
does. -/
inductive Ledger.Begins (before : Ledger α J) (id : TransactionId) (defer : Bool) :
    Except Fault Unit → Ledger α J → Prop
  | absent (missing : before.transaction? id = none) :
    before.Begins id defer (.error (.missing (.transaction id))) before
  | told {after : Ledger α J} (opened : before.Opened id defer after) (record : Record α)
    (isKind : record.kind = .began) (isSnapshot : after.snapshot id = .ok record.snapshot)
    (told : Chronicle.records after.journal = Chronicle.records before.journal ++ [record]) :
    before.Begins id defer (.ok ()) after
  | untold {after : Ledger α J} (opened : before.Opened id defer after) (fault : JournalFault)
    (fails : Journal.Fails J fault)
    (told : Chronicle.records after.journal = Chronicle.records before.journal) :
    before.Begins id defer (.error fault.toFault) after

omit [Chronicle J α] in
theorem Ledger.opened_of_transactions {defer : Bool} (live : (before.transaction? id).isSome)
    (transactions : after.transactions =
      (before.modifyTransaction id fun t => { t with edit := .editing defer }).transactions)
    (grows : before.minted ≤ after.minted) : before.Opened id defer after := by
  refine ⟨isSome_isOpen?.trans live, ?_,
    (isOpen?_congr transactions).trans (isOpen?_setEditState live _), grows⟩
  obtain ⟨transaction, found⟩ := Option.isSome_iff_exists.mp live
  have edited : after.transaction? id = some { transaction with edit := .editing defer } := by
    rw [transaction?, transactions]
    change (before.modifyTransaction id _).transaction? id = _
    rw [transaction?_modifyTransaction, if_pos rfl, found, Option.map_some]
  rw [edited, Option.map_some]

theorem Action.ends_beginEdit (id : TransactionId) (defer : Bool) :
    (beginEdit id defer).Ends ledger (ledger.Begins id defer) := by
  rw [beginEdit, ends_bind, ends_ask]
  cases found : ledger.transaction? id with
  | none =>
    rw [Ledger.transaction, found]
    exact .absent found
  | some transaction =>
    rw [transaction_eq_ok_iff.mpr found]
    dsimp only
    rw [setEditState, ends_bind, ends_update]
    have live : (ledger.transaction? id).isSome := found ▸ rfl
    refine (ends_openLog_writeRecord ((isSome_transaction?_modifyTransaction ..).trans live) .began).imp
      fun result after writes => ?_
    cases writes with
    | accepted record isKind isSnapshot journal told minted grows =>
      exact .told (by exact opened_of_transactions live rfl grows) record isKind isSnapshot told
    | refused fault fails journal told minted grows =>
      exact .untold (by exact opened_of_transactions live rfl grows) fault fails told

/-- How closing a session ends, once its transaction is balanced. -/
inductive Ledger.Closes (before : Ledger α J) (id : TransactionId) :
    Except Fault Unit → Ledger α J → Prop
  | told {after : Ledger α J} (closed : before.Closed id after) (record : Record α)
    (isKind : record.kind = .committed) (isSnapshot : after.snapshot id = .ok record.snapshot)
    (told : Chronicle.records after.journal = Chronicle.records before.journal ++ [record]) :
    before.Closes id (.ok ()) after
  | untold {after : Ledger α J} (closed : before.Closed id after) (fault : JournalFault)
    (fails : Journal.Fails J fault)
    (told : Chronicle.records after.journal = Chronicle.records before.journal) :
    before.Closes id (.error fault.toFault) after

theorem Ledger.Closes.since {first : Ledger α J} {result : Except Fault Unit}
    (closes : before.Closes id result after) (status : before.isOpen? = first.isOpen?)
    (journal : before.journal = first.journal) (grows : first.minted ≤ before.minted) :
    first.Closes id result after := by
  have closed (closed : before.Closed id after) : first.Closed id after :=
    ⟨status ▸ closed.wasOpen, status ▸ closed.status, grows.trans closed.grows⟩
  cases closes with
  | told isClosed record isKind isSnapshot told =>
    exact .told (closed isClosed) record isKind isSnapshot (journal ▸ told)
  | untold isClosed fault fails told => exact .untold (closed isClosed) fault fails (journal ▸ told)

/-- How committing a session ends. Only balancing can fail with the session still open; once the
transaction is balanced it is closed, whatever the journal does. -/
inductive Ledger.Commits (before : Ledger α J) (id : TransactionId) :
    Except Fault Unit → Ledger α J → Prop
  | refused (notOpen : before.isOpen? id ≠ some true) (fault : Fault)
    (own : ∀ message, fault ≠ .journal message) : before.Commits id (.error fault) before
  | unbalanced {after : Ledger α J} (wasOpen : before.isOpen? id = some true) (fault : Fault)
    (own : ∀ message, fault ≠ .journal message) (status : after.isOpen? = before.isOpen?)
    (journal : after.journal = before.journal) (grows : before.minted ≤ after.minted) :
    before.Commits id (.error fault) after
  | balanced {result : Except Fault Unit} {after : Ledger α J} (closes : before.Closes id result after) :
    before.Commits id result after

omit [Chronicle J α] in
theorem Ledger.checkOpen_eq_ok_iff_isOpen? :
    ledger.checkOpen id = .ok () ↔ ledger.isOpen? id = some true :=
  checkOpen_eq_ok_iff.trans isOpen?_eq_some_iff.symm

omit [Chronicle J α] in
theorem Ledger.live_of_isOpen? {isOpen : Bool} (status : ledger.isOpen? id = some isOpen) :
    (ledger.transaction? id).isSome := by
  obtain ⟨transaction, found, -⟩ := isOpen?_eq_some_iff.mp status
  exact found ▸ rfl

variable [Scalar α]

theorem Action.ends_closeEdit (wasOpen : ledger.isOpen? id = some true) :
    (closeEdit id).Ends ledger (ledger.Closes id) := by
  obtain ⟨transaction, found, -⟩ := isOpen?_eq_some_iff.mp wasOpen
  rw [closeEdit, ends_bind, ends_ask, transaction_eq_ok_iff.mpr found]
  simp only [ends_bind, ends_update, setEditState]
  have quiet : ledger.Unrecorded
      ((ledger.restoreOrder transaction.splits).recomputeAll transaction.splits) :=
    (Unrecorded.restoreOrder _ ledger).trans (Unrecorded.recomputeAll _ _)
  generalize (ledger.restoreOrder transaction.splits).recomputeAll transaction.splits = settled
    at quiet ⊢
  have status := isOpen?_eq_of_sameEdits quiet.edits
  have live : (settled.transaction? id).isSome := live_of_isOpen? (by rw [status, wasOpen])
  have closes {after : Ledger α J} (transactions : after.transactions =
      (settled.modifyTransaction id fun t => { t with edit := .closed }).transactions)
      (grows : settled.minted ≤ after.minted) : ledger.Closed id after := by
    refine ⟨wasOpen, ?_, quiet.grows.trans grows⟩
    rw [isOpen?_congr transactions, isOpen?_setEditState live, status]
    rfl
  refine (ends_writeRecord ((isSome_transaction?_modifyTransaction ..).trans live) .committed).imp
    fun result after writes => ?_
  cases writes with
  | accepted record isKind isSnapshot journal told minted grows =>
    exact .told (by exact closes rfl grows) record isKind isSnapshot (quiet.journal ▸ told)
  | refused fault fails journal told minted grows =>
    exact .untold (by exact closes rfl grows) fault fails (quiet.journal ▸ told)

theorem Action.ends_commitEdit (id : TransactionId) :
    (commitEdit id).Ends ledger (ledger.Commits id) := by
  rw [commitEdit_eq, ends_bind, ensureOpen_eq, ends_ask]
  cases isOpen : ledger.checkOpen id with
  | error fault =>
    have notOpen : ledger.isOpen? id ≠ some true := fun status => by
      rw [← checkOpen_eq_ok_iff_isOpen?, isOpen] at status
      contradiction
    have own : SparesJournal (ledger.checkOpen id) :=
      (SparesJournal.transaction id).bind fun _ => SparesJournal.ite .ok nofun
    exact .refused notOpen fault fun message same => own message (isOpen.trans (congrArg _ same))
  | ok _ =>
    have wasOpen := checkOpen_eq_ok_iff_isOpen?.mp isOpen
    have live := live_of_isOpen? wasOpen
    simp only [ends_bind, ends_update, setEditState]
    have status := isOpen?_setEditState live (.editing false)
    have unchanged : Function.update ledger.isOpen? id (some true) = ledger.isOpen? :=
      wasOpen ▸ Function.update_eq_self id ledger.isOpen?
    rw [show (EditState.editing false).isOpen = true from rfl, unchanged] at status
    have quiet := keeps_rebalanceTransaction Unrecorded.keeps_rebalanceSplit id _
      (Unrecorded.refl (ledger.modifyTransaction id fun t => { t with edit := .editing false }))
    refine (Ends.and quiet (SparesJournal.ends_rebalanceTransaction id)).imp ?_
    rintro (fault | _) after ⟨quiet, own⟩
    · exact .unbalanced wasOpen fault (fun message same => own message (congrArg _ same))
        ((isOpen?_eq_of_sameEdits quiet.edits).trans status) quiet.journal quiet.grows
    · have same := (isOpen?_eq_of_sameEdits quiet.edits).trans status
      refine (ends_closeEdit (same ▸ wasOpen)).imp fun result last closes => ?_
      exact .balanced (closes.since same quiet.journal quiet.grows)

/-! ## Destruction -/

/-- How destroying a transaction ends: it goes once that is recorded, and stays if it is not. -/
inductive Ledger.Discards (before : Ledger α J) (id : TransactionId) :
    Except Fault Unit → Ledger α J → Prop
  | told {after : Ledger α J} (record : Record α) (isKind : record.kind = .destroyed)
    (isSnapshot : before.snapshot id = .ok record.snapshot)
    (status : after.isOpen? = Function.update before.isOpen? id none)
    (told : Chronicle.records after.journal = Chronicle.records before.journal ++ [record])
    (grows : before.minted ≤ after.minted) : before.Discards id (.ok ()) after
  | untold {after : Ledger α J} (fault : JournalFault) (status : after.isOpen? = before.isOpen?)
    (told : Chronicle.records after.journal = Chronicle.records before.journal)
    (grows : before.minted ≤ after.minted) : before.Discards id (.error fault.toFault) after

omit [Chronicle J α] [Scalar α] in
theorem Ledger.isOpen?_eraseTransaction : { ledger with
    transactions := ledger.transactions.erase id }.isOpen? = Function.update ledger.isOpen? id none := by
  funext other
  rw [isOpen?, transaction?, Table.get?_erase, Function.update_apply]
  split <;> rfl

theorem Action.ends_discardTransaction (live : (ledger.transaction? id).isSome) :
    (discardTransaction id).Ends ledger (ledger.Discards id) := by
  rw [discardTransaction, ends_bind]
  refine (ends_writeRecord live .destroyed).imp fun result after writes => ?_
  cases writes with
  | refused fault fails journal told minted grows => exact .untold fault rfl told grows
  | accepted record isKind isSnapshot journal told minted grows =>
    obtain ⟨transaction, found⟩ := Option.isSome_iff_exists.mp live
    have still : Ledger.transaction { ledger with journal, minted } id = .ok transaction :=
      transaction_eq_ok_iff.mpr found
    dsimp only
    rw [ends_bind, ends_ask, still]
    simp only [ends_bind, ends_update]
    have quiet := Unrecorded.eraseSplits transaction.splits { ledger with journal, minted }
    generalize transaction.splits.foldl (fun ledger split => (ledger.mark split).eraseSplit split)
      { ledger with journal, minted } = erased at quiet ⊢
    refine .told record isKind isSnapshot ?_ ?_ (grows.trans quiet.grows)
    · rw [isOpen?_eraseTransaction, isOpen?_eq_of_sameEdits quiet.edits]
      rfl
    · exact (congrArg Chronicle.records quiet.journal).trans told

end Sessions

end DoubleEntry
