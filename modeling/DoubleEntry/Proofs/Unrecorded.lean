import DoubleEntry.Proofs.Sealed
import DoubleEntry.Proofs.Upkeep.Membership

/-! # What is not recorded

The journal hears of edit sessions alone. Every command outside them leaves the journal as it is, and opens
and closes, creates and removes no transaction (`Unrecorded.keeps_act`), wherever it may fail. The creation
of a transaction is not recorded either, but does bring in a transaction, so it counts among the commands of
sessions here. Rebalancing, which is part of a commit, fails for reasons of its own (`SparesJournal`).
-/

namespace DoubleEntry

open DoubleEntry.Action

/-- The commands that open or close transactions, or make them come or go. -/
def Command.isSession {α : Type} : Command α → Bool
  | .createTransaction | .beginEdit _ _ | .commitEdit _ | .destroyTransaction _ | .destroySplit _ => true
  | _ => false

/-- The journal is the same, and so is which transactions there are and which of them are open. -/
structure Ledger.Unrecorded {α J : Type} (before after : Ledger α J) : Prop where
  journal : after.journal = before.journal
  edits : Upkeep.SameEdits before after
  grows : before.minted ≤ after.minted

namespace Ledger.Unrecorded

variable {α J : Type} {start before ledger after : Ledger α J}

theorem refl (ledger : Ledger α J) : ledger.Unrecorded ledger := ⟨rfl, fun _ => rfl, le_rfl⟩

theorem trans (first : before.Unrecorded ledger) (second : ledger.Unrecorded after) :
    before.Unrecorded after where
  journal := second.journal.trans first.journal
  edits id := (second.edits id).trans (first.edits id)
  grows := first.grows.trans second.grows

theorem of_transactions (journal : after.journal = before.journal)
    (transactions : after.transactions = before.transactions) (grows : before.minted ≤ after.minted) :
    before.Unrecorded after :=
  ⟨journal, fun id => by rw [transaction?, transactions, transaction?], grows⟩

theorem foldl {ι : Type} {step : Ledger α J → ι → Ledger α J}
    (each : ∀ (ledger : Ledger α J) item, ledger.Unrecorded (step ledger item)) (items : List ι)
    (ledger : Ledger α J) : ledger.Unrecorded (items.foldl step ledger) := by
  induction items generalizing ledger with
  | nil => exact refl ledger
  | cons item rest ih => exact trans (each ledger item) (ih _)

/-! ## Single changes -/

theorem modifySplit (id : SplitId) (change : Split α → Split α) (ledger : Ledger α J) :
    ledger.Unrecorded (ledger.modifySplit id change) := of_transactions rfl rfl le_rfl

theorem modifyTransaction {change : Transaction → Transaction}
    (stays : ∀ transaction, (change transaction).edit = transaction.edit) (id : TransactionId)
    (ledger : Ledger α J) : ledger.Unrecorded (ledger.modifyTransaction id change) :=
  ⟨rfl, Upkeep.sameEdits_modifyTransaction stays, le_rfl⟩

theorem mark (split : SplitId) (ledger : Ledger α J) : ledger.Unrecorded (ledger.mark split) := by
  unfold Ledger.mark
  split
  · exact of_transactions rfl rfl le_rfl
  · exact refl ledger

theorem markTransaction (id : TransactionId) (ledger : Ledger α J) :
    ledger.Unrecorded (ledger.markTransaction id) :=
  foldl (fun ledger split => mark split ledger) _ ledger

theorem restoreOrder (splits : List SplitId) (ledger : Ledger α J) :
    ledger.Unrecorded (ledger.restoreOrder splits) := by
  refine foldl (fun ledger split => ?_) splits ledger
  split
  · exact refl ledger
  · exact of_transactions rfl rfl le_rfl

section Recomputing

variable [Scalar α]

theorem recompute (account : AccountId) (ledger : Ledger α J) :
    ledger.Unrecorded (ledger.recompute account) :=
  foldl (fun ledger (balance : SplitId × RunningBalance α) => modifySplit balance.1 _ ledger) _ ledger

theorem recompute? (account : Option AccountId) (ledger : Ledger α J) :
    ledger.Unrecorded (ledger.recompute? account) := by
  cases account with
  | none => exact refl ledger
  | some account => exact recompute account ledger

theorem recomputeAll (splits : List SplitId) (ledger : Ledger α J) :
    ledger.Unrecorded (ledger.recomputeAll splits) :=
  foldl (fun ledger account => recompute account ledger) _ ledger

theorem leaveAccount (split : SplitId) (ledger : Ledger α J) :
    ledger.Unrecorded (ledger.leaveAccount split) := by
  unfold Ledger.leaveAccount
  split
  · rename_i account _
    have left : ledger.Unrecorded (ledger.leaveRegister account split) := of_transactions rfl rfl le_rfl
    exact left.trans (recompute account _)
  · exact refl ledger

theorem eraseSplit (split : SplitId) (ledger : Ledger α J) :
    ledger.Unrecorded (ledger.eraseSplit split) :=
  trans (leaveAccount split ledger) (of_transactions rfl rfl le_rfl)

theorem eraseSplits (splits : List SplitId) (ledger : Ledger α J) : ledger.Unrecorded
    (splits.foldl (fun ledger split => (ledger.mark split).eraseSplit split) ledger) :=
  foldl (fun ledger split => trans (mark split ledger) (eraseSplit split _)) splits ledger

end Recomputing

/-! ## Steps -/

theorem keeps {change : Ledger α J → Ledger α J}
    (each : ∀ ledger : Ledger α J, ledger.Unrecorded (change ledger)) :
    Keeps start.Unrecorded (update change) :=
  keeps_update fun ledger held => trans held (each ledger)

theorem keeps_mint : Keeps start.Unrecorded mint :=
  fun _ held => trans held (of_transactions rfl rfl (Nat.le_succ _))

theorem keeps_enterRegister (account : AccountId) (split : SplitId) :
    Keeps start.Unrecorded (enterRegister account split) :=
  keeps_read.bind fun _ => Keeps.ite (keeps fun _ => of_transactions rfl rfl le_rfl) keeps_report

theorem keeps_editSplit (id : SplitId) (change : Split α → Split α) :
    Keeps start.Unrecorded (editSplit id change) :=
  (keeps_ensureEditable id).bind fun _ => (keeps (modifySplit id change)).bind fun _ => keeps (mark id)

theorem keeps_editTransaction {change : Transaction → Transaction}
    (stays : ∀ transaction, (change transaction).edit = transaction.edit) (id : TransactionId) :
    Keeps start.Unrecorded (editTransaction id change) :=
  (keeps_ensureOpen id).bind fun _ => (keeps (modifyTransaction stays id)).bind fun _ =>
    keeps (markTransaction id)

theorem keeps_reposition (split : SplitId) : Keeps start.Unrecorded (reposition split) := by
  refine keeps_read.bind fun account? => ?_
  cases account? with
  | none => exact keeps_pure
  | some account =>
    have left : Keeps start.Unrecorded (update (·.leaveRegister account split)) :=
      keeps fun _ => of_transactions rfl rfl le_rfl
    exact left.bind fun _ => keeps_enterRegister account split

theorem keeps_setPosted (id : TransactionId) (posted : Instant) :
    Keeps start.Unrecorded (setPosted id posted) :=
  (keeps_ensureOpen id).bind fun _ =>
    (keeps (modifyTransaction (by exact fun _ => rfl) id)).bind fun _ =>
      keeps_read.bind fun _ => (keeps_forM fun split _ => keeps_reposition split).bind fun _ =>
        keeps (markTransaction id)

theorem keeps_setDates (id : TransactionId) (date : Instant) :
    Keeps start.Unrecorded (setDates id date) :=
  (keeps_ensureOpen id).bind fun _ =>
    (keeps (modifyTransaction (by exact fun _ => rfl) id)).bind fun _ => keeps_setPosted id date

theorem keeps_setDay (id : TransactionId) (day month : Nat) (year : Int) :
    Keeps start.Unrecorded (setDay id day month year) := by
  unfold setDay
  split
  · exact keeps_setDates id _
  · exact keeps_raise

theorem keeps_setCaptionOf (id : SplitId) (caption : Caption) (text : String) :
    Keeps start.Unrecorded (setCaptionOf id caption text) :=
  keeps_ask.bind fun _ => (keeps (modifySplit id _)).bind fun _ => keeps (mark id)

variable [Scalar α]

theorem keeps_setCaption (id : TransactionId) (caption : Caption) (text : String) :
    Keeps start.Unrecorded (setCaption id caption text) := by
  refine (keeps_ensureOpen id).bind fun _ => keeps_ask.bind fun transaction => ?_
  have sets (split : SplitId) : Keeps start.Unrecorded (setCaptionOf split caption text) :=
    keeps_setCaptionOf split caption text
  rcases transaction.splits with _ | ⟨first, _ | ⟨second, _ | ⟨third, rest⟩⟩⟩
  · exact keeps_raise
  · exact keeps_read.bind fun _ =>
      (keeps_ask.bind fun _ => (sets first).ite keeps_raise).ite (sets first)
  · exact (sets first).bind fun _ => sets second
  · exact sets first

theorem keeps_setReconcile (id : SplitId) (state : Reconcile) :
    Keeps start.Unrecorded (setReconcile id state) :=
  (keeps_editSplit id _).bind fun _ => keeps_ask.bind fun split => keeps (recompute? (Split.account split))

theorem keeps_applyWorth (id : SplitId) (value : α) (base : Option Commodity) :
    Keeps start.Unrecorded (applyWorth id value base) := by
  refine keeps_ask.bind fun split => keeps_ask.bind fun valuation => ?_
  cases valuation with
  | priced =>
    exact (keeps_report.bind fun _ => keeps_pure).ite ((keeps (modifySplit id _)).bind fun _ => keeps_pure)
  | shares => exact (keeps (modifySplit id _)).bind fun _ => keeps_pure
  | inexpressible => exact keeps_report.bind fun _ => keeps_pure

theorem keeps_setSplitWorth (id : SplitId) (value : α) (base : Option Commodity) :
    Keeps start.Unrecorded (setSplitWorth id value base) :=
  (keeps_ensureFinite _ _).bind fun _ => (keeps_ensureEditable id).bind fun _ =>
    (keeps_applyWorth id value base).bind fun _ => keeps (mark id)

/-! ## Rebalancing -/

theorem keeps_absorb (transaction : TransactionId) (target : SplitId) (base : Option Commodity) :
    Keeps start.Unrecorded (absorb transaction target base) :=
  keeps_ask.bind fun _ => (keeps_applyWorth target _ base).bind fun _ => keeps_read.bind fun _ =>
    (keeps_ask.bind fun _ => keeps_raise).ite <|
      (keeps (mark target)).bind fun _ => keeps_ask.bind fun split =>
        keeps (recompute? (Split.account split))

theorem keeps_settle {lone : TransactionId → SplitId → Action α J Unit}
    (pairs : ∀ transaction source, Keeps start.Unrecorded (lone transaction source)) (edited : SplitId) :
    Keeps start.Unrecorded (settle lone edited) := by
  rw [settle_eq]
  refine keeps_ask.bind fun settlement => ?_
  cases settlement with
  | rest => exact keeps_pure
  | absorb transaction target base => exact keeps_absorb transaction target base
  | pair transaction source => exact pairs transaction source

omit [Scalar α] in
theorem keeps_adopt {settles : SplitId → Action α J Unit}
    (settled : ∀ split, Keeps start.Unrecorded (settles split)) (id : TransactionId) (split : SplitId) :
    Keeps start.Unrecorded (adopt settles id split) :=
  (keeps (modifySplit split _)).bind fun _ =>
    (keeps (modifyTransaction (by exact fun _ => rfl) id)).bind fun _ =>
      (keeps (mark split)).bind fun _ => settled split

omit [Scalar α] in
theorem keeps_insertSplit (id : SplitId) (split : Split α) : Keeps start.Unrecorded
    (update fun ledger => { ledger with splits := ledger.splits.insert id split }) :=
  keeps fun _ => of_transactions rfl rfl le_rfl

theorem keeps_addCounterpart (transaction : TransactionId) (source : SplitId) :
    Keeps start.Unrecorded (addCounterpart transaction source) := by
  refine keeps_ask.bind fun split => keeps_mint.bind fun ident => (keeps_insertSplit _ _).bind fun _ =>
    (keeps_adopt (keeps_settle fun _ _ => keeps_pure) transaction _).bind fun _ => ?_
  cases split.account with
  | none => exact keeps_pure
  | some account =>
    exact (keeps_enterRegister account ⟨ident⟩).bind fun _ => keeps (recompute account)

theorem keeps_rebalanceSplit (edited : SplitId) : Keeps start.Unrecorded (rebalanceSplit edited) :=
  keeps_settle keeps_addCounterpart edited

theorem keeps_editNumbers (id : SplitId) (change : Split α → Split α) :
    Keeps start.Unrecorded (editNumbers id change) :=
  (keeps_ensureEditable id).bind fun _ => (keeps (mark id)).bind fun _ =>
    (keeps (modifySplit id change)).bind fun _ => keeps_rebalanceSplit id

theorem keeps_setValue (id : SplitId) (value : α) : Keeps start.Unrecorded (setValue id value) :=
  (keeps_ensureFinite _ _).bind fun _ => (keeps_ensureEditable id).bind fun _ =>
    keeps_ask.bind fun _ => keeps_raise.ite (keeps_editNumbers id _)

/-! ## Membership -/

theorem keeps_createSplit : Keeps start.Unrecorded createSplit :=
  keeps_mint.bind fun _ => (keeps_insertSplit _ _).bind fun _ => keeps_pure

theorem keeps_discardSplit (id : SplitId) : Keeps start.Unrecorded (discardSplit id) := by
  refine keeps_ask.bind fun split => ?_
  cases split.parent with
  | none => exact keeps (eraseSplit id)
  | some _ => exact keeps_raise

/-- A move that is taken back leaves nothing to record either. -/
theorem keeps_release (owner : TransactionId) (split : SplitId) :
    Keeps start.Unrecorded (release owner split) := by
  refine keeps_release_of (fun ledger held => ?_) (fun ledger place held => ?_) keeps_rebalanceSplit
  · exact trans (trans held (modifyTransaction (by exact fun _ => rfl) owner ledger)) (modifySplit split _ _)
  · cases place with
    | none => exact held
    | some index =>
      exact trans (trans held (modifyTransaction (by exact fun _ => rfl) owner ledger))
        (modifySplit split _ _)

theorem keeps_appendSplit (id : TransactionId) (split : SplitId) :
    Keeps start.Unrecorded (appendSplit id split) :=
  keeps_appendSplit_of (fun ledger held => trans held (modifyTransaction (by exact fun _ => rfl) id ledger))
    (fun owner => keeps_release owner split) (keeps_adopt keeps_rebalanceSplit id split)

omit [Scalar α] in
theorem keeps_removeSplit (id : TransactionId) (split : SplitId) :
    Keeps start.Unrecorded (removeSplit id split) :=
  (keeps_ensureOpen id).bind fun _ => keeps_ask.bind fun _ => keeps_raise.ite <| keeps_raise.ite <|
    (keeps (modifyTransaction (by exact fun _ => rfl) id)).bind fun _ =>
      (keeps (modifySplit split _)).bind fun _ => keeps (mark split)

theorem keeps_enterAccount (account : AccountId) (split : SplitId) :
    Keeps start.Unrecorded (enterAccount account split) :=
  keeps_ask.bind fun _ => (keeps_ensureEditable split).bind fun _ =>
    (keeps (leaveAccount split)).bind fun _ => (keeps (modifySplit split _)).bind fun _ =>
      (keeps_enterRegister account split).bind fun _ => keeps (recompute account)

theorem keeps_leaveAccount (split : SplitId) : Keeps start.Unrecorded (Action.leaveAccount split) :=
  (keeps_ensureEditable split).bind fun _ => (keeps (leaveAccount split)).bind fun _ =>
    keeps (modifySplit split _)

/-- A split that goes, and the rest rebalanced. -/
theorem keeps_removal (owner : TransactionId) (split : SplitId) : Keeps start.Unrecorded (do
    update (·.mark split)
    update (·.modifyTransaction owner (·.drop split))
    update (·.eraseSplit split)
    rebalanceTransaction owner) := by
  have dropped (transaction : Transaction) : (transaction.drop split).edit = transaction.edit := rfl
  exact (keeps (mark split)).bind fun _ => (keeps (modifyTransaction dropped owner)).bind fun _ =>
    (keeps (eraseSplit split)).bind fun _ => keeps_rebalanceTransaction keeps_rebalanceSplit owner

/-! ## All commands -/

/-- What is asked of a ledger outside sessions is not recorded, and neither opens nor closes a transaction. -/
theorem keeps_act [Journal J α] {command : Command α} (outside : command.isSession = false) :
    Keeps start.Unrecorded (command.act (J := J)) := by
  cases command with
  | createSplit => exact keeps_createSplit.bind fun _ => keeps_pure
  | discardSplit split => exact keeps_done (keeps_discardSplit split)
  | setPriceAndAmount split _ _ =>
    exact keeps_done <| (keeps_ensureFinite _ _).bind fun _ => (keeps_ensureFinite _ _).bind fun _ =>
      keeps_editNumbers split _
  | setPrice split _ | setAmount split _ =>
    exact keeps_done <| (keeps_ensureFinite _ _).bind fun _ => keeps_editNumbers split _
  | setValue split value => exact keeps_done (keeps_setValue split value)
  | setMemo split _ | setAction split _ | setSplitDocref split _ | setReconciledOn split _ =>
    exact keeps_done (keeps_editSplit split _)
  | setReconcile split state => exact keeps_done (keeps_setReconcile split state)
  | setNum id _ | setDescription id _ | setDocref id _ | setEntered id _ =>
    exact keeps_done (keeps_editTransaction (by exact fun _ => rfl) id)
  | setPosted id date => exact keeps_done (keeps_setPosted id date)
  | setDay id day month year => exact keeps_done (keeps_setDay id day month year)
  | setToday id => exact keeps_done (keeps_read.bind fun _ => keeps_setDates id _)
  | setCaption id caption text => exact keeps_done (keeps_setCaption id caption text)
  | appendSplit id split => exact keeps_done (keeps_appendSplit id split)
  | removeSplit id split => exact keeps_done (keeps_removeSplit id split)
  | enterAccount account split => exact keeps_done (keeps_enterAccount account split)
  | leaveAccount split => exact keeps_done (keeps_leaveAccount split)
  | setSplitWorth split value base => exact keeps_done (keeps_setSplitWorth split value base)
  | rebalanceSplit split => exact keeps_done (keeps_rebalanceSplit split)
  | rebalanceTransaction id =>
    exact keeps_done (keeps_rebalanceTransaction keeps_rebalanceSplit id)
  | otherSplit | splitWorth | transactionValue | commonCommodity | imbalance | isBalanced =>
    exact keeps_of_asks rfl
  | createTransaction | beginEdit | commitEdit | destroyTransaction | destroySplit => nomatch outside

end Ledger.Unrecorded

/-! ## Faults -/

/-- An answer that does not blame the journal. -/
def SparesJournal {β : Type} (answer : Except Fault β) : Prop :=
  ∀ message, answer ≠ .error (.journal message)

namespace SparesJournal

variable {α J β γ : Type} {ledger : Ledger α J}

theorem ok {value : β} : SparesJournal (.ok value) := nofun

/-- A fault that is passed on. -/
theorem error {answer : Except Fault β} {fault : Fault} (spares : SparesJournal answer)
    (failed : answer = .error fault) : SparesJournal (.error fault : Except Fault γ) :=
  fun message same => spares message (failed.trans (congrArg _ (Except.error.inj same)))

theorem bind {answer : Except Fault β} {next : β → Except Fault γ} (first : SparesJournal answer)
    (second : ∀ value, SparesJournal (next value)) : SparesJournal (answer >>= next) := by
  cases answer with
  | error fault => exact first.error rfl
  | ok value => exact second value

theorem ite {condition : Prop} [Decidable condition] {yes no : Except Fault β}
    (left : SparesJournal yes) (right : SparesJournal no) :
    SparesJournal (if condition then yes else no) := by
  split
  · exact left
  · exact right

theorem split (id : SplitId) : SparesJournal (ledger.split id) := by
  unfold Ledger.split
  cases ledger.split? id <;> exact nofun

theorem transaction (id : TransactionId) : SparesJournal (ledger.transaction id) := by
  unfold Ledger.transaction
  cases ledger.transaction? id <;> exact nofun

theorem accountOf (id : SplitId) (split : Split α) : SparesJournal (ledger.accountOf id split) := by
  unfold Ledger.accountOf
  cases split.account with
  | none => exact ok
  | some account => cases found : ledger.account? account <;> simp only [found] <;> exact nofun

theorem valuation (id : SplitId) (split : Split α) (base : Option Commodity) :
    SparesJournal (ledger.valuation id split base) := by
  refine (accountOf id split).bind fun place => ?_
  cases place with
  | none => exact ite nofun ok
  | some _ => exact ok

theorem narrowBy (start : AccountId × Account) (candidate : Candidate) (splits : List SplitId) :
    SparesJournal (ledger.narrowBy start candidate splits) := by
  induction splits generalizing candidate with
  | nil => exact ok
  | cons id rest ih =>
    refine (split id).bind fun entry => (accountOf id entry).bind fun place => ?_
    cases place with
    | none => exact ite nofun (ih _)
    | some _ => exact ite nofun (ih _)

theorem commonCommodity (id : TransactionId) (trigger : SplitId) :
    SparesJournal (ledger.commonCommodity id trigger) := by
  refine (transaction id).bind fun found => (split trigger).bind fun entry =>
    (accountOf trigger entry).bind fun place => ?_
  cases place with
  | none => exact ite nofun ok
  | some start => exact (narrowBy start _ _).bind fun _ => ok

variable [Scalar α]

theorem addWorths (id : TransactionId) (base : Option Commodity) (sum : α) (splits : List SplitId) :
    SparesJournal (ledger.addWorths id base sum splits) := by
  induction splits generalizing sum with
  | nil => exact ok
  | cons entry rest ih =>
    refine (split entry).bind fun found => (valuation entry found base).bind fun valuation => ?_
    cases valuation.worth? found with
    | none => exact nofun
    | some worth => exact ih _

theorem absorption (id : TransactionId) (target : SplitId) (base : Option Commodity) :
    SparesJournal (ledger.absorption id target base) :=
  ((transaction id).bind fun _ => addWorths id base _ _).bind fun _ =>
    (split target).bind fun entry => (valuation target entry base).bind fun _ => ite nofun ok

theorem settlement (edited : SplitId) : SparesJournal (ledger.settlement edited) := by
  refine (split edited).bind fun entry => ?_
  cases entry.parent with
  | none => exact ok
  | some parent =>
    refine (transaction parent).bind fun found => ite ok ?_
    cases found.splits with
    | nil => exact ok
    | cons source others =>
      refine (commonCommodity parent edited).bind fun base => ite ok ?_
      cases others with
      | nil => exact (split source).bind fun _ => ite ok ok
      | cons _ _ => exact ok

theorem ends_settle {lone : TransactionId → SplitId → Action α J Unit} {edited : SplitId}
    (pairs : ∀ owner entry, ledger.split? edited = some entry →
      (lone owner edited).Ends ledger fun result _ => SparesJournal result) :
    (settle lone edited).Ends ledger fun result _ => SparesJournal result := by
  rw [Action.ends_settle]
  rcases decided : ledger.settlement edited with fault | _ | ⟨owner, target, base⟩ | ⟨owner, source⟩
  · exact (settlement edited).error decided
  · exact ok
  · dsimp only
    cases absorbs : ledger.absorption owner target base with
    | error fault => exact (absorption owner target base).error absorbs
    | ok _ => exact ok
  · obtain ⟨rfl, entry, _, _, active, -⟩ := Ledger.settlement_eq_pair decided
    exact pairs owner entry active.isSplit

theorem ends_rebalanceSplit (edited : SplitId) :
    (rebalanceSplit edited).Ends ledger fun result _ => SparesJournal result := by
  refine ends_settle fun owner entry isSplit => ?_
  rw [ends_addCounterpart (Ledger.split_eq_ok_iff.mpr isSplit)]
  refine (ends_settle fun _ _ _ => ends_pure.mpr ok).imp fun result after spares => ?_
  cases result with
  | error _ => exact spares
  | ok _ => exact ok

/-- Rebalancing does not blame the journal when it fails. -/
theorem ends_rebalanceTransaction (id : TransactionId) :
    (rebalanceTransaction id).Ends ledger fun result _ => SparesJournal result := by
  rw [rebalanceTransaction, ends_bind, ends_ask]
  cases found : ledger.transaction id with
  | error fault => exact (transaction id).error found
  | ok transaction =>
    dsimp only
    cases transaction.source? with
    | none => exact ends_pure.mpr ok
    | some source => exact ends_rebalanceSplit source

end SparesJournal

end DoubleEntry
