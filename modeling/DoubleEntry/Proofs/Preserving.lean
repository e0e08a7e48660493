import DoubleEntry.Proofs.Reachable
import DoubleEntry.Proofs.Relinking
import DoubleEntry.Proofs.Settling

/-! # Properties that every command keeps

Most commands change texts, dates, numbers or flags, or write to the journal, and no link. A property of
the links alone has therefore to be checked for the few commands that do change links, and for the one
way in which a register changes its order: a split leaves it and enters it again. `Preserved` lists what
has to be checked, and `Preserved.act` says that it is enough.
-/

namespace DoubleEntry

open DoubleEntry.Action

namespace Action

variable {α J : Type} {holds : Ledger α J → Prop}

theorem keeps_otherSplit (id : SplitId) : Keeps holds (otherSplit id) := by
  refine keeps_read.bind fun found => ?_
  cases found with
  | none => exact keeps_pure
  | some split =>
    dsimp only
    cases split.parent with
    | none => exact keeps_report.bind fun _ => keeps_fail
    | some owner => exact keeps_ask.bind fun _ => keeps_pure

variable [Scalar α]

theorem keeps_splitWorth (id : SplitId) (base : Option Commodity) : Keeps holds (splitWorth id base) := by
  refine keeps_read.bind fun found => ?_
  cases found with
  | none => exact keeps_pure
  | some split =>
    refine keeps_ask.bind fun valuation => ?_
    cases valuation.worth? split with
    | some _ => exact keeps_pure
    | none => exact keeps_report.bind fun _ => keeps_pure

theorem keeps_rebalanceTransaction (each : ∀ split, Keeps holds (rebalanceSplit split))
    (id : TransactionId) : Keeps holds (rebalanceTransaction id) := by
  refine keeps_ask.bind fun transaction => ?_
  cases transaction.source? with
  | none => exact keeps_pure
  | some source => exact each source

/-- Everything that a commit does once the transaction is balanced. -/
def closeEdit [Journal J α] (id : TransactionId) : Action α J Unit := do
  let splits := (← ask (·.transaction id)).splits
  update (·.restoreOrder splits)
  update (·.recomputeAll splits)
  setEditState id .closed
  writeRecord .committed id

theorem commitEdit_eq [Journal J α] (id : TransactionId) :
    commitEdit (α := α) (J := J) id = (do
      ensureOpen id
      setEditState id (.editing false)
      rebalanceTransaction id
      closeEdit id) := rfl

end Action

theorem Action.keeps_done {α J : Type} {holds : Ledger α J → Prop} {action : Action α J Unit}
    (keeps : Keeps holds action) : Keeps holds (Command.act.done action) :=
  keeps.bind fun _ => keeps_pure

/-- A property of ledgers that depends on links alone: it is not lost by giving out identifiers, nor when
a split enters the register again that it is in. -/
structure OfLinks {α J : Type} (holds : Ledger α J → Prop) : Prop where
  linked : ∀ before after : Ledger α J, after.ownership = before.ownership →
    after.membership = before.membership → before.minted ≤ after.minted → holds before → holds after
  reentered : ∀ (ledger : Ledger α J) {split account}, ledger.accountOf? split = some account →
    holds ledger → holds (ledger.registered account split)

/-- What changes no link takes no identifier back. -/
theorem OfLinks.minted_ge {α J : Type} (count : Nat) :
    OfLinks (fun ledger : Ledger α J => count ≤ ledger.minted) :=
  ⟨fun _ _ _ _ grows start => start.trans grows, fun _ _ _ _ start => start⟩

/-- What holds while no identifier was given out twice has to be shown from such a start alone. -/
theorem Action.ends_whileFresh {α J β : Type} {ledger : Ledger α J} {action : Action α J β}
    {holds : Ledger α J → Prop}
    (grows : action.Ends ledger fun _ after => ledger.minted ≤ after.minted)
    (ends : ledger.minted ≤ 2 ^ 128 → action.Ends ledger fun _ after => WhileFresh holds after) :
    action.Ends ledger fun _ after => WhileFresh holds after :=
  fun fresh => ends (grows.trans fresh) fresh

theorem Action.Keeps.whileFresh {α J β : Type} {action : Action α J β} {holds : Ledger α J → Prop}
    (keeps : Keeps holds action)
    (grows : ∀ ledger, action.Ends ledger fun _ after => ledger.minted ≤ after.minted) :
    Keeps (WhileFresh holds) action :=
  fun ledger start fresh => keeps ledger (start ((grows ledger).trans fresh))

/-- A change of a split that leaves it in its transaction and in its account. -/
structure Split.KeepsLinks {α : Type} (change : Split α → Split α) : Prop where
  parent : ∀ split, (change split).parent = split.parent
  account : ∀ split, (change split).account = split.account

theorem Split.keepsLinks_setCaption {α : Type} (caption : Caption) (text : String) :
    Split.KeepsLinks (α := α) (Split.setCaption caption text) := by
  cases caption <;> exact ⟨fun _ => rfl, fun _ => rfl⟩

namespace OfLinks

variable {α J : Type} {holds : Ledger α J → Prop} (kept : OfLinks holds)

include kept

theorem modifySplit {change : Split α → Split α} (keeps : Split.KeepsLinks change) (id : SplitId)
    (ledger : Ledger α J) (start : holds ledger) : holds (ledger.modifySplit id change) :=
  kept.linked _ _ (Ledger.ownership_modifySplit keeps.parent)
    (Ledger.membership_modifySplit keeps.account) le_rfl start

theorem modifyTransaction {change : Transaction → Transaction}
    (keeps : ∀ transaction, (change transaction).splits = transaction.splits) (id : TransactionId)
    (ledger : Ledger α J) (start : holds ledger) : holds (ledger.modifyTransaction id change) :=
  kept.linked _ _ (Ledger.ownership_modifyTransaction keeps) rfl le_rfl start

theorem toJournal (call : J → Except JournalFault Unit × J) : Keeps holds (toJournal call) :=
  fun ledger start => kept.linked ledger _ rfl rfl le_rfl start

theorem mint : Keeps holds mint :=
  fun ledger start => kept.linked ledger _ rfl rfl (Nat.le_succ _) start

theorem setEditState (id : TransactionId) (edit : EditState) : Keeps holds (setEditState id edit) :=
  keeps_update (kept.modifyTransaction (by exact fun _ => rfl) id)

variable [Scalar α]

theorem alike {before after : Ledger α J} (alike : before.Alike after) (start : holds before) :
    holds after :=
  kept.linked _ _ alike.ownership alike.membership alike.minted.ge start

theorem mark (id : SplitId) : Keeps holds (update (Ledger.mark (α := α) (J := J) id)) :=
  keeps_update fun ledger start => kept.alike (ledger.mark_alike id) start

theorem markTransaction (id : TransactionId) :
    Keeps holds (update (Ledger.markTransaction (α := α) (J := J) id)) :=
  keeps_update fun ledger start => kept.alike (ledger.markTransaction_alike id) start

/-! ## Fields of splits -/

theorem editSplit {change : Split α → Split α} (keeps : Split.KeepsLinks change) (id : SplitId) :
    Keeps holds (editSplit id change) :=
  (keeps_ensureEditable id).bind fun _ => (keeps_update (kept.modifySplit keeps id)).bind fun _ =>
    kept.mark id

theorem setReconcile (id : SplitId) (state : Reconcile) : Keeps holds (setReconcile id state) :=
  (kept.editSplit (by constructor <;> exact fun _ => rfl) id).bind fun _ =>
    keeps_ask.bind fun split => keeps_update fun ledger start =>
      kept.alike (ledger.recompute?_alike (Split.account split)) start

theorem applyWorth (id : SplitId) (value : α) (base : Option Commodity) :
    Keeps holds (applyWorth id value base) := by
  have renewed (amount : α) (ledger : Ledger α J) (start : holds ledger) :
      holds (ledger.modifySplit id fun s => { s with amount }) :=
    kept.modifySplit (by constructor <;> exact fun _ => rfl) id ledger start
  refine keeps_ask.bind fun split => keeps_ask.bind fun valuation => ?_
  cases valuation with
  | priced =>
    exact (keeps_report.bind fun _ => keeps_pure).ite
      ((keeps_update (renewed _)).bind fun _ => keeps_pure)
  | shares => exact (keeps_update (renewed _)).bind fun _ => keeps_pure
  | inexpressible => exact keeps_report.bind fun _ => keeps_pure

theorem setSplitWorth (id : SplitId) (value : α) (base : Option Commodity) :
    Keeps holds (setSplitWorth id value base) :=
  (keeps_ensureFinite _ _).bind fun _ => (keeps_ensureEditable id).bind fun _ =>
    (kept.applyWorth id value base).bind fun _ => kept.mark id

/-! ## Fields of transactions -/

theorem editTransaction {change : Transaction → Transaction}
    (keeps : ∀ transaction, (change transaction).splits = transaction.splits) (id : TransactionId) :
    Keeps holds (editTransaction id change) :=
  (keeps_ensureOpen id).bind fun _ => (keeps_update (kept.modifyTransaction keeps id)).bind fun _ =>
    kept.markTransaction id

omit [Scalar α] in
/-- A split that leaves its register and enters it again leaves it only for a moment. -/
theorem reposition (split : SplitId) : Keeps holds (reposition split) := by
  intro ledger start
  rw [Action.reposition, ends_bind, ends_read]
  cases within : ledger.accountOf? split with
  | none => exact start
  | some account =>
    dsimp only
    rw [ends_bind, ends_update, ends_enterRegister]
    have entered := kept.reentered ledger within start
    exact kept.linked (ledger.registered account split) _ rfl ledger.membership_reposition le_rfl entered

theorem setPosted (id : TransactionId) (posted : Instant) : Keeps holds (setPosted id posted) :=
  (keeps_ensureOpen id).bind fun _ =>
    (keeps_update (kept.modifyTransaction (by exact fun _ => rfl) id)).bind fun _ =>
      keeps_read.bind fun _ => (keeps_forM fun split _ => kept.reposition split).bind fun _ => kept.markTransaction id

theorem setDates (id : TransactionId) (date : Instant) : Keeps holds (setDates id date) :=
  (keeps_ensureOpen id).bind fun _ =>
    (keeps_update (kept.modifyTransaction (by exact fun _ => rfl) id)).bind fun _ =>
      kept.setPosted id date

theorem setDay (id : TransactionId) (day month : Nat) (year : Int) :
    Keeps holds (setDay id day month year) := by
  unfold Action.setDay
  split
  · exact kept.setDates id _
  · exact keeps_raise

theorem setCaptionOf (id : SplitId) (caption : Caption) (text : String) :
    Keeps holds (setCaptionOf id caption text) :=
  keeps_ask.bind fun _ =>
    (keeps_update (kept.modifySplit (Split.keepsLinks_setCaption caption text) id)).bind fun _ =>
      kept.mark id

theorem setCaption (id : TransactionId) (caption : Caption) (text : String) :
    Keeps holds (setCaption id caption text) := by
  refine (keeps_ensureOpen id).bind fun _ => keeps_ask.bind fun transaction => ?_
  have sets (split : SplitId) := kept.setCaptionOf split caption text
  rcases transaction.splits with _ | ⟨first, _ | ⟨second, _ | ⟨third, rest⟩⟩⟩
  · exact keeps_raise
  · exact keeps_read.bind fun _ =>
      (keeps_ask.bind fun _ => (sets first).ite keeps_raise).ite (sets first)
  · exact (sets first).bind fun _ => sets second
  · exact sets first

/-! ## Sessions -/

omit [Scalar α] in
/-- Misplaced splits enter their registers again, one after another. -/
theorem restoreOrder (splits : List SplitId) (ledger : Ledger α J) (start : holds ledger) :
    holds (ledger.restoreOrder splits) := by
  induction splits generalizing ledger with
  | nil => exact start
  | cons split rest ih =>
    refine ih _ ?_
    dsimp only
    cases within : ledger.accountOf? split with
    | none => exact start
    | some account =>
      dsimp only [Book.restoreOrder]
      split
      · exact kept.reentered ledger within start
      · exact start

theorem recomputeAll (splits : List SplitId) (ledger : Ledger α J) (start : holds ledger) :
    holds (ledger.recomputeAll splits) := by
  unfold Ledger.recomputeAll
  induction (splits.filterMap ledger.accountOf?).eraseDups generalizing ledger with
  | nil => exact start
  | cons account rest ih => exact ih _ (kept.alike (ledger.recompute_alike account) start)

variable [Journal J α]

omit [Scalar α] in
theorem writeRecord (kind : EventKind) (id : TransactionId) : Keeps holds (writeRecord kind id) :=
  keeps_ask.bind fun _ => keeps_read.bind fun _ => kept.mint.bind fun _ => kept.toJournal _

omit [Scalar α] in
theorem beginEdit (id : TransactionId) (defer : Bool) : Keeps holds (beginEdit id defer) :=
  keeps_ask.bind fun _ => (kept.setEditState id _).bind fun _ => (kept.toJournal _).bind fun _ =>
    kept.writeRecord _ id

theorem closeEdit (id : TransactionId) : Keeps holds (closeEdit id) :=
  keeps_ask.bind fun transaction =>
    (keeps_update (kept.restoreOrder transaction.splits)).bind fun _ =>
      (keeps_update (kept.recomputeAll transaction.splits)).bind fun _ =>
        (kept.setEditState id _).bind fun _ => kept.writeRecord _ id

end OfLinks

/-- A property of links that the commands keep that change some. -/
structure Preserved {α J : Type} [Scalar α] [Journal J α] (holds : Ledger α J → Prop) : Prop
    extends OfLinks holds where
  createSplit : Keeps holds createSplit
  createTransaction : Keeps holds createTransaction
  discardSplit : ∀ split, Keeps holds (discardSplit split)
  appendSplit : ∀ transaction split, Keeps holds (appendSplit transaction split)
  removeSplit : ∀ transaction split, Keeps holds (removeSplit transaction split)
  enterAccount : ∀ account split, Keeps holds (enterAccount account split)
  leaveAccount : ∀ split, Keeps holds (leaveAccount split)
  rebalanceSplit : ∀ split, Keeps holds (rebalanceSplit split)
  discardTransaction : ∀ transaction, Keeps holds (discardTransaction transaction)
  destroySplit : ∀ split, Keeps holds (destroySplit split)

namespace Preserved

variable {α J : Type} [Scalar α] [Journal J α] {holds : Ledger α J → Prop} (kept : Preserved holds)

include kept

theorem editNumbers {change : Split α → Split α} (keeps : Split.KeepsLinks change) (id : SplitId) :
    Keeps holds (editNumbers id change) :=
  (keeps_ensureEditable id).bind fun _ => (kept.mark id).bind fun _ =>
    (keeps_update (kept.modifySplit keeps id)).bind fun _ => kept.rebalanceSplit id

theorem setPriceAndAmount (id : SplitId) (price amount : α) :
    Keeps holds (setPriceAndAmount id price amount) :=
  (keeps_ensureFinite _ _).bind fun _ => (keeps_ensureFinite _ _).bind fun _ =>
    kept.editNumbers (by constructor <;> exact fun _ => rfl) id

theorem setPrice (id : SplitId) (price : α) : Keeps holds (setPrice id price) :=
  (keeps_ensureFinite _ _).bind fun _ => kept.editNumbers (by constructor <;> exact fun _ => rfl) id

theorem setAmount (id : SplitId) (amount : α) : Keeps holds (setAmount id amount) :=
  (keeps_ensureFinite _ _).bind fun _ => kept.editNumbers (by constructor <;> exact fun _ => rfl) id

theorem setValue (id : SplitId) (value : α) : Keeps holds (setValue id value) :=
  (keeps_ensureFinite _ _).bind fun _ => (keeps_ensureEditable id).bind fun _ => keeps_ask.bind fun _ =>
    keeps_raise.ite (kept.editNumbers (by constructor <;> exact fun _ => rfl) id)

theorem commitEdit (id : TransactionId) : Keeps holds (commitEdit id) := by
  rw [commitEdit_eq]
  exact (keeps_ensureOpen id).bind fun _ => (kept.setEditState id _).bind fun _ =>
    (keeps_rebalanceTransaction kept.rebalanceSplit id).bind fun _ => kept.closeEdit id

theorem destroyTransaction (id : TransactionId) : Keeps holds (destroyTransaction id) :=
  (keeps_ensureOpen id).bind fun _ => kept.discardTransaction id

/-! ## All commands -/

theorem act (command : Command α) : Keeps holds (command.act (J := J)) := by
  cases command with
  | createSplit => exact kept.createSplit.bind fun _ => keeps_pure
  | createTransaction => exact kept.createTransaction.bind fun _ => keeps_pure
  | discardSplit split => exact keeps_done (kept.discardSplit split)
  | setPriceAndAmount split price amount => exact keeps_done (kept.setPriceAndAmount split price amount)
  | setPrice split price => exact keeps_done (kept.setPrice split price)
  | setAmount split amount => exact keeps_done (kept.setAmount split amount)
  | setValue split value => exact keeps_done (kept.setValue split value)
  | setMemo split _ | setAction split _ | setSplitDocref split _ | setReconciledOn split _ =>
    exact keeps_done (kept.editSplit (by constructor <;> exact fun _ => rfl) split)
  | setReconcile split state => exact keeps_done (kept.setReconcile split state)
  | setNum transaction _ | setDescription transaction _ | setDocref transaction _
  | setEntered transaction _ =>
    exact keeps_done (kept.editTransaction (by exact fun _ => rfl) transaction)
  | setPosted transaction date => exact keeps_done (kept.setPosted transaction date)
  | setDay transaction day month year => exact keeps_done (kept.setDay transaction day month year)
  | setToday transaction => exact keeps_done (keeps_read.bind fun _ => kept.setDates transaction _)
  | setCaption transaction caption text => exact keeps_done (kept.setCaption transaction caption text)
  | appendSplit transaction split => exact keeps_done (kept.appendSplit transaction split)
  | removeSplit transaction split => exact keeps_done (kept.removeSplit transaction split)
  | enterAccount account split => exact keeps_done (kept.enterAccount account split)
  | leaveAccount split => exact keeps_done (kept.leaveAccount split)
  | otherSplit split => exact (keeps_otherSplit split).bind fun _ => keeps_pure
  | beginEdit transaction defer => exact keeps_done (kept.beginEdit transaction defer)
  | commitEdit transaction => exact keeps_done (kept.commitEdit transaction)
  | destroyTransaction transaction => exact keeps_done (kept.destroyTransaction transaction)
  | destroySplit split => exact keeps_done (kept.destroySplit split)
  | splitWorth split base => exact (keeps_splitWorth split base).bind fun _ => keeps_pure
  | setSplitWorth split value base => exact keeps_done (kept.setSplitWorth split value base)
  | transactionValue | commonCommodity | imbalance | isBalanced =>
    exact keeps_ask.bind fun _ => keeps_pure
  | rebalanceSplit split => exact keeps_done (kept.rebalanceSplit split)
  | rebalanceTransaction transaction =>
    exact keeps_done (keeps_rebalanceTransaction kept.rebalanceSplit transaction)

end Preserved

end DoubleEntry
