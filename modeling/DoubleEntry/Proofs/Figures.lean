import DoubleEntry.Proofs.Pairing
import DoubleEntry.Proofs.Preserving

/-! # The figures of splits

The figures of a split are its amount and its price. `Ledger.Figures` says of what kind all of them are.
Only a few steps give a split new figures: a number that is set, what a split takes up in a pass, and a
split that comes in. All other steps keep figures, and what splits leave the ledger takes nothing from it.
-/

namespace DoubleEntry

open DoubleEntry.Action Ledger

/-- A change of a split that leaves it its amount and its price. -/
structure Split.KeepsFigures {α : Type} (change : Split α → Split α) : Prop where
  amount : ∀ split, (change split).amount = split.amount
  price : ∀ split, (change split).price = split.price

theorem Split.keepsFigures_setCaption {α : Type} (caption : Caption) (text : String) :
    Split.KeepsFigures (α := α) (Split.setCaption caption text) := by
  cases caption <;> exact ⟨fun _ => rfl, fun _ => rfl⟩

/-- Every split has an amount of one kind and a price of another. -/
def Ledger.Figures {α J : Type} (amounts prices : α → Prop) (ledger : Ledger α J) : Prop :=
  ∀ id split, ledger.split? id = some split → amounts split.amount ∧ prices split.price

variable {α J : Type} {amounts prices : α → Prop} {ledger other : Ledger α J} {split : SplitId}
  {owner : TransactionId}

namespace Ledger.Figures

variable (figures : ledger.Figures amounts prices)

include figures

/-! ## Single changes -/

theorem of_splits (splits : other.splits = ledger.splits) : other.Figures amounts prices :=
  fun id entry found => figures id entry (by rwa [split?, ← splits])

theorem modifySplit {change : Split α → Split α} (each : ∀ entry, ledger.split? split = some entry →
    amounts (change entry).amount ∧ prices (change entry).price) :
    (ledger.modifySplit split change).Figures amounts prices := by
  intro id entry found
  rw [split?_modifySplit] at found
  split at found
  · obtain ⟨before, isSplit, rfl⟩ := Option.map_eq_some_iff.mp found
    exact each before isSplit
  · exact figures id entry found

theorem editSplit {change : Split α → Split α} (keeps : Split.KeepsFigures change) :
    (ledger.modifySplit split change).Figures amounts prices :=
  figures.modifySplit fun entry isSplit => by
    rw [keeps.amount, keeps.price]
    exact figures split entry isSplit

theorem insertSplit (split : SplitId) (entry : Split α) (amount : amounts entry.amount)
    (price : prices entry.price) (minted : Nat) :
    { ledger with splits := ledger.splits.insert split entry, minted }.Figures amounts prices := by
  intro id found isSplit
  have inserted := (Table.get?_insert ledger.splits split entry id).symm.trans isSplit
  split at inserted
  · obtain rfl := Option.some.inj inserted
    exact ⟨amount, price⟩
  · exact figures id found inserted

variable [Scalar α]

theorem alike (alike : ledger.Alike other) : other.Figures amounts prices := by
  intro id entry found
  have same := alike.map_split? (fun s => (s.amount, s.price)) (fun _ => rfl) id
  rw [found, Option.map_some] at same
  obtain ⟨before, isSplit, kept⟩ := Option.map_eq_some_iff.mp same.symm
  obtain ⟨amount, price⟩ := Prod.mk.inj kept
  rw [← amount, ← price]
  exact figures id before isSplit

theorem leaveAccount : (ledger.leaveAccount split).Figures amounts prices := by
  unfold Ledger.leaveAccount
  split
  · rename_i account _
    have left : (ledger.leaveRegister account split).Figures amounts prices := figures.of_splits rfl
    exact left.alike (recompute_alike _ account)
  · exact figures

theorem eraseSplit : (ledger.eraseSplit split).Figures amounts prices := by
  intro id entry found
  rw [split?_eraseSplit] at found
  split at found
  · cases found
  · exact figures.leaveAccount id entry found

theorem eraseSplits (splits : List SplitId) :
    (splits.foldl (fun ledger split => (ledger.mark split).eraseSplit split) ledger).Figures
      amounts prices := by
  induction splits generalizing ledger with
  | nil => exact figures
  | cons split rest ih => exact ih (figures.alike (mark_alike ledger split)).eraseSplit

end Ledger.Figures

namespace Figures

/-! ## Steps that keep figures -/

/-- What touches no split. -/
theorem keeps_rest {change : Ledger α J → Ledger α J} (splits : ∀ ledger, (change ledger).splits = ledger.splits) :
    Keeps (Figures amounts prices) (update change) :=
  keeps_update fun ledger figures => figures.of_splits (splits ledger)

theorem keeps_setEditState (edit : EditState) :
    Keeps (Figures (J := J) amounts prices) (setEditState owner edit) := keeps_rest fun _ => rfl

theorem keeps_toJournal (call : J → Except JournalFault Unit × J) :
    Keeps (Figures amounts prices) (toJournal call) := fun _ figures => figures.of_splits rfl

theorem keeps_enterRegister (account : AccountId) :
    Keeps (Figures (J := J) amounts prices) (enterRegister account split) := by
  intro ledger figures
  rw [ends_enterRegister]
  exact figures.of_splits rfl

theorem keeps_modifySplit {change : Split α → Split α} (keeps : Split.KeepsFigures change) :
    Keeps (Figures (J := J) amounts prices) (update (·.modifySplit split change)) :=
  keeps_update fun _ figures => figures.editSplit keeps

theorem keeps_reposition : Keeps (Figures (J := J) amounts prices) (reposition split) := by
  refine keeps_read.bind fun account => ?_
  cases account with
  | none => exact keeps_pure
  | some account =>
    exact Keeps.bind (keeps_rest (by exact fun _ => rfl)) fun _ => keeps_enterRegister account

variable [Scalar α]

theorem keeps_alike {change : Ledger α J → Ledger α J} (alike : ∀ ledger, Ledger.Alike ledger (change ledger)) :
    Keeps (Figures amounts prices) (update change) :=
  keeps_update fun ledger figures => figures.alike (alike ledger)

theorem keeps_editSplit {change : Split α → Split α} (keeps : Split.KeepsFigures change) :
    Keeps (Figures (J := J) amounts prices) (editSplit split change) :=
  (keeps_ensureEditable split).bind fun _ => (keeps_modifySplit keeps).bind fun _ =>
    keeps_alike fun ledger => ledger.mark_alike split

theorem keeps_setReconcile (state : Reconcile) :
    Keeps (Figures (α := α) (J := J) amounts prices) (setReconcile split state) := by
  refine (keeps_editSplit (by constructor <;> exact fun _ => rfl)).bind fun _ => keeps_ask.bind
    fun entry => keeps_alike fun ledger => ?_
  exact ledger.recompute?_alike entry.account

theorem keeps_editTransaction {change : Transaction → Transaction} :
    Keeps (Figures (α := α) (J := J) amounts prices) (editTransaction owner change) :=
  (keeps_ensureOpen owner).bind fun _ => (keeps_rest (by exact fun _ => rfl)).bind fun _ =>
    keeps_alike fun ledger => ledger.markTransaction_alike owner

theorem keeps_setPosted (date : Instant) :
    Keeps (Figures (α := α) (J := J) amounts prices) (setPosted owner date) :=
  (keeps_ensureOpen owner).bind fun _ => (keeps_rest (by exact fun _ => rfl)).bind fun _ =>
    keeps_read.bind fun _ => (keeps_forM fun _ _ => keeps_reposition).bind fun _ =>
      keeps_alike fun ledger => ledger.markTransaction_alike owner

theorem keeps_setDates (date : Instant) :
    Keeps (Figures (α := α) (J := J) amounts prices) (setDates owner date) :=
  (keeps_ensureOpen owner).bind fun _ => (keeps_rest (by exact fun _ => rfl)).bind fun _ =>
    keeps_setPosted date

theorem keeps_setDay (day month : Nat) (year : Int) :
    Keeps (Figures (α := α) (J := J) amounts prices) (setDay owner day month year) := by
  unfold setDay
  split
  · exact keeps_setDates _
  · exact keeps_raise

theorem keeps_setCaptionOf (caption : Caption) (text : String) :
    Keeps (Figures (α := α) (J := J) amounts prices) (setCaptionOf split caption text) :=
  keeps_ask.bind fun _ => (keeps_modifySplit (Split.keepsFigures_setCaption caption text)).bind fun _ =>
    keeps_alike fun ledger => ledger.mark_alike split

theorem keeps_setCaption (caption : Caption) (text : String) :
    Keeps (Figures (α := α) (J := J) amounts prices) (setCaption owner caption text) := by
  refine (keeps_ensureOpen owner).bind fun _ => keeps_ask.bind fun transaction => ?_
  have sets (split : SplitId) : Keeps (Figures (α := α) (J := J) amounts prices)
      (setCaptionOf split caption text) := keeps_setCaptionOf caption text
  rcases transaction.splits with _ | ⟨first, _ | ⟨second, _ | ⟨third, rest⟩⟩⟩
  · exact keeps_raise
  · exact keeps_read.bind fun _ =>
      (keeps_ask.bind fun _ => (sets first).ite keeps_raise).ite (sets first)
  · exact (sets first).bind fun _ => sets second
  · exact sets first

/-! ## Coming and going -/

/-- A new split has no shares at price one. -/
theorem keeps_createSplit (zero : amounts 0) (one : prices 1) :
    Keeps (Figures (J := J) amounts prices) createSplit :=
  fun _ figures => figures.insertSplit _ .empty zero one _

theorem keeps_createTransaction (zero : amounts 0) (one : prices 1) :
    Keeps (Figures (J := J) amounts prices) createTransaction :=
  fun ledger figures => (figures.insertSplit ledger.nextSplit
    { (.empty : Split α) with parent := some ⟨Ident.ofNat (ledger.minted + 1)⟩ } zero one
    (ledger.minted + 2)).of_splits rfl

theorem keeps_discardSplit : Keeps (Figures (α := α) (J := J) amounts prices) (discardSplit split) := by
  refine keeps_ask.bind fun entry => ?_
  cases entry.parent with
  | some _ => exact keeps_raise
  | none => exact keeps_update fun _ figures => figures.eraseSplit

theorem keeps_removeSplit :
    Keeps (Figures (α := α) (J := J) amounts prices) (removeSplit owner split) :=
  (keeps_ensureOpen owner).bind fun _ => keeps_ask.bind fun _ => keeps_raise.ite <| keeps_raise.ite <|
    (keeps_rest (by exact fun _ => rfl)).bind fun _ =>
      (keeps_modifySplit (by constructor <;> exact fun _ => rfl)).bind fun _ =>
        keeps_alike fun ledger => ledger.mark_alike split

theorem keeps_enterAccount (account : AccountId) :
    Keeps (Figures (α := α) (J := J) amounts prices) (enterAccount account split) :=
  keeps_ask.bind fun _ => (keeps_ensureEditable split).bind fun _ =>
    (keeps_update fun _ figures => figures.leaveAccount).bind fun _ =>
      (keeps_modifySplit (by constructor <;> exact fun _ => rfl)).bind fun _ =>
        (keeps_enterRegister account).bind fun _ => keeps_alike fun ledger => ledger.recompute_alike account

theorem keeps_leaveAccount :
    Keeps (Figures (α := α) (J := J) amounts prices) (Action.leaveAccount split) :=
  (keeps_ensureEditable split).bind fun _ => (keeps_update fun _ figures => figures.leaveAccount).bind
    fun _ => keeps_modifySplit (by constructor <;> exact fun _ => rfl)

/-! ## Sessions -/

omit [Scalar α] in
theorem figures_restoreOrder (splits : List SplitId) (figures : ledger.Figures amounts prices) :
    (ledger.restoreOrder splits).Figures amounts prices := by
  induction splits generalizing ledger with
  | nil => exact figures
  | cons split rest ih =>
    refine ih ?_
    dsimp only
    split
    · exact figures
    · exact figures.of_splits rfl

theorem figures_recomputeAll (splits : List SplitId) (figures : ledger.Figures amounts prices) :
    (ledger.recomputeAll splits).Figures amounts prices := by
  unfold recomputeAll
  induction (splits.filterMap ledger.accountOf?).eraseDups generalizing ledger with
  | nil => exact figures
  | cons account rest ih => exact ih (figures.alike (ledger.recompute_alike account))

variable [Journal J α]

omit [Scalar α] in
theorem keeps_writeRecord (kind : EventKind) :
    Keeps (Figures amounts prices) (writeRecord (α := α) (J := J) kind owner) :=
  keeps_ask.bind fun _ => keeps_read.bind fun _ =>
    Keeps.bind (fun _ figures => figures.of_splits rfl) fun _ => keeps_toJournal _

omit [Scalar α] in
theorem keeps_beginEdit (defer : Bool) :
    Keeps (Figures amounts prices) (beginEdit (α := α) (J := J) owner defer) :=
  keeps_ask.bind fun _ => (keeps_setEditState _).bind fun _ => (keeps_toJournal _).bind fun _ =>
    keeps_writeRecord _

theorem keeps_closeEdit : Keeps (Figures amounts prices) (closeEdit (α := α) (J := J) owner) :=
  keeps_ask.bind fun transaction =>
    (keeps_update fun _ figures => figures_restoreOrder transaction.splits figures).bind fun _ =>
      (keeps_update fun _ figures => figures_recomputeAll transaction.splits figures).bind fun _ =>
        (keeps_setEditState _).bind fun _ => keeps_writeRecord _

theorem keeps_discardTransaction :
    Keeps (Figures amounts prices) (discardTransaction (α := α) (J := J) owner) :=
  (keeps_writeRecord _).bind fun _ => keeps_ask.bind fun transaction =>
    (keeps_update fun _ figures => figures.eraseSplits transaction.splits).bind fun _ =>
      keeps_rest fun _ => rfl

end Figures

end DoubleEntry
