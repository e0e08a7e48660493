import DoubleEntry.Proofs.Upkeep.Rebalance

/-! # Registers through edits

Most edits need an open transaction, and its splits are loose. A split outside any transaction may be edited
as well and is not loose: a new memo or action then leaves it where it no longer belongs, and a new amount
leaves its register stale. `Upkeep.Apart` rules both out.
-/

namespace DoubleEntry

open DoubleEntry.Action Ledger Links

variable {α J : Type} [Scalar α] {ledger before after : Ledger α J} {aspect : Aspect}
  {moving next : Option SplitId} {id split : SplitId} {account : AccountId} {owner : TransactionId}

/-! ## Steady commands -/

namespace Upkeep

/-- Registers are tidy, as long as no identifier was given out twice. -/
abbrev Kept (aspect : Aspect) (moving : Option SplitId) : Ledger α J → Prop :=
  WhileFresh (Tidy aspect moving none)

theorem keeps_steady {change : Ledger α J → Ledger α J}
    (steady : ∀ ledger : Ledger α J, ledger.Steady (change ledger) aspect moving moving) :
    Keeps (Kept aspect moving) (update change) :=
  keeps_update fun ledger tidy => tidy_steady tidy (steady ledger)

theorem keeps_mark (split : SplitId) :
    Keeps (Kept aspect moving) (update (Ledger.mark (α := α) (J := J) split)) :=
  keeps_steady fun _ => steady_mark

theorem tidy_markTransaction (id : TransactionId) (tidy : Kept aspect moving ledger) :
    Kept aspect moving (ledger.markTransaction id) := by
  unfold markTransaction
  induction ledger.splitsOf id generalizing ledger with
  | nil => exact tidy
  | cons first rest ih => exact ih (tidy_steady tidy steady_mark)

theorem keeps_toJournal (call : J → Except JournalFault Unit × J) :
    Keeps (Kept (α := α) aspect moving) (toJournal call) :=
  fun _ tidy => tidy_steady tidy (.of_entries le_rfl rfl rfl fun _ => rfl)

theorem keeps_mint : Keeps (Kept (α := α) (J := J) aspect moving) mint :=
  fun _ tidy => tidy_steady tidy (.of_entries (Nat.le_succ _) rfl rfl fun _ => rfl)

/-! ## Transactions that are open -/

/-- A change of an open transaction that stays open. -/
theorem steady_of_open {change : Transaction → Transaction} {id : TransactionId}
    (isOpen : ledger.checkOpen id = .ok ())
    (stays : ∀ transaction, (change transaction).edit = transaction.edit) :
    ledger.Steady (ledger.modifyTransaction id change) aspect moving moving := by
  obtain ⟨found, isFound, isOpen⟩ := checkOpen_eq_ok_iff.mp isOpen
  refine steady_modifyTransaction fun transaction again => .inl ?_
  rw [stays, Option.some.inj (again.symm.trans isFound)]
  exact isOpen

theorem keeps_editTransaction {change : Transaction → Transaction}
    (stays : ∀ transaction, (change transaction).edit = transaction.edit) (id : TransactionId) :
    Keeps (Kept (α := α) (J := J) aspect moving) (editTransaction id change) := by
  intro ledger tidy
  rw [editTransaction, ensureOpen_eq]
  refine ends_ask_bind tidy fun _ isOpen => ?_
  exact tidy_markTransaction id (tidy_steady tidy (steady_of_open isOpen stays))

/-! ## Fields of splits -/

omit [Scalar α] in
/-- A split may be changed if its transaction is open, or if it is in none. -/
theorem loose_or_detached (editable : ledger.checkEditable id = .ok ()) :
    ledger.isLoose id = true ∨ ledger.parentOf? id = none := by
  obtain ⟨entry, isSplit, rest⟩ := bind_eq_ok_iff.mp editable
  rw [split_eq_ok_iff] at isSplit
  cases parent : entry.parent with
  | none => exact .inr (by simp [parentOf?, isSplit, parent])
  | some owner =>
    rw [parent] at rest
    obtain ⟨transaction, found, isOpen⟩ := checkOpen_eq_ok_iff.mp rest
    exact .inl (isLoose_of_parent (by simp [parentOf?, isSplit, parent]) found isOpen)

end Upkeep

/-- A change of a split that makes no difference to what is promised of registers. -/
def Aspect.Ignores (aspect : Aspect) (change : Split α → Split α) : Prop :=
  match aspect with
  | .order => Split.KeepsPlace change
  | .balances => ∀ split, (change split).figures = split.figures ∧ (change split).running = split.running

theorem Aspect.Ignores.same {change : Split α → Split α} (ignores : aspect.Ignores change) (id : SplitId) :
    aspect.Same ledger (ledger.modifySplit split change) id := by
  cases aspect with
  | order => exact heading?_modifySplit ignores id
  | balances =>
    refine ⟨Table.map_get?_modify ledger.splits split change Split.figures (fun s => (ignores s).1) id, ?_⟩
    exact congrArg (·.getD .zero)
      (Table.map_get?_modify ledger.splits split change (·.running) (fun s => (ignores s).2) id)

namespace Upkeep

/-- Whether a split outside any transaction is outside any account as well. -/
def Apart (ledger : Ledger α J) (id : SplitId) : Prop :=
  ledger.parentOf? id = none → ledger.accountOf? id = none

instance : Decidable (Apart ledger id) :=
  inferInstanceAs (Decidable (ledger.parentOf? id = none → ledger.accountOf? id = none))

theorem tidy_edit {change : Split α → Split α} (tidy : Kept aspect moving ledger)
    (links : Split.KeepsLinks change) (editable : ledger.isLoose id = true ∨ ledger.parentOf? id = none)
    (harmless : aspect.Ignores change ∨ Apart ledger id) :
    Kept aspect moving (ledger.modifySplit id change) := by
  intro fresh
  have tidied : ledger.Tidy aspect moving none := tidy fresh
  refine tidied.steady (steady_modifySplit (fun _ _ => .rfl) fun registered =>
    ⟨links.account, fun closed => ?_⟩)
  rw [mayDisturb_modifySplit links.parent] at closed
  refine ⟨closed, ?_⟩
  -- A loose split may become anything, since nothing is promised of it; the other cases have to be harmless.
  rcases harmless with ignores | apart
  · exact ignores.same id
  · rcases editable with loose | detached
    · simp [mayDisturb, loose] at closed
    · exact absurd registered (tidied.not_registered (apart detached))

theorem ends_editSplit {change : Split α → Split α} (tidy : Kept aspect moving ledger)
    (links : Split.KeepsLinks change) (harmless : aspect.Ignores change ∨ Apart ledger id) :
    (editSplit id change).Ends ledger fun _ after => Kept aspect moving after := by
  rw [editSplit, ensureEditable_eq]
  refine ends_ask_bind tidy fun _ editable => ?_
  exact keeps_mark id _ (tidy_edit tidy links (loose_or_detached editable) harmless)

omit [Scalar α] in
/-- A split that may be changed is there. -/
theorem split_of_editable (editable : ledger.checkEditable id = .ok ()) :
    ∃ entry, ledger.split? id = some entry := by
  obtain ⟨entry, isSplit, -⟩ := bind_eq_ok_iff.mp editable
  exact ⟨entry, split_eq_ok_iff.mp isSplit⟩

theorem keeps_setReconcile (id : SplitId) (state : Reconcile) :
    Keeps (Kept (α := α) (J := J) aspect moving) (setReconcile id state) := by
  intro ledger tidy
  simp only [setReconcile, editSplit, ensureEditable_eq, ends_bind, ends_ask, ends_update]
  cases editable : ledger.checkEditable id with
  | error _ => exact tidy
  | ok _ =>
    obtain ⟨entry, isSplit⟩ := split_of_editable editable
    have renewed : ((ledger.modifySplit id fun s => { s with reconcile := state }).mark id).split? id =
        some { entry with reconcile := state } := by
      rw [split?_mark, split?_modifySplit, if_pos rfl, isSplit]
      rfl
    dsimp only
    rw [split_eq_ok_iff.mpr renewed]
    intro fresh
    rw [(recompute?_alike _ _).minted, (mark_alike _ id).minted] at fresh
    have changed : (ledger.modifySplit id fun s => { s with reconcile := state }).Tidy aspect moving
        (ledger.accountOf? id) :=
      (tidy fresh).modifySplit (.of_place (by exact fun _ => rfl))
    rw [accountOf?_eq isSplit] at changed
    exact (changed.steady steady_mark).recompute?

/-- New figures of a split, and what rebalancing makes of them. -/
theorem ends_editNumbers {change : Split α → Split α} (tidy : Kept aspect moving ledger)
    (keeps : Split.KeepsPlace change) (apart : aspect = .balances → Apart ledger id) :
    (editNumbers id change).Ends ledger fun _ after => Kept aspect moving after := by
  rw [editNumbers, ensureEditable_eq]
  refine ends_ask_bind tidy fun _ editable => ?_
  simp only [ends_bind, ends_update]
  have alike := ledger.mark_alike id
  have free := loose_or_detached editable
  rw [← alike.isLoose, ← alike.parentOf?] at free
  have edited : Kept aspect moving ((ledger.mark id).modifySplit id change) := by
    refine tidy_edit (tidy_steady tidy steady_mark) keeps.toKeepsLinks free ?_
    cases aspect with
    | order => exact .inl keeps
    | balances =>
      refine .inr ?_
      rw [Apart, alike.parentOf?, alike.accountOf?]
      exact apart rfl
  have parent : ((ledger.mark id).modifySplit id change).parentOf? id = (ledger.mark id).parentOf? id :=
    parentOf?_congr (Table.map_get?_modify (ledger.mark id).splits id change (·.parent) keeps.parent id)
  have loose : ((ledger.mark id).modifySplit id change).isLoose id = (ledger.mark id).isLoose id :=
    isLoose_congr parent fun _ _ => rfl
  refine ends_rebalanceSplit_tidy edited fun _ => ?_
  rw [HasRoom, parent, loose]
  exact free.elim (fun loose => .inr (.inl loose)) .inl

section Numbers

variable (tidy : Kept aspect moving ledger) (apart : aspect = .balances → Apart ledger id)

include tidy apart

theorem ends_setPriceAndAmount (price amount : α) :
    (setPriceAndAmount id price amount).Ends ledger fun _ after => Kept aspect moving after :=
  ends_finite tidy <| ends_finite tidy <|
    ends_editNumbers tidy (.of_place (by exact fun _ => rfl)) apart

theorem ends_setPrice (price : α) :
    (setPrice id price).Ends ledger fun _ after => Kept aspect moving after :=
  ends_finite tidy <| ends_editNumbers tidy (.of_place (by exact fun _ => rfl)) apart

theorem ends_setAmount (amount : α) :
    (setAmount id amount).Ends ledger fun _ after => Kept aspect moving after :=
  ends_finite tidy <| ends_editNumbers tidy (.of_place (by exact fun _ => rfl)) apart

theorem ends_setValue (value : α) :
    (setValue id value).Ends ledger fun _ after => Kept aspect moving after := by
  refine ends_finite tidy ?_
  rw [ensureEditable_eq]
  refine ends_ask_bind tidy fun _ _ => ends_ask_bind tidy fun split _ => ?_
  rw [ends_ite]
  split
  · exact tidy
  · exact ends_editNumbers tidy (.of_place (by exact fun _ => rfl)) apart

theorem ends_setSplitWorth (value : α) (base : Option Commodity) :
    (setSplitWorth id value base).Ends ledger fun _ after => Kept aspect moving after := by
  refine ends_finite tidy ?_
  rw [ensureEditable_eq]
  refine ends_ask_bind tidy fun _ editable => ?_
  obtain ⟨entry, isSplit⟩ := split_of_editable editable
  have found := split_eq_ok_iff.mpr isSplit
  rw [ends_bind]
  cases valued : ledger.valuation id entry base with
  | error _ =>
    simp only [applyWorth, ends_bind, ends_ask, found, valued]
    exact tidy
  | ok valuation =>
    rw [ends_applyWorth found valued]
    refine keeps_mark id _ ?_
    cases valuation.amountFor? entry value with
    | none => exact tidy
    | some amount =>
      refine tidy_edit tidy (by constructor <;> exact fun _ => rfl) (loose_or_detached editable) ?_
      cases aspect with
      | order => exact .inl (.of_place (by exact fun _ => rfl))
      | balances => exact .inr (apart rfl)

end Numbers

/-! ## Dates and captions -/

theorem ends_reposition (tidy : Kept aspect moving ledger) (loose : ledger.isLoose split = true) :
    (reposition split).Ends ledger fun _ after => Kept aspect moving after ∧
      ∀ id, after.isLoose id = ledger.isLoose id := by
  rw [reposition, ends_bind, ends_read]
  cases within : ledger.accountOf? split with
  | none => exact ⟨tidy, fun _ => rfl⟩
  | some account =>
    dsimp only
    rw [ends_bind, ends_update, ends_enterRegister]
    exact ⟨fun fresh => (tidy fresh).leaveRegister.registered_loose within
      (by simp [mayDisturb, show (ledger.leaveRegister account split).isLoose split = true from loose]),
      fun _ => rfl⟩

theorem ends_repositions {splits : List SplitId} (tidy : Kept aspect moving ledger)
    (loose : ∀ split ∈ splits, ledger.isLoose split = true) :
    (splits.forM reposition).Ends ledger fun _ after => Kept aspect moving after := by
  induction splits generalizing ledger with
  | nil => exact tidy
  | cons first rest ih =>
    refine ends_bind.mpr ((ends_reposition tidy (loose first List.mem_cons_self)).imp ?_)
    rintro result after ⟨tidied, same⟩
    cases result with
    | error _ => exact tidied
    | ok _ =>
      exact ih tidied fun split later =>
        (same split).trans (loose split (List.mem_cons_of_mem first later))

theorem ends_setPosted (owned : ledger.Owned) (tidy : Kept aspect moving ledger) (id : TransactionId)
    (posted : Instant) :
    (setPosted id posted).Ends ledger fun _ after => Kept aspect moving after := by
  rw [setPosted, ensureOpen_eq]
  refine ends_ask_bind tidy fun _ isOpen => ?_
  obtain ⟨transaction, found, opens⟩ := checkOpen_eq_ok_iff.mp isOpen
  have moved : ledger.Steady (ledger.modifyTransaction id fun t => { t with posted }) aspect moving
      moving := steady_of_open isOpen fun _ => rfl
  have dated : (ledger.modifyTransaction id fun t => { t with posted }).transaction? id =
      some { transaction with posted } := by
    rw [transaction?_modifyTransaction, if_pos rfl, found]
    rfl
  have sound : (ledger.modifyTransaction id fun t => { t with posted }).Owned :=
    owned.linked (ownership_modifyTransaction fun _ => rfl) le_rfl
  simp only [ends_bind, ends_update, ends_read, splitsOf_eq dated]
  refine (ends_repositions (tidy_steady tidy moved) fun split inside =>
    loose_of_open sound dated opens inside).imp fun result after tidied => ?_
  cases result with
  | error _ => exact tidied
  | ok _ => exact tidy_markTransaction id tidied

theorem ends_setDates (owned : ledger.Owned) (tidy : Kept aspect moving ledger) (id : TransactionId)
    (date : Instant) :
    (setDates id date).Ends ledger fun _ after => Kept aspect moving after := by
  rw [setDates, ensureOpen_eq]
  refine ends_ask_bind tidy fun _ isOpen => ?_
  have sound : (ledger.modifyTransaction id fun t => { t with entered := date }).Owned :=
    owned.linked (ownership_modifyTransaction fun _ => rfl) le_rfl
  exact ends_setPosted sound (tidy_steady tidy (steady_of_open isOpen fun _ => rfl)) id date

theorem ends_setDay (owned : ledger.Owned) (tidy : Kept aspect moving ledger) (id : TransactionId)
    (day month : Nat) (year : Int) :
    (setDay id day month year).Ends ledger fun _ after => Kept aspect moving after := by
  unfold setDay
  split
  · exact ends_setDates owned tidy id _
  · exact tidy

theorem ends_setCaptionOf (caption : Caption) (text : String) (tidy : Kept aspect moving ledger)
    (loose : ledger.isLoose split = true) :
    (setCaptionOf split caption text).Ends ledger fun _ after => Kept aspect moving after ∧
      ∀ id, after.isLoose id = ledger.isLoose id := by
  have links : Split.KeepsLinks (α := α) (Split.setCaption caption text) := by
    cases caption <;> exact ⟨fun _ => rfl, fun _ => rfl⟩
  rw [setCaptionOf, ends_bind, ends_ask]
  cases ledger.split split with
  | error _ => exact ⟨tidy, fun _ => rfl⟩
  | ok _ =>
    have edited : Kept aspect moving (ledger.modifySplit split (Split.setCaption caption text)) := by
      refine tidy_edit tidy links (.inl loose) (.inr fun detached => ?_)
      simp [isLoose, detached] at loose
    dsimp only
    rw [ends_bind, ends_update, ends_update]
    refine ⟨tidy_steady edited steady_mark, fun id => ((mark_alike _ split).isLoose id).trans ?_⟩
    exact isLoose_congr (parentOf?_congr (Table.map_get?_modify ledger.splits split
      (Split.setCaption caption text) (·.parent) links.parent id)) fun _ _ => rfl

theorem ends_setCaption (owned : ledger.Owned) (tidy : Kept aspect moving ledger) (id : TransactionId)
    (caption : Caption) (text : String) :
    (setCaption id caption text).Ends ledger fun _ after => Kept aspect moving after := by
  rw [setCaption, ensureOpen_eq]
  refine ends_ask_bind tidy fun _ isOpen => ends_ask_bind tidy fun asked isOwner => ?_
  obtain ⟨transaction, found, opens⟩ := checkOpen_eq_ok_iff.mp isOpen
  obtain rfl : transaction = asked :=
    Option.some.inj (found.symm.trans (transaction_eq_ok_iff.mp isOwner))
  have loose (split) (inside : split ∈ transaction.splits) : ledger.isLoose split = true :=
    loose_of_open owned found opens inside
  have one (split) (inside : split ∈ transaction.splits) :=
    ends_setCaptionOf caption text tidy (loose split inside)
  rcases shape : transaction.splits with _ | ⟨first, _ | ⟨second, _ | ⟨third, rest⟩⟩⟩ <;> dsimp only
  · exact tidy
  · have only := (one first (by simp [shape])).imp fun _ _ tidied => tidied.1
    rw [ends_bind, ends_read]
    dsimp only
    rw [ends_ite]
    split
    · refine ends_ask_bind tidy fun _ _ => ?_
      rw [ends_ite]
      split
      · exact only
      · exact tidy
    · exact only
  · rw [ends_bind]
    refine (one first (by simp [shape])).imp fun result after ⟨tidied, same⟩ => ?_
    cases result with
    | error _ => exact tidied
    | ok _ =>
      exact (ends_setCaptionOf caption text tidied
        ((same second).trans (loose second (by simp [shape])))).imp fun _ _ tidied => tidied.1
  · exact (one first (by simp [shape])).imp fun _ _ tidied => tidied.1

end Upkeep

end DoubleEntry
