import DoubleEntry.Proofs.Upkeep.Membership

/-! # Registers through edit sessions

A commit closes a transaction with its registers as they are to be, but for one case: when two loose splits
share a register, each of them may keep the other out of its place.
-/

namespace DoubleEntry

open DoubleEntry.Action Ledger Links

variable {α J : Type} [Scalar α] {ledger before after : Ledger α J} {aspect : Aspect}
  {moving next : Option SplitId} {id split : SplitId} {account : AccountId} {owner : TransactionId}

namespace Upkeep

/-! ## Records -/

theorem keeps_writeRecord [Journal J α] (kind : EventKind) (id : TransactionId) :
    Keeps (Kept aspect moving) (writeRecord (J := J) (α := α) kind id) :=
  keeps_ask.bind fun _ => keeps_read.bind fun _ => keeps_mint.bind fun _ => keeps_toJournal _

theorem keeps_editing (id : TransactionId) (defer : Bool) :
    Keeps (Kept (α := α) (J := J) aspect moving) (setEditState id (.editing defer)) :=
  keeps_steady fun _ => steady_modifyTransaction (by exact fun _ _ => .inl rfl)

theorem keeps_beginEdit [Journal J α] (id : TransactionId) (defer : Bool) :
    Keeps (Kept aspect moving) (beginEdit (J := J) (α := α) id defer) :=
  keeps_ask.bind fun _ => (keeps_editing id defer).bind fun _ => (keeps_toJournal _).bind fun _ =>
    keeps_writeRecord _ id

/-! ## Splits that go -/

theorem tidy_eraseSplits (splits : List SplitId) (tidy : ledger.Tidy aspect moving none) :
    (splits.foldl (fun ledger split => (ledger.mark split).eraseSplit split) ledger).Tidy aspect moving
      none := by
  induction splits generalizing ledger with
  | nil => exact tidy
  | cons first rest ih => exact ih (tidy.steady steady_mark).eraseSplit

/-- A transaction goes, and splits that still name it may disturb their registers. -/
theorem tidy_dissolve (tidy : ledger.Tidy aspect moving none) (owner : TransactionId) :
    Tidy aspect moving none { ledger with transactions := ledger.transactions.erase owner } := by
  refine tidy.steady (steady_entries le_rfl (fun _ live => .inl live) (fun _ => rfl) (fun _ _ => rfl)
    fun id other _ parent closed => (Table.get?_erase ..).trans (if_neg ?_))
  rintro rfl
  have gone : { ledger with transactions := ledger.transactions.erase other }.transaction? other =
      none := (Table.get?_erase ..).trans (if_pos rfl)
  have parent : { ledger with transactions := ledger.transactions.erase other }.parentOf? id =
      some other := parent
  simp [mayDisturb, isLoose, parent, gone] at closed

theorem keeps_discardTransaction [Journal J α] (owner : TransactionId) :
    Keeps (Kept aspect moving) (discardTransaction (α := α) (J := J) owner) := by
  refine (keeps_writeRecord .destroyed owner).bind fun _ ledger tidy => ?_
  refine ends_ask_bind tidy fun transaction _ fresh => ?_
  have minted := minted_eraseSplits transaction.splits ledger
  exact tidy_dissolve (tidy_eraseSplits transaction.splits (tidy (minted ▸ fresh))) owner

/-! ## Sessions -/

theorem ends_destroyTransaction [Journal J α] (tidy : ledger.Tidy aspect moving none)
    (id : TransactionId) :
    (destroyTransaction id).Ends ledger fun _ after => Kept aspect moving after :=
  ((keeps_ensureOpen id).bind fun _ => keeps_discardTransaction id) ledger fun _ => tidy

theorem ends_rebalanceTransaction (tidy : Kept aspect moving ledger) (id : TransactionId)
    (room : aspect = .order → ∀ split ∈ ledger.splitsOf id, ledger.HasRoom moving split) :
    (rebalanceTransaction id).Ends ledger fun _ after => Kept aspect moving after := by
  rw [rebalanceTransaction]
  refine ends_ask_bind tidy fun transaction found => ?_
  rw [splitsOf_eq (transaction_eq_ok_iff.mp found)] at room
  cases isSource : transaction.source? with
  | none => exact tidy
  | some source =>
    exact ends_rebalanceSplit_tidy tidy fun order => room order source (List.mem_of_mem_head? isSource)

theorem ends_destroySplit [Journal J α] (owned : ledger.Owned) (tidy : ledger.Tidy aspect none none)
    (split : SplitId) :
    (destroySplit split).Ends ledger fun _ after => Kept aspect none after := by
  have kept : Kept aspect none ledger := fun _ => tidy
  refine ends_destroySplit_of kept (fun owner _ _ => keeps_discardTransaction owner ledger kept)
    fun owner transaction member several => ?_
  have sound := Ownership.owned_without owned (parentOf?_eq_some_iff.mp member.parent) member.isOwner
    (by omega)
  have erased : (ledger.without owner split).Tidy aspect none none :=
    (tidy.steady steady_mark).drop.eraseSplit
  have rest : (ledger.without owner split).transaction? owner = some (transaction.drop split) :=
    transaction?_without member.isOwner
  refine ends_rebalanceTransaction (fun _ => erased) owner fun _ other remains => ?_
  rw [splitsOf_eq rest] at remains
  exact .inr (.inl (loose_of_open sound rest member.isOpen remains))

omit [Scalar α] in
/-- A record changes nothing that a transaction stands beside. -/
theorem keeps_writeRecord_alone [Journal J α] {closed : Ledger α J} (kind : EventKind) :
    Keeps (fun after => after.StandsAlone owner → closed.StandsAlone owner)
      (writeRecord (J := J) (α := α) kind owner) :=
  keeps_ask.bind fun _ => keeps_read.bind fun _ => Keeps.bind (fun _ alone => alone) fun _ _ alone => alone

/-- A transaction is closed with its registers as they are to be, if its splits then stand alone in
them. -/
theorem ends_closeEdit [Journal J α] (owned : WhileFresh Owned ledger) (tidy : Kept aspect none ledger)
    (isOpen : ledger.checkOpen owner = .ok ()) :
    (closeEdit owner).Ends ledger fun _ after =>
      (aspect = .order → after.StandsAlone owner) → Kept aspect none after := by
  obtain ⟨transaction, found, opens⟩ := checkOpen_eq_ok_iff.mp isOpen
  rw [closeEdit, ends_bind, ends_ask, transaction_eq_ok_iff.mpr found]
  simp only [ends_bind, ends_update, setEditState]
  have minted := OfLinks.minted_ge (α := α) (J := J) ledger.minted
  have grows := minted.recomputeAll transaction.splits _ (minted.restoreOrder transaction.splits _ le_rfl)
  let last := ((ledger.restoreOrder transaction.splits).recomputeAll transaction.splits).closed owner
  have record : (writeRecord .committed owner).Ends last fun _ after =>
      after.StandsAlone owner → last.StandsAlone owner := keeps_writeRecord_alone _ last id
  intro alone
  refine keeps_writeRecord .committed owner last fun fresh => ?_
  have fresh : ledger.minted ≤ 2 ^ 128 := grows.trans fresh
  exact (tidy fresh).session (owned fresh) found opens fun order _ _ held _ listed parent _ beside loose =>
    StandsAlone.before_close found (record (alone order)) held listed parent beside loose

/-- A commit keeps registers tidy, if the splits of the transaction stand alone in them once it is
closed. -/
theorem ends_commitEdit [Journal J α] (owned : ledger.Owned) (tidy : ledger.Tidy aspect none none) :
    (commitEdit owner).Ends ledger fun _ after =>
      (aspect = .order → after.StandsAlone owner) → Kept aspect none after := by
  rw [commitEdit_eq, ends_bind, ensureOpen_eq, ends_ask]
  cases isOpen : ledger.checkOpen owner with
  | error _ => exact fun _ _ => tidy
  | ok _ =>
    obtain ⟨transaction, found, -⟩ := checkOpen_eq_ok_iff.mp isOpen
    have sound : (ledger.modifyTransaction owner fun t => { t with edit := .editing false }).Owned :=
      owned.linked (ownership_modifyTransaction fun _ => rfl) le_rfl
    have tidied : (ledger.modifyTransaction owner fun t => { t with edit := .editing false }).Tidy aspect
        none none := tidy.steady (steady_modifyTransaction (by exact fun _ _ => .inl rfl))
    have again : (ledger.modifyTransaction owner fun t => { t with edit := .editing false }).transaction?
        owner = some { transaction with edit := .editing false } := by
      rw [transaction?_modifyTransaction, if_pos rfl, found, Option.map_some]
    refine ends_bind.mpr (ends_update.mpr (ends_bind.mpr ?_))
    generalize (ledger.modifyTransaction owner fun t => { t with edit := .editing false }) = opened
      at sound tidied again ⊢
    have isOpen : opened.checkOpen owner = .ok () := checkOpen_eq_ok_iff.mpr ⟨_, again, rfl⟩
    have room (_ : aspect = .order) (split) (inside : split ∈ opened.splitsOf owner) :
        opened.HasRoom none split := by
      rw [splitsOf_eq again] at inside
      exact .inr (.inl (loose_of_open sound again rfl inside))
    have balanced := ends_rebalanceTransaction (fun _ => tidied) owner room
    have owns := keeps_rebalanceTransaction Ownership.keeps_rebalanceSplit owner opened fun _ => sound
    have edits := keeps_rebalanceTransaction keeps_rebalanceSplit_edits owner opened fun _ => rfl
    refine (balanced.and (owns.and edits)).imp ?_
    rintro (_ | _) after ⟨tidied, owned, edits⟩
    · exact fun _ => tidied
    · exact ends_closeEdit owned tidied (SameEdits.isOpen edits isOpen)

end Upkeep

end DoubleEntry
