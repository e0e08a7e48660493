import DoubleEntry.Proofs.Balance

/-! # A split that comes and goes

A split in no transaction that is appended to one and taken out again is in no transaction again, and the
transaction is what it was. Its value need not be. Appending settles the transaction, so the source takes up
the sum of the others, the new one included; taking the split out does not settle it again. What the source
took up stays, unless rebalancing was put off, the source is at a price of zero, or there was nothing to take
up.
-/

namespace DoubleEntry

open DoubleEntry.Action

theorem Transaction.drop_push {transaction : Transaction} {split : SplitId}
    (outside : split ∉ transaction.splits) : (transaction.push split).drop split = transaction := by
  have rest : (transaction.splits ++ [split]).filter (· ≠ split) = transaction.splits := by
    rw [List.filter_append, List.filter_cons_of_neg (by simp), List.filter_nil, List.append_nil,
      List.filter_eq_self]
    exact fun other inside => decide_eq_true fun same => outside (same ▸ inside)
  unfold drop push
  rw [rest]

namespace Ledger

section Parting

variable {α J : Type} {ledger : Ledger α J} {owner : TransactionId} {split : SplitId}

theorem split?_parted_of_ne {other : SplitId} (different : other ≠ split) :
    (ledger.parted owner split).split? other = ledger.split? other := by
  rw [parted, split?_modifySplit, if_neg different]
  rfl

theorem split?_joined_of_ne {other : SplitId} (different : other ≠ split) :
    (ledger.joined owner split).split? other = ledger.split? other := by
  change (ledger.modifySplit split fun s => { s with parent := some owner }).split? other = _
  rw [split?_modifySplit, if_neg different]

end Parting

/-! ## What appending comes to -/

section Appended

variable {α J : Type} [Scalar α] {ledger after : Ledger α J} {owner : TransactionId} {split source : SplitId}
  {entry : Split α} {transaction : Transaction}

theorem AlikeBut.refl (target : SplitId) (ledger : Ledger α J) : ledger.AlikeBut target ledger :=
  ⟨rfl, rfl, fun _ _ => rfl, rfl, fun _ => rfl, rfl⟩

/-- What the transaction comes to that a split of none was appended to: rebalancing was put off, or the
source took up the sum of the others. -/
inductive Appended (ledger : Ledger α J) (owner : TransactionId) (transaction : Transaction)
    (split : SplitId) (entry : Split α) : Ledger α J → Prop
  | rested (deferred : (transaction.edit.defers || entry.account.any ledger.accounts.defers) = true) :
    Appended ledger owner transaction split entry ((ledger.joined owner split).mark split)
  | settled (source : SplitId) (base : Option Commodity) (amount? : Option α)
    (goes : (transaction.edit.defers || entry.account.any ledger.accounts.defers) = false)
    (isSource : transaction.source? = some source)
    (common : ((ledger.joined owner split).mark split).commonCommodity owner split = .ok base)
    (absorbs : ((ledger.joined owner split).mark split).absorption owner source base = .ok amount?) :
    Appended ledger owner transaction split entry
      (((ledger.joined owner split).mark split).absorbed source amount?)

omit [Scalar α] in
theorem Owned.outside (owned : ledger.Owned) (isOwner : ledger.transaction? owner = some transaction)
    (isSplit : ledger.split? split = some entry) (detached : entry.parent = none) :
    split ∉ transaction.splits := by
  intro inside
  have named := (owned.mem_iff isOwner).mp inside
  rw [parent_eq_iff.mpr ⟨entry, isSplit, detached⟩] at named
  cases named

theorem Appended.alikeBut (appended : ledger.Appended owner transaction split entry after)
    (isSource : transaction.source? = some source) :
    ((ledger.joined owner split).mark split).AlikeBut source after := by
  cases appended with
  | rested _ => exact .refl source _
  | settled again _ _ _ isAgain _ _ =>
    obtain rfl : source = again := Option.some.inj (isSource.symm.trans isAgain)
    exact absorbed_alikeBut

theorem Appended.listed (appended : ledger.Appended owner transaction split entry after)
    (isOwner : ledger.transaction? owner = some transaction) (isSource : transaction.source? = some source) :
    after.transaction? owner = some (transaction.push split) := by
  rw [transaction?, (appended.alikeBut isSource).transactions]
  exact (transaction?_mark split owner).trans (transaction?_joined split isOwner)

end Appended

/-! ## What is left when the split is gone -/

section Restored

variable {J : Type} {ledger after : Ledger Rat J} {owner : TransactionId} {split source : SplitId}
  {entry : Split Rat} {transaction : Transaction}

/-- Once the split is gone again, the transaction is as it was, and so are all splits but the source, which
may have another amount. -/
theorem Appended.restored (appended : ledger.Appended owner transaction split entry after)
    (owned : ledger.Owned) (isOwner : ledger.transaction? owner = some transaction)
    (isSplit : ledger.split? split = some entry) (detached : entry.parent = none)
    (isSource : transaction.source? = some source) :
    ((after.parted owner split).mark split).transaction? owner = some transaction ∧
    (∀ id, id ≠ source → (((after.parted owner split).mark split).split? id).map Split.bare =
      (ledger.split? id).map Split.bare) ∧
    ((after.parted owner split).mark split).value source = after.value source := by
  have outside := owned.outside isOwner isSplit detached
  have different : split ≠ source := fun same => outside (same ▸ List.mem_of_mem_head? isSource)
  refine ⟨?_, fun id other => ?_, ?_⟩
  · rw [transaction?_mark, transaction?_parted split (appended.listed isOwner isSource),
      Transaction.drop_push outside]
  · have kept := (appended.alikeBut isSource).others id other
    rw [split?_mark] at kept ⊢
    by_cases same : id = split
    · subst same
      have back : (after.parted owner id).split? id =
          (after.split? id).map fun s => { s with parent := none } := by
        rw [parted, split?_modifySplit, if_pos rfl]
        rfl
      rw [back, Option.map_map, map_of_bare _ (fun _ => rfl) kept, split?_joined isSplit, isSplit,
        Option.map_some, Option.map_some]
      exact congrArg some (congrArg (fun parent => ({ entry with parent } : Split Rat).bare) detached.symm)
    · rw [split?_parted_of_ne same, kept, split?_joined_of_ne same]
  · rw [value, split?_mark, split?_parted_of_ne different.symm, value]

end Restored

end Ledger

section Restoring

open Ledger

variable {J : Type} [Journal J Rat] {ledger : Ledger Rat J} {owner : TransactionId} {split : SplitId}
  {entry : Split Rat} {transaction : Transaction}

end Restoring

end DoubleEntry
