import DoubleEntry.Proofs.Relinking
import DoubleEntry.Proofs.Settling

/-! # What passes do to links

A pass that adds no split changes no link. A counterpart goes to the transaction of the lone source in
the one step that creates it; it names the account of the source from then on and is in its register
only after the transaction is settled.
-/

namespace DoubleEntry

namespace Ledger

open Links

variable {α J : Type} [Scalar α] {ledger : Ledger α J} {target : SplitId} {amount? : Option α}

theorem absorbed_alike : (ledger.withAmount target amount?).Alike (ledger.absorbed target amount?) :=
  (mark_alike _ _).trans (recompute?_alike _ _)

omit [Scalar α] in
theorem withAmount_sameLinks : ledger.SameLinks (ledger.withAmount target amount?) := by
  cases amount? with
  | none => exact ⟨rfl, rfl, rfl⟩
  | some amount =>
    exact ⟨ownership_modifySplit fun _ => rfl, membership_modifySplit fun _ => rfl, rfl⟩

theorem absorbed_sameLinks : ledger.SameLinks (ledger.absorbed target amount?) :=
  withAmount_sameLinks.trans absorbed_alike.sameLinks

variable {owner : TransactionId} {split : Split α}

theorem minted_withCounterpart : (ledger.withCounterpart owner split).minted = ledger.minted + 1 :=
  (mark_alike _ _).minted

/-- The counterpart goes to the transaction. -/
theorem ownership_withCounterpart (agree : ledger.ownership.Agree)
    (new : ledger.ownership.named ledger.nextSplit = none) :
    (ledger.withCounterpart owner split).ownership =
      ledger.ownership.move ledger.nextSplit (some (some owner)) := by
  let created := { ledger with
    splits := ledger.splits.insert ledger.nextSplit split.counterpart
    minted := ledger.minted + 1 }
  have comes : created.ownership = ledger.ownership.move ledger.nextSplit (some none) := by
    rw [agree.move_of_unheld (by simp [new]) (by simp)]
    exact ownership_insertSplit _ _
  have agrees : created.ownership.Agree := comes ▸ agree.move (by simp)
  have unheld : created.ownership.named ledger.nextSplit = some none := by
    rw [comes]
    exact Function.update_self ..
  rw [withCounterpart, (mark_alike _ _).ownership, ownership_attach agrees unheld fun _ => coe_push _,
    comes, move_move]

/-- The counterpart names its account, and is in no register yet. -/
theorem membership_withCounterpart : (ledger.withCounterpart owner split).membership =
    ⟨Function.update ledger.membership.named ledger.nextSplit (some split.account),
      ledger.membership.listed⟩ := by
  rw [withCounterpart, (mark_alike _ _).membership, membership_modifyTransaction,
    membership_modifySplit, membership_insertSplit]
  · rfl
  · exact fun _ => rfl

theorem enrolled_ownership {id : SplitId} {account : Option AccountId} :
    (ledger.enrolled id account).ownership = ledger.ownership := by
  cases account with
  | none => rfl
  | some account => exact (recompute_alike _ _).ownership

theorem enrolled_minted {id : SplitId} {account : Option AccountId} :
    (ledger.enrolled id account).minted = ledger.minted := by
  cases account with
  | none => rfl
  | some account => exact (recompute_alike _ _).minted

/-- Once it has entered the register, the counterpart is a member of the account that it names. -/
theorem enrolled_membership {after : Ledger α J} {id : SplitId} {account : Option AccountId}
    (agree : ledger.membership.Agree) (new : ledger.membership.named id = none)
    (named : after.membership =
      ⟨Function.update ledger.membership.named id (some account), ledger.membership.listed⟩) :
    (after.enrolled id account).membership = ledger.membership.move id (some account) := by
  cases account with
  | none => exact named.trans (agree.move_of_unheld (by simp [new]) (by simp)).symm
  | some account =>
    rw [enrolled, (recompute_alike _ _).membership, membership_registered, named,
      agree.move_eq account]
    intro other different
    rw [new]
    exact ⟨by simp, by simpa using different.symm⟩

end Ledger

namespace Action

variable {α J : Type} [Scalar α] {ledger : Ledger α J}

/-- A pass that adds no split leaves all links alone. -/
theorem ends_settle_sameLinks (edited : SplitId) :
    (settle (fun _ _ => pure ()) edited).Ends ledger fun _ after => ledger.SameLinks after := by
  rw [ends_settle]
  rcases ledger.settlement edited with _ | _ | ⟨transaction, target, base⟩ | _
  · exact ⟨rfl, rfl, rfl⟩
  · exact ⟨rfl, rfl, rfl⟩
  · dsimp only
    cases ledger.absorption transaction target base with
    | error _ => exact ⟨rfl, rfl, rfl⟩
    | ok _ => exact Ledger.absorbed_sameLinks
  · exact ⟨rfl, rfl, rfl⟩

/-- A counterpart takes one identifier, whether or not it is settled. -/
theorem ends_addCounterpart_minted {owner : TransactionId} {source : SplitId} {split : Split α}
    (found : ledger.split? source = some split) :
    (addCounterpart owner source).Ends ledger fun _ after => after.minted = ledger.minted + 1 := by
  rw [ends_addCounterpart (Ledger.split_eq_ok_iff.mpr found)]
  refine (ends_settle_sameLinks _).imp fun result after same => ?_
  have minted : after.minted = ledger.minted + 1 := same.minted.trans Ledger.minted_withCounterpart
  cases result with
  | error _ => exact minted
  | ok _ => exact Ledger.enrolled_minted.trans minted

/-- Rebalancing gives out identifiers and takes none back. -/
theorem ends_rebalanceSplit_minted (edited : SplitId) :
    (rebalanceSplit edited).Ends ledger fun _ after => ledger.minted ≤ after.minted := by
  rw [rebalanceSplit, ends_settle]
  rcases decided : ledger.settlement edited with _ | _ | ⟨transaction, target, base⟩ | ⟨owner, source⟩
  · exact le_rfl
  · exact le_rfl
  · dsimp only
    cases ledger.absorption transaction target base with
    | error _ => exact le_rfl
    | ok _ => exact Ledger.absorbed_sameLinks.minted.ge
  · obtain ⟨rfl, split, _, _, active, -⟩ := Ledger.settlement_eq_pair decided
    exact (ends_addCounterpart_minted active.isSplit).imp fun _ after minted => by omega

end Action

end DoubleEntry
