import DoubleEntry.Proofs.Concordance

/-! # Rebalancing that fails

Rebalancing is all or nothing. A pass that fails has decided so before it changed anything, and the pass
that follows a counterpart does not fail, so no counterpart is ever left without it. A commit opens its
transaction for rebalancing before it balances it; that is all that remains of one that fails there.
-/

namespace DoubleEntry

open DoubleEntry.Action

namespace Ledger

variable {α J : Type}

/-- The ledger with a session on a transaction that puts rebalancing off no longer. -/
def resumed (owner : TransactionId) (ledger : Ledger α J) : Ledger α J :=
  ledger.modifyTransaction owner fun t => { t with edit := .editing false }

theorem Owned.resumed {ledger : Ledger α J} (owned : ledger.Owned) (owner : TransactionId) :
    (ledger.resumed owner).Owned :=
  owned.linked (ownership_modifyTransaction (by exact fun _ => rfl)) le_rfl

variable [Scalar α] {ledger : Ledger α J} {edited source : SplitId} {split : Split α}
  {owner : TransactionId} {transaction : Transaction} {account : AccountId} {holder : Account}

/-- The pass that follows a counterpart succeeds. -/
theorem Lone.settles [ZeroPriced α] (lone : ledger.Lone edited split owner transaction account holder) :
    (settle (fun _ _ => pure ()) ledger.nextSplit).Ends (ledger.withCounterpart owner split)
      fun result _ => result = .ok () := by
  obtain ⟨amount?, absorbs⟩ := lone.absorption_next_ok
  rw [ends_settle, lone.settlement_next]
  dsimp only
  rw [absorbs]

end Ledger

namespace Action

open Ledger

variable {α J : Type} [Scalar α] [ZeroPriced α] {ledger : Ledger α J} {owner : TransactionId}

/-- Rebalancing a transaction that fails leaves the ledger as it was. -/
theorem ends_rebalanceTransaction_refused
    (new : ledger.minted < 2 ^ 128 → ledger.split? ledger.nextSplit = none) (owner : TransactionId) :
    (rebalanceTransaction owner).Ends ledger fun result after =>
      after.minted ≤ 2 ^ 128 → ∀ fault, result = .error fault → after = ledger := by
  rw [rebalanceTransaction, ends_bind, ends_ask]
  cases ledger.transaction owner with
  | error _ => exact fun _ _ _ => rfl
  | ok transaction =>
    dsimp only
    cases transaction.source? with
    | none => exact fun _ _ _ => rfl
    | some source => exact ends_rebalanceSplit_refused new source

omit [ZeroPriced α] in
/-- A commit of an open transaction that cannot be rebalanced stops there. -/
theorem commitEdit_of_refused [Journal J α] {fault : Fault} (isOpen : ledger.checkOpen owner = .ok ())
    (fails : (rebalanceTransaction owner (ledger.resumed owner)).result = .error fault) :
    (commitEdit owner ledger).result = .error fault ∧
      (commitEdit owner ledger).ledger =
        (rebalanceTransaction owner (ledger.resumed owner)).ledger := by
  suffices ends : (commitEdit owner).Ends ledger fun result after => result = .error fault ∧
      after = (rebalanceTransaction owner (ledger.resumed owner)).ledger from ends
  rw [commitEdit_eq, ends_bind, ensureOpen_eq, ends_ask, isOpen]
  refine ends_bind.mpr (ends_update.mpr (ends_bind.mpr ?_))
  change (rebalanceTransaction owner).Ends (ledger.resumed owner) _
  unfold Ends
  rw [fails]
  exact ⟨rfl, rfl⟩

end Action

section Atomic

open Ledger

variable {α J : Type} [Scalar α] [ZeroPriced α] [Journal J α] {ledger : Ledger α J}

/-- Whatever the run was that led to a ledger: rebalancing that fails, from a split or of a transaction,
leaves it exactly as it was; a commit that fails in its rebalancing leaves the transaction open and no
longer putting rebalancing off, and nothing else has changed; and where a lone source gets a counterpart,
the pass that follows succeeds. -/
theorem Reachable.rebalancing_atomic (reached : Reachable (fun _ => True) ledger) :
    (∀ edited fault, (rebalanceSplit edited ledger).ledger.minted ≤ 2 ^ 128 →
      (rebalanceSplit edited ledger).result = .error fault →
        (rebalanceSplit edited ledger).ledger = ledger) ∧
    (∀ owner fault, (rebalanceTransaction owner ledger).ledger.minted ≤ 2 ^ 128 →
      (rebalanceTransaction owner ledger).result = .error fault →
        (rebalanceTransaction owner ledger).ledger = ledger) ∧
    (∀ owner fault, ledger.checkOpen owner = .ok () →
      (rebalanceTransaction owner (ledger.resumed owner)).ledger.minted ≤ 2 ^ 128 →
      (rebalanceTransaction owner (ledger.resumed owner)).result = .error fault →
        (commitEdit owner ledger).result = .error fault ∧
          (commitEdit owner ledger).ledger = ledger.resumed owner) ∧
    (∀ edited source owner split, ledger.minted < 2 ^ 128 → ledger.split? source = some split →
      ledger.settlement edited = .ok (.pair owner source) →
        (settle (fun _ _ => pure ()) ledger.nextSplit (ledger.withCounterpart owner split)).result =
          .ok ()) := by
  have new (small : ledger.minted < 2 ^ 128) : ledger.split? ledger.nextSplit = none :=
    reached.owned.new small
  refine ⟨fun edited fault fresh fails => ?_, fun owner fault fresh fails => ?_,
    fun owner fault isOpen fresh fails => ?_, fun edited source owner split small isSplit decided => ?_⟩
  · exact ends_rebalanceSplit_refused new edited fresh fault fails
  · exact ends_rebalanceTransaction_refused new owner fresh fault fails
  · obtain ⟨failed, left⟩ := commitEdit_of_refused isOpen fails
    have again : (ledger.resumed owner).minted < 2 ^ 128 →
        (ledger.resumed owner).split? (ledger.resumed owner).nextSplit = none :=
      (reached.owned.resumed owner).new
    exact ⟨failed, left.trans (ends_rebalanceTransaction_refused again owner fresh fault fails)⟩
  · obtain ⟨rfl, entry, _, _, _, lone⟩ := lone_of_settlement (new small) decided
    obtain rfl : split = entry := Option.some.inj (isSplit.symm.trans lone.isSplit)
    exact lone.settles

/-- Source 2 of transaction 3 has an amount that split 5, at a price of zero, cannot take up; so far the
session puts rebalancing off. -/
def Ledger.unabsorbed : Ledger Rat (MemoryLog Rat) :=
  twoSided.after ([.beginEdit ⟨.ofNat 3⟩ true, .setPrice ⟨.ofNat 5⟩ 0, .setAmount ⟨.ofNat 2⟩ 50].map
    Deed.command)

/-- The commit of the transaction that cannot be balanced changes nothing but its session. -/
theorem Reachable.rebalancing_atomic_unabsorbed :
    let cause := Invalid.cannotAbsorb ⟨.ofNat 5⟩ ⟨.ofNat 3⟩ "0/1"
    (commitEdit ⟨.ofNat 3⟩ unabsorbed).result = .error (.invalid cause) ∧
      (commitEdit ⟨.ofNat 3⟩ unabsorbed).ledger = unabsorbed.resumed ⟨.ofNat 3⟩ := by
  have reached : Reachable (fun _ => True) unabsorbed :=
    ((Reachable.start _ _).after _ (fun _ _ => trivial) (by decide +kernel)).after _
      (fun _ _ => trivial) (by decide +kernel)
  have isOpen : unabsorbed.checkOpen ⟨.ofNat 3⟩ = .ok () := by rfl
  exact (Reachable.rebalancing_atomic reached).2.2.1 _ _ isOpen (by decide +kernel) (by decide +kernel)

end Atomic

end DoubleEntry
