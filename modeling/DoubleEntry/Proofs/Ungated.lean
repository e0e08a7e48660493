import DoubleEntry.Proofs.Expressing

/-! # Rebalancing without a session

Rebalancing is the one thing that changes a transaction without asking whether it is open. A closed
transaction keeps its splits and their amounts only where nothing is due: rebalancing is put off by an
account or fails, or the split that would take up the difference cannot or has nothing to take up. What was
committed need not be like that, since a commit may leave a difference: the account of the source may put
rebalancing off at that time, and a split at a price of zero takes up nothing as the second split, but the
source takes up something when that split is edited.
-/

namespace DoubleEntry

open DoubleEntry.Action

namespace Ledger

variable {J : Type} {ledger after : Ledger Rat J} {owner : TransactionId} {edited : SplitId}
  {transaction : Transaction} {split : Split Rat} {base : Option Commodity}

/-- Ledgers in which a transaction has the same splits at the same amounts. -/
structure SameAmounts (ledger after : Ledger Rat J) (owner : TransactionId) : Prop where
  list : after.splitsOf owner = ledger.splitsOf owner
  amounts : ∀ id ∈ ledger.splitsOf owner, after.amount id = ledger.amount id

theorem SameAmounts.refl (ledger : Ledger Rat J) (owner : TransactionId) : ledger.SameAmounts ledger owner :=
  ⟨rfl, fun _ _ => rfl⟩

/-- Why a rebalancing from a split has nothing to change. -/
inductive NothingDue (ledger : Ledger Rat J) (owner : TransactionId) (transaction : Transaction)
    (edited : SplitId) : Prop
  | postponed (account : (ledger.accountOf? edited).any ledger.accounts.defers = true)
  | refused (fault : Fault) (fails : (rebalanceSplit edited ledger).result = .error fault)
  | alone (lone : transaction.splits = [edited])
    (idle : ¬ (ledger.enforces = true ∧ 1 / 1000000 < |ledger.amount edited|))
  | unable (target : SplitId) (base : Option Commodity)
    (isTarget : transaction.target? edited = some target)
    (common : ledger.commonCommodity owner edited = .ok base) (inert : ledger.Inert base target)
  | level (target : SplitId) (base : Option Commodity)
    (isTarget : transaction.target? edited = some target)
    (common : ledger.commonCommodity owner edited = .ok base)
    (zero : ledger.transactionValue owner none base = .ok 0)

theorem amount_absorbed {target : SplitId} (isSplit : ledger.split? target = some split)
    (amount? : Option Rat) :
    (ledger.absorbed target amount?).amount target = amount?.getD split.amount :=
  congrArg (Option.getD · 0) (map_of_bare (·.amount) (fun _ => rfl) (split?_absorbed isSplit amount?))

/-- A split that took up the sum of the others keeps its amount exactly if it is inert or there was nothing
to take up. -/
theorem sameAmounts_absorbed_iff {target : SplitId} {amount? : Option Rat}
    (isOwner : ledger.transaction? owner = some transaction) (distinct : transaction.splits.Nodup)
    (inside : target ∈ transaction.splits)
    (absorbs : ledger.absorption owner target base = .ok amount?) :
    ledger.SameAmounts (ledger.absorbed target amount?) owner ↔
      ledger.Inert base target ∨ ledger.transactionValue owner none base = .ok 0 := by
  obtain ⟨sum, entry, valuation, -, isSplit, valued, finds, -⟩ := absorption_eq_ok absorbs
  have cannot : amount? = none ↔ ledger.Inert base target :=
    finds ▸ amountFor?_eq_none_iff isSplit valued (-sum)
  have amount : ledger.amount target = entry.amount := by simp [Ledger.amount, isSplit]
  have taken := amount_absorbed isSplit amount?
  have keeps : ledger.SameAmounts (ledger.absorbed target amount?) owner ↔
      amount?.getD entry.amount = entry.amount := by
    rw [← taken, ← amount]
    refine ⟨fun same => same.amounts target (splitsOf_eq isOwner ▸ inside), fun kept => ?_⟩
    refine ⟨absorbed_sameHoldings.splitsOf, fun id _ => ?_⟩
    by_cases same : id = target
    · rw [same, kept]
    · exact amount_of_bare (absorbed_alikeBut.others id same)
  rw [keeps, ← cannot]
  cases amount? with
  | none => simp
  | some amount =>
    simp only [Option.getD_some, reduceCtorEq, false_or]
    exact amount_of_absorption_iff isOwner distinct inside isSplit absorbs

section Rebalancing

variable (active : ledger.Active edited split owner transaction) (owned : ledger.Owned)
  (common : ledger.commonCommodity owner edited = .ok base)

include active common

/-- What can be the reason where a rebalancing is not put off and succeeds. -/
theorem nothingDue_iff (succeeds : (rebalanceSplit edited ledger).result = .ok ()) :
    ledger.NothingDue owner transaction edited ↔
      transaction.splits = [edited] ∧ ¬ (ledger.enforces = true ∧ 1 / 1000000 < |split.amount|) ∨
      ∃ target, transaction.target? edited = some target ∧
        (ledger.Inert base target ∨ ledger.transactionValue owner none base = .ok 0) := by
  have within : ledger.accountOf? edited = split.account := accountOf?_eq active.isSplit
  have amount : ledger.amount edited = split.amount := by simp [Ledger.amount, active.isSplit]
  rw [← amount]
  constructor
  · intro nothing
    cases nothing with
    | postponed account => exact absurd account (by simp [within, active.ready])
    | refused _ fails => cases succeeds.symm.trans fails
    | alone lone idle => exact .inl ⟨lone, idle⟩
    | unable target again isTarget found inert =>
      obtain rfl : base = again := Except.ok.inj (common.symm.trans found)
      exact .inr ⟨target, isTarget, .inl inert⟩
    | level target again isTarget found zero =>
      obtain rfl : base = again := Except.ok.inj (common.symm.trans found)
      exact .inr ⟨target, isTarget, .inr zero⟩
  · rintro (⟨lone, idle⟩ | ⟨target, isTarget, inert | zero⟩)
    · exact .alone lone idle
    · exact .unable target base isTarget common inert
    · exact .level target base isTarget common zero

include owned

/-- What a rebalancing comes to leaves the amounts as they are exactly if nothing was due. -/
theorem Rebalanced.sameAmounts_iff (rebalanced : ledger.Rebalanced edited split owner transaction base after)
    (succeeds : (rebalanceSplit edited ledger).result = .ok ()) :
    ledger.SameAmounts after owner ↔ ledger.NothingDue owner transaction edited := by
  have achieved := rebalanced.postcondition active owned common
  have targetless : transaction.target? edited = none ↔ transaction.splits = [edited] :=
    Transaction.target?_eq_none (owned.nonempty active.isOwner)
  rw [nothingDue_iff active common succeeds]
  cases rebalanced with
  | absorbed target amount? isTarget absorbs =>
    have several : transaction.splits ≠ [edited] := fun lone => by simp [targetless.mpr lone] at isTarget
    rw [sameAmounts_absorbed_iff active.isOwner (owned.nodup active.isOwner)
      (Transaction.mem_of_target? isTarget) absorbs]
    simp [several, isTarget]
  | paired account holder amount? lone matters absorbs =>
    have significant := Scalar.isSignificant_iff.mp matters
    obtain ⟨other, -, both, -⟩ := achieved.lone (by rw [lone.alone]; rfl) lone.enforced significant
    refine iff_of_false (fun same => ?_) ?_
    · have list := same.list
      rw [both, splitsOf_eq active.isOwner, lone.alone] at list
      simp at list
    · rintro (⟨-, idle⟩ | ⟨target, isTarget, -⟩)
      · exact idle ⟨lone.enforced, significant⟩
      · rw [targetless.mpr lone.alone] at isTarget
        cases isTarget
  | rested alone idle =>
    refine iff_of_true (.refl ledger owner) (.inl ⟨alone, ?_⟩)
    rw [← Scalar.isSignificant_iff, ← Bool.and_eq_true, idle]
    exact nofun

/-- What a rebalancing comes to: more splits at the end of the list at most, and at most another amount of
the target. -/
theorem Rebalanced.others (rebalanced : ledger.Rebalanced edited split owner transaction base after)
    (inside : edited ∈ transaction.splits) :
    transaction.splits <+: after.splitsOf owner ∧
    ∀ id ∈ transaction.splits, transaction.target? edited ≠ some id →
      after.amount id = ledger.amount id := by
  have listed := splitsOf_eq active.isOwner
  have achieved := rebalanced.postcondition active owned common
  cases rebalanced with
  | absorbed target amount? isTarget absorbs =>
    have same : ledger.SameHoldings (ledger.absorbed target amount?) := absorbed_sameHoldings
    refine ⟨by rw [same.splitsOf, listed], fun id _ different => ?_⟩
    exact amount_of_bare (absorbed_alikeBut.others id fun same => different (same ▸ isTarget))
  | paired account holder amount? lone matters absorbs =>
    obtain ⟨other, -, both, kept, -⟩ := achieved.lone (by rw [lone.alone]; rfl) lone.enforced
      (Scalar.isSignificant_iff.mp matters)
    rw [both, lone.alone]
    refine ⟨List.prefix_append [edited] [other], fun id only _ => ?_⟩
    obtain rfl := List.mem_singleton.mp only
    rw [amount, kept, amount, active.isSplit]
    rfl
  | rested _ _ => exact ⟨by rw [listed], fun _ _ _ => rfl⟩

end Rebalancing

/-- What a rebalancing does to a transaction that does not put it off. It leaves the list and the amounts as
they are exactly if nothing is due, adds splits at the end of the list at most, and changes the amount of
the target at most. -/
structure DoesWhatIsDue (ledger after : Ledger Rat J) (owner : TransactionId) (transaction : Transaction)
    (edited : SplitId) : Prop where
  same_iff : ledger.SameAmounts after owner ↔ ledger.NothingDue owner transaction edited
  list : transaction.splits <+: after.splitsOf owner
  others : ∀ id ∈ transaction.splits, transaction.target? edited ≠ some id →
    after.amount id = ledger.amount id

theorem NothingDue.unchanged (nothing : ledger.NothingDue owner transaction edited)
    (isOwner : ledger.transaction? owner = some transaction) :
    ledger.DoesWhatIsDue ledger owner transaction edited :=
  ⟨iff_of_true (.refl ledger owner) nothing, by rw [splitsOf_eq isOwner], fun _ _ _ => rfl⟩

theorem Owned.doesWhatIsDue (owned : ledger.Owned) (isOwner : ledger.transaction? owner = some transaction)
    (undeferred : transaction.edit.defers = false) (inside : edited ∈ transaction.splits)
    (fresh : (rebalanceSplit edited ledger).ledger.minted ≤ 2 ^ 128) :
    ledger.DoesWhatIsDue (rebalanceSplit edited ledger).ledger owner transaction edited := by
  obtain ⟨split, isSplit, parent⟩ := parent_eq_iff.mp ((owned.mem_iff isOwner).mp inside)
  cases ready : split.account.any ledger.accounts.defers with
  | true =>
    have rests : (rebalanceSplit edited).Ends ledger fun _ after => after = ledger := by
      rw [rebalanceSplit, ends_settle, settlement_of_deferred isSplit parent isOwner (by simp [ready])]
    rw [show (rebalanceSplit edited ledger).ledger = ledger from rests]
    exact NothingDue.unchanged (.postponed (by rw [accountOf?_eq isSplit, ready])) isOwner
  | false =>
    have active : ledger.Active edited split owner transaction := ⟨isSplit, parent, isOwner, undeferred, ready⟩
    cases result : (rebalanceSplit edited ledger).result with
    | error fault =>
      have refused := ends_rebalanceSplit_refused owned.new edited fresh fault result
      rw [refused]
      exact NothingDue.unchanged (.refused fault result) isOwner
    | ok _ =>
      obtain ⟨base, common, rebalanced⟩ := active.rebalanced owned fresh result
      obtain ⟨list, others⟩ := rebalanced.others active owned common inside
      exact ⟨rebalanced.sameAmounts_iff active owned common result, list, others⟩

end Ledger

section Ungated

open Ledger

variable {J : Type} [Journal J Rat] {ledger : Ledger Rat J} {owner : TransactionId} {edited : SplitId}
  {transaction : Transaction}

/-- Rebalancing a closed transaction, from one of its splits or as a whole, in any ledger that can be
reached. Its list and its amounts stay as they are exactly if nothing is due, and change otherwise without a
session: a lone source gets a counterpart, or one split takes up the sum of the others. -/
theorem Reachable.rebalanceSplit_closed (reached : Reachable (fun _ => True) ledger)
    (isOwner : ledger.transaction? owner = some transaction) (closed : transaction.edit = .closed)
    (inside : edited ∈ transaction.splits)
    (fresh : (rebalanceSplit edited ledger).ledger.minted ≤ 2 ^ 128) :
    ledger.DoesWhatIsDue (rebalanceSplit edited ledger).ledger owner transaction edited ∧
    (transaction.source? = some edited →
      rebalanceTransaction owner ledger = rebalanceSplit edited ledger) := by
  refine ⟨reached.owned.doesWhatIsDue isOwner (by rw [closed]; rfl) inside fresh, fun isSource => ?_⟩
  rw [rebalanceTransaction, ask_bind, transaction_eq_ok_iff.mpr isOwner]
  dsimp only
  rw [isSource]

/-- Closed transaction 1 has the source 0 of fifty and split 2 at a price of zero. -/
def Ledger.lopsided : Ledger Rat (MemoryLog Rat) :=
  (Ledger.start ⟨.tolerant⟩ {}).after
    [.command .createTransaction, .command .createSplit, .command (.beginEdit ⟨.ofNat 1⟩ false),
      .command (.appendSplit ⟨.ofNat 1⟩ ⟨.ofNat 2⟩), .command (.setPrice ⟨.ofNat 2⟩ 0),
      .command (.setAmount ⟨.ofNat 0⟩ 50), .command (.commitEdit ⟨.ofNat 1⟩)]

theorem Ledger.reachable_lopsided : Reachable (fun _ => True) lopsided :=
  (Reachable.start _ _).after _ (fun _ _ => trivial) (by decide +kernel)

/-- A one-sided transaction that was committed while its account put rebalancing off. -/
def Ledger.shutOneSided : Ledger Rat (MemoryLog Rat) :=
  (oneSided (5 : Rat) 1 true).after [.command (.commitEdit ⟨.ofNat 2⟩), .setDefers ⟨.ofNat 0⟩ false]

/-- From the source there is nothing due, as the other split cannot take up anything. -/
theorem Reachable.rebalanceSplit_closed_lopsided :
    lopsided.SameAmounts (rebalanceSplit ⟨.ofNat 0⟩ lopsided).ledger ⟨.ofNat 1⟩ := by
  have shut : (lopsided.transaction? ⟨.ofNat 1⟩).map (fun transaction => (transaction.splits, transaction.edit)) =
      some ([⟨.ofNat 0⟩, ⟨.ofNat 2⟩], .closed) := by decide +kernel
  obtain ⟨transaction, isOwner, shape⟩ := Option.map_eq_some_iff.mp shut
  obtain ⟨list, closed⟩ := Prod.mk.inj shape
  obtain ⟨due, -⟩ := Reachable.rebalanceSplit_closed reachable_lopsided isOwner closed
    (by rw [list]; exact List.mem_cons_self) (by decide +kernel)
  refine due.same_iff.mpr (.unable ⟨.ofNat 2⟩ none ?_ ?_ ?_)
  · rw [Transaction.target?, list]
    rfl
  · decide +kernel
  · decide +kernel

/-- A closed transaction gets a second split as soon as its account no longer puts rebalancing off; and the
source of another one loses its amount when it is rebalanced from its other split. -/
theorem Reachable.rebalanceSplit_reopens :
    (Reachable (fun _ => True) shutOneSided ∧
      (shutOneSided.transaction? ⟨.ofNat 2⟩).map (·.edit) = some .closed ∧
      shutOneSided.splitsOf ⟨.ofNat 2⟩ = [⟨.ofNat 1⟩] ∧
      ((rebalanceTransaction ⟨.ofNat 2⟩ shutOneSided).ledger.splitsOf ⟨.ofNat 2⟩).length = 2) ∧
    (Reachable (fun _ => True) lopsided ∧
      (lopsided.transaction? ⟨.ofNat 1⟩).map (·.edit) = some .closed ∧
      lopsided.splitsOf ⟨.ofNat 1⟩ = [⟨.ofNat 0⟩, ⟨.ofNat 2⟩] ∧ lopsided.amount ⟨.ofNat 0⟩ = 50 ∧
      (rebalanceSplit ⟨.ofNat 2⟩ lopsided).ledger.amount ⟨.ofNat 0⟩ = 0) := by
  refine ⟨⟨?_, ?_, ?_, ?_⟩, reachable_lopsided, ?_, ?_, ?_, ?_⟩
  · exact ((Reachable.start _ _).after _ (fun _ _ => trivial) (by decide +kernel)).after _
      (fun _ _ => trivial) (by decide +kernel)
  all_goals decide +kernel

end Ungated

end DoubleEntry
