import DoubleEntry.Proofs.Balance

/-! # What a commit guarantees

Under enforcement, a transaction that was committed is balanced: its splits are all in accounts, these
accounts share a commodity, and in it the splits sum to zero, up to one millionth. Two things are left
out. An account that puts rebalancing off puts off the rebalancing of a commit as well. And a lone source
is left alone by its amount, not by its value, so at a high price a small amount may be worth more.
-/

namespace DoubleEntry

open DoubleEntry.Action

namespace Ledger

variable {α J : Type} {ledger : Ledger α J}

theorem modifyTransaction_sameValues (id : TransactionId) {change : Transaction → Transaction}
    (keeps : ∀ transaction, (change transaction).splits = transaction.splits) :
    ledger.SameValues (ledger.modifyTransaction id change) := by
  refine ⟨⟨rfl, fun _ => rfl, ?_, fun _ => rfl⟩, fun _ => rfl⟩
  exact Table.map_get?_modify ledger.transactions id change (·.splits) keeps

theorem restoreOrder_sameValues (splits : List SplitId) (ledger : Ledger α J) :
    ledger.SameValues (ledger.restoreOrder splits) := by
  induction splits generalizing ledger with
  | nil => exact .refl ledger
  | cons split rest ih =>
    refine .trans ?_ (ih _)
    dsimp only
    cases ledger.accountOf? split with
    | none => exact .refl ledger
    | some account =>
      dsimp only [Book.restoreOrder]
      split
      · exact registered_sameValues ledger account split
      · exact .refl ledger

theorem recomputeAll_sameValues [Scalar α] (splits : List SplitId) (ledger : Ledger α J) :
    ledger.SameValues (ledger.recomputeAll splits) := by
  unfold recomputeAll
  induction (splits.filterMap ledger.accountOf?).eraseDups generalizing ledger with
  | nil => exact .refl ledger
  | cons account rest ih => exact (recompute_alike ledger account).sameValues.trans (ih _)

end Ledger

namespace Action

open Ledger

variable {α J : Type} [Scalar α] [Journal J α] {settled : Ledger α J}

/-- Closing a session changes no value. -/
theorem keeps_closeEdit_sameValues (id : TransactionId) :
    Keeps settled.SameValues (closeEdit (J := J) id) := by
  refine keeps_ask.bind fun transaction =>
    (keeps_update fun ledger same => same.trans (restoreOrder_sameValues _ ledger)).bind fun _ =>
      (keeps_update fun ledger same => same.trans (recomputeAll_sameValues _ ledger)).bind fun _ =>
        Keeps.bind ?_ fun _ => keeps_ask.bind fun _ => keeps_read.bind fun _ => Keeps.bind ?_ fun _ => ?_
  · exact keeps_update fun ledger same => same.trans (modifyTransaction_sameValues id fun _ => rfl)
  · exact fun ledger same => same.trans (sameValues_of_entries rfl rfl rfl rfl)
  · exact fun ledger same => same.trans (sameValues_of_entries rfl rfl rfl rfl)

/-- Closing a session takes no identifier back. -/
theorem ends_closeEdit_minted (id : TransactionId) :
    (closeEdit id).Ends settled fun _ after => settled.minted ≤ after.minted :=
  (OfLinks.minted_ge settled.minted).closeEdit id settled le_rfl

end Action

namespace Ledger

/-- All splits of a transaction are in accounts, and these have a commodity in common. -/
def SharesCommodity {α J : Type} (ledger : Ledger α J) (owner : TransactionId) : Prop :=
  ∃ commodity, ∀ entry ∈ ledger.splitsOf owner, ∃ split account holder,
    ledger.split? entry = some split ∧ split.account = some account ∧
      ledger.account? account = some holder ∧ holder.Has commodity

/-- The splits of a transaction sum to zero up to one millionth in a commodity that they share. A lone
source may be left with an amount of at most one millionth that is worth more. -/
structure Settled {J : Type} (ledger : Ledger Rat J) (owner : TransactionId) : Prop where
  balanced : ∃ sum, ledger.imbalance owner = .ok sum ∧ (|sum| ≤ 1 / 1000000 ∨
    ∃ source split, ledger.splitsOf owner = [source] ∧ ledger.split? source = some split ∧
      |split.amount| ≤ 1 / 1000000 ∧ 1 / 1000000 < |split.value|)
  shared : ledger.SharesCommodity owner

/-- Whether the account of the source of a transaction puts rebalancing off. -/
def sourceDefers {α J : Type} (ledger : Ledger α J) (owner : TransactionId) : Bool :=
  ((ledger.splitsOf owner).head?.bind ledger.accountOf?).any ledger.accounts.defers

section Sharing

variable {α J : Type} {ledger other : Ledger α J} {owner : TransactionId}

theorem accountOf_eq_some {id : SplitId} {split : Split α} {account : AccountId} {holder : Account}
    (found : ledger.accountOf id split = .ok (some (account, holder))) :
    split.account = some account ∧ ledger.account? account = some holder := by
  unfold accountOf at found
  cases within : split.account with
  | none => simp [within] at found
  | some place =>
    cases held : ledger.account? place with
    | none => simp [within, held] at found
    | some holder =>
      simp only [within, held, Except.ok.injEq, Option.some.injEq, Prod.mk.injEq] at found
      obtain ⟨rfl, rfl⟩ := found
      exact ⟨rfl, held⟩

theorem sharesCommodity_of_common {transaction : Transaction} {trigger : SplitId}
    {base : Option Commodity} (enforced : ledger.enforces = true)
    (isOwner : ledger.transaction? owner = some transaction)
    (common : ledger.commonCommodity owner trigger = .ok base) : ledger.SharesCommodity owner := by
  rcases accepts_of_commonCommodity isOwner common with ⟨-, tolerant⟩ | ⟨commodity, -, accepts⟩
  · simp [enforced] at tolerant
  · refine ⟨commodity, fun entry inside => ?_⟩
    rw [splitsOf_eq isOwner] at inside
    obtain ⟨split, isSplit, ⟨-, tolerant⟩ | ⟨account, holder, found, has⟩⟩ := accepts entry inside
    · simp [enforced] at tolerant
    · obtain ⟨within, held⟩ := accountOf_eq_some found
      exact ⟨split, account, holder, isSplit, within, held, has⟩

theorem SharesCommodity.sameHoldings (shared : ledger.SharesCommodity owner)
    (same : ledger.SameHoldings other) : other.SharesCommodity owner := by
  obtain ⟨commodity, places⟩ := shared
  refine ⟨commodity, fun entry inside => ?_⟩
  rw [same.splitsOf] at inside
  obtain ⟨split, account, holder, isSplit, within, held, has⟩ := places entry inside
  obtain ⟨after, isAfter, kept⟩ := same.split isSplit
  have accounts := same.accounts account
  rw [held, Option.map_some] at accounts
  obtain ⟨again, heldAgain, commodities⟩ := Option.map_eq_some_iff.mp accounts
  obtain ⟨currency, security⟩ := Prod.mk.inj commodities
  exact ⟨after, account, again, isAfter, kept.trans within, heldAgain,
    has.imp currency.trans security.trans⟩

end Sharing

section Settling

variable {J : Type} {ledger after : Ledger Rat J} {source : SplitId} {split : Split Rat}
  {owner : TransactionId} {transaction : Transaction} {base : Option Commodity}

theorem imbalance_eq {sum : Rat} (isOwner : ledger.transaction? owner = some transaction)
    (first : transaction.source? = some source) (common : ledger.commonCommodity owner source = .ok base)
    (valued : ledger.transactionValue owner none base = .ok sum) : ledger.imbalance owner = .ok sum := by
  rw [imbalance, transaction_eq_ok_iff.mpr isOwner, ok_bind, first]
  dsimp only
  rw [common, ok_bind, valued]

theorem Settled.sameValues (settled : ledger.Settled owner) (same : ledger.SameValues after) :
    after.Settled owner := by
  obtain ⟨⟨sum, valued, bound⟩, shared⟩ := settled
  refine ⟨⟨sum, same.imbalance valued, bound.imp id ?_⟩, shared.sameHoldings same.toSameHoldings⟩
  rintro ⟨source, split, alone, isSplit, negligible, matters⟩
  have terms := same.terms source
  rw [isSplit, Option.map_some] at terms
  obtain ⟨again, isAgain, kept⟩ := Option.map_eq_some_iff.mp terms
  obtain ⟨amount, price⟩ := Prod.mk.inj (Prod.mk.inj kept).2
  refine ⟨source, again, same.splitsOf.trans alone, isAgain, ?_, ?_⟩
  · rw [amount]
    exact negligible
  · rw [Split.value, amount, price]
    exact matters

/-- A lone source in an account is worth its value in the currency of that account. -/
theorem Alone.imbalance {account : AccountId} {holder : Account}
    (alone : ledger.Alone source split owner transaction account holder) :
    ledger.imbalance owner = .ok split.value := by
  have priced : ledger.valuation source split (some holder.currency) = .ok .priced := by
    simp only [valuation, accountOf, alone.within, alone.held, ok_bind, Account.valuation, if_true]
  have worth : ledger.worthOf owner (some holder.currency) source = .ok split.value :=
    worthOf_eq_ok_iff.mpr ⟨split, .priced, alone.isSplit, priced, rfl⟩
  refine imbalance_eq alone.isOwner (by rw [Transaction.source?, alone.alone]; rfl)
    alone.commonCommodity ?_
  rw [transactionValue, transaction_eq_ok_iff.mpr alone.isOwner, ok_bind, alone.alone]
  exact addWorths_eq_ok_iff.mpr ⟨by simp [worth, worthIn_eq worth], by simp [worthIn_eq worth]⟩

/-- The source and its counterpart sum to zero. -/
theorem Lone.imbalance {account : AccountId} {holder : Account}
    (lone : ledger.Lone source split owner transaction account holder) :
    (ledger.withCounterpart owner split).imbalance owner = .ok 0 := by
  refine imbalance_eq lone.transaction?_owner ?_
    (lone.commonCommodity_withCounterpart lone.split?_edited rfl) lone.balanced
  rw [Transaction.source?, lone.splits_push]
  rfl

/-- Rebalancing from the source under enforcement settles the transaction. -/
theorem Rebalanced.settled (active : ledger.Active source split owner transaction)
    (owned : ledger.Owned) (first : transaction.source? = some source)
    (enforced : ledger.enforces = true)
    (common : ledger.commonCommodity owner source = .ok base)
    (rebalanced : ledger.Rebalanced source split owner transaction base after) :
    after.Settled owner := by
  have shared := sharesCommodity_of_common enforced active.isOwner common
  cases rebalanced with
  | absorbed target amount? isTarget absorbs =>
    have same : ledger.SameHoldings (ledger.absorbed target amount?) := absorbed_sameHoldings
    obtain ⟨sum, valued, -, small⟩ := transactionValue_absorbed active.isOwner
      (owned.nodup active.isOwner) (Transaction.mem_of_target? isTarget) common absorbs
    obtain ⟨again, isAgain, lists⟩ := same.transaction active.isOwner
    have firstAgain : again.source? = some source := by rw [Transaction.source?, lists]; exact first
    exact ⟨⟨sum, imbalance_eq isAgain firstAgain (same.commonCommodity common) valued,
      .inl (small enforced)⟩, shared.sameHoldings same⟩
  | paired account holder amount? lone matters absorbs =>
    have shared := sharesCommodity_of_common (enforces_withCounterpart.trans enforced)
      lone.transaction?_owner (lone.commonCommodity_withCounterpart lone.split?_edited rfl)
    have paired : (ledger.withCounterpart owner split).Settled owner :=
      ⟨⟨0, lone.imbalance, .inl (by rw [abs_zero]; positivity)⟩, shared⟩
    exact paired.sameValues (lone.paired_sameValues absorbs)
  | rested alone idle =>
    have negligible : |split.amount| ≤ 1 / 1000000 := by
      rw [enforced, Bool.true_and, ← Bool.not_eq_true, Scalar.isSignificant_iff] at idle
      exact not_lt.mp idle
    obtain ⟨account, holder, within, held⟩ := held_of_commonCommodity enforced active.isSplit common
    have valued := Alone.imbalance ⟨active, alone, enforced, within, held⟩
    refine ⟨⟨split.value, valued, (le_or_gt _ _).imp id fun matters => ?_⟩, shared⟩
    exact ⟨source, split, (splitsOf_eq active.isOwner).trans alone, active.isSplit, negligible, matters⟩

end Settling

end Ledger

section Committing

open Ledger

variable {J : Type} {ledger : Ledger Rat J} {owner : TransactionId}

/-- Rebalancing an enforced transaction settles it if nothing puts that off. -/
theorem Action.ends_rebalanceTransaction_settled {transaction : Transaction} (owned : ledger.Owned)
    (enforced : ledger.enforces = true) (isOwner : ledger.transaction? owner = some transaction)
    (undeferred : transaction.edit.defers = false) (ready : ledger.sourceDefers owner = false) :
    (rebalanceTransaction owner).Ends ledger fun result after =>
      after.minted ≤ 2 ^ 128 → result = .ok () → after.Settled owner := by
  obtain ⟨source, rest, shape⟩ := List.exists_cons_of_ne_nil (owned.nonempty isOwner)
  have first : transaction.source? = some source := by rw [Transaction.source?, shape]; rfl
  obtain ⟨split, isSplit, parent⟩ := parent_eq_iff.mp
    ((owned.mem_iff isOwner).mp (shape ▸ List.mem_cons_self : source ∈ transaction.splits))
  have within : split.account.any ledger.accounts.defers = false := by
    rw [sourceDefers, splitsOf_eq isOwner, shape] at ready
    rw [← accountOf?_eq isSplit]
    exact ready
  have active : ledger.Active source split owner transaction :=
    ⟨isSplit, parent, isOwner, undeferred, within⟩
  rw [rebalanceTransaction, ends_bind, ends_ask, transaction_eq_ok_iff.mpr isOwner]
  dsimp only
  rw [first]
  intro fresh succeeds
  obtain ⟨base, common, rebalanced⟩ := active.rebalanced owned fresh succeeds
  exact rebalanced.settled active owned first enforced common

/-- A commit that succeeds under enforcement leaves its transaction settled, whatever the run was that
led to it, unless the account of the source puts rebalancing off. -/
theorem Reachable.commitEdit_settles [Journal J Rat] (reached : Reachable (fun _ => True) ledger)
    (enforced : ledger.enforces = true) (ready : ledger.sourceDefers owner = false)
    (fresh : (commitEdit owner ledger).ledger.minted ≤ 2 ^ 128)
    (succeeds : (commitEdit owner ledger).result = .ok ()) :
    (commitEdit owner ledger).ledger.Settled owner := by
  suffices ends : (commitEdit owner).Ends ledger fun result after =>
      after.minted ≤ 2 ^ 128 → result = .ok () → after.Settled owner from ends fresh succeeds
  rw [commitEdit_eq, ends_bind, ensureOpen_eq, ends_ask]
  cases isOpen : ledger.checkOpen owner with
  | error _ => exact fun _ => nofun
  | ok _ =>
    obtain ⟨transaction, isOwner, -⟩ := checkOpen_eq_ok_iff.mp isOpen
    let opened := ledger.modifyTransaction owner fun t => { t with edit := .editing false }
    have same : ledger.SameValues opened := modifyTransaction_sameValues owner fun _ => rfl
    have owned : opened.Owned :=
      reached.owned.linked (ownership_modifyTransaction (by exact fun _ => rfl)) le_rfl
    have isOpened : opened.transaction? owner = some { transaction with edit := .editing false } := by
      rw [transaction?_modifyTransaction, if_pos rfl, isOwner, Option.map_some]
    have stillReady : opened.sourceDefers owner = false := by
      rw [sourceDefers, same.splitsOf]
      exact ready
    refine ends_bind.mpr (ends_update.mpr (ends_bind.mpr ?_))
    refine (ends_rebalanceTransaction_settled owned enforced isOpened rfl stillReady).imp ?_
    intro result after settled
    cases result with
    | error _ => exact fun _ => nofun
    | ok _ =>
      intro fresh _
      have grows : after.minted ≤ _ := ends_closeEdit_minted owner
      have closes : after.SameValues _ := keeps_closeEdit_sameValues owner after (.refl after)
      exact (settled (grows.trans fresh) rfl).sameValues closes

/-- Committing a one-sided transaction settles it. -/
theorem Reachable.commitEdit_settles_oneSided :
    (commitEdit ⟨.ofNat 2⟩ (oneSided (5 : Rat) 1 false)).ledger.Settled ⟨.ofNat 2⟩ := by
  have reached : Reachable (fun _ => True) (oneSided (5 : Rat) 1 false) :=
    (Reachable.start _ _).after _ (fun _ _ => trivial) (by decide +kernel)
  exact Reachable.commitEdit_settles reached (by decide +kernel) (by decide +kernel) (by decide +kernel)
    (by decide +kernel)

/-- A commit may succeed and leave a sum of five where the account puts rebalancing off, and a sum of
sixteen where the amount of a lone source is negligible but its price is high. -/
theorem Reachable.commitEdit_unsettled :
    (Reachable (fun _ => True) (oneSided (5 : Rat) 1 true) ∧
      (oneSided (5 : Rat) 1 true).enforces = true ∧
      (commitEdit ⟨.ofNat 2⟩ (oneSided (5 : Rat) 1 true)).result = .ok () ∧
      (commitEdit ⟨.ofNat 2⟩ (oneSided (5 : Rat) 1 true)).ledger.imbalance ⟨.ofNat 2⟩ = .ok 5) ∧
    (Reachable (fun _ => True) (oneSided (1 / 1048576 : Rat) 16777216 false) ∧
      (oneSided (1 / 1048576 : Rat) 16777216 false).enforces = true ∧
      (commitEdit ⟨.ofNat 2⟩ (oneSided (1 / 1048576 : Rat) 16777216 false)).result = .ok () ∧
      (commitEdit ⟨.ofNat 2⟩ (oneSided (1 / 1048576 : Rat) 16777216 false)).ledger.imbalance
        ⟨.ofNat 2⟩ = .ok 16) := by
  refine ⟨⟨?_, ?_, ?_, ?_⟩, ?_, ?_, ?_, ?_⟩
  · exact (Reachable.start _ _).after _ (fun _ _ => trivial) (by decide +kernel)
  · decide +kernel
  · decide +kernel
  · decide +kernel
  · exact (Reachable.start _ _).after _ (fun _ _ => trivial) (by decide +kernel)
  · decide +kernel
  · decide +kernel
  · decide +kernel

end Committing

end DoubleEntry
