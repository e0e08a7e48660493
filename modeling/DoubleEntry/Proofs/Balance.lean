import Mathlib
import DoubleEntry.Proofs.Counterpart
import DoubleEntry.Proofs.Narrowing
import DoubleEntry.Proofs.Ownership

/-! # What rebalancing achieves

With exact arithmetic, a split that takes up the sum of the others brings the sum of its transaction to
zero, whether it is expressed by its shares or by its price. Only a split at a price of zero cannot do
so; it keeps its amount, and under enforcement the sum was no more than one millionth from zero. A lone
source and its counterpart sum to zero in the currency of their account.
-/

namespace DoubleEntry

open DoubleEntry.Action

theorem Scalar.isSignificant_iff {x : Rat} : Scalar.isSignificant x = true ↔ 1 / 1000000 < |x| := by
  simp only [Scalar.isSignificant, decide_eq_true_eq, lt_abs]

theorem Scalar.isZero_iff {x : Rat} : Scalar.isZero x = true ↔ x = 0 := by
  simp [Scalar.isZero]

/-- The amount that is found for a worth gives this worth. -/
theorem Valuation.worth?_of_amountFor? {split : Split Rat} {value amount : Rat} {valuation : Valuation}
    (found : valuation.amountFor? split value = some amount) :
    valuation.worth? { split with amount } = some value := by
  cases valuation with
  | priced =>
    simp only [amountFor?, Scalar.isZero_iff] at found
    split at found
    · contradiction
    · rename_i price
      obtain rfl := Option.some.inj found
      exact congrArg some (div_mul_cancel₀ value price)
  | shares =>
    obtain rfl := Option.some.inj found
    rfl
  | inexpressible => contradiction

namespace Ledger

variable {J : Type} {ledger after : Ledger Rat J} {owner : TransactionId} {base : Option Commodity}
  {splits : List SplitId} {target : SplitId} {start sum : Rat}

/-- What a split is worth in a commodity, if it can be told. -/
def worthIn (ledger : Ledger Rat J) (owner : TransactionId) (base : Option Commodity)
    (entry : SplitId) : Rat :=
  match ledger.worthOf owner base entry with
  | .ok worth => worth
  | .error _ => 0

theorem worthIn_eq {entry : SplitId} {worth : Rat}
    (valued : ledger.worthOf owner base entry = .ok worth) : ledger.worthIn owner base entry = worth := by
  rw [worthIn, valued]

/-- With exact arithmetic a sum of worths is the sum of a list. -/
theorem addWorths_eq_ok_iff : ledger.addWorths owner base start splits = .ok sum ↔
    (∀ entry ∈ splits, ledger.worthOf owner base entry = .ok (ledger.worthIn owner base entry)) ∧
      start + (splits.map (ledger.worthIn owner base)).sum = sum := by
  induction splits generalizing start with
  | nil => simp [addWorths]
  | cons entry rest ih =>
    rw [addWorths_cons, bind_eq_ok_iff, List.map_cons, List.sum_cons, List.forall_mem_cons]
    constructor
    · rintro ⟨worth, valued, added⟩
      obtain ⟨all, total⟩ := ih.mp added
      rw [worthIn_eq valued]
      refine ⟨⟨valued, all⟩, ?_⟩
      rw [← add_assoc]
      exact total
    · rintro ⟨⟨valued, all⟩, total⟩
      refine ⟨_, valued, ih.mpr ⟨all, ?_⟩⟩
      rw [← add_assoc] at total
      exact total

/-- The worth of one split stands apart from the sum of the others. -/
theorem sum_apart {worths : SplitId → Rat} (distinct : splits.Nodup) (inside : target ∈ splits) :
    (splits.map worths).sum =
      ((splits.filter fun entry => some target ≠ some entry).map worths).sum + worths target := by
  have others : (splits.filter fun entry => some target ≠ some entry) = splits.erase target := by
    rw [distinct.erase_eq_filter]
    refine List.filter_congr fun entry _ => ?_
    by_cases same : entry = target
    · simp [same]
    · simp [same, Ne.symm same]
  rw [others, add_comm, List.sum_map_erase worths inside]

variable {transaction : Transaction}

/-- The sum of a transaction is the sum of all splits but one and the worth of that one. -/
theorem transactionValue_of_apart {worth : Rat}
    (isOwner : ledger.transaction? owner = some transaction) (distinct : transaction.splits.Nodup)
    (inside : target ∈ transaction.splits)
    (others : ledger.transactionValue owner (some target) base = .ok sum)
    (valued : ledger.worthOf owner base target = .ok worth) :
    ledger.transactionValue owner none base = .ok (sum + worth) := by
  rw [transactionValue, transaction_eq_ok_iff.mpr isOwner, ok_bind] at others ⊢
  obtain ⟨all, total⟩ := addWorths_eq_ok_iff.mp others
  have whole : (transaction.splits.filter fun entry => (none : Option SplitId) ≠ some entry) =
      transaction.splits := by simp
  rw [whole]
  refine addWorths_eq_ok_iff.mpr ⟨fun entry isEntry => ?_, ?_⟩
  · by_cases same : entry = target
    · rw [same, valued, worthIn_eq valued]
    · exact all entry (List.mem_filter.mpr ⟨isEntry, by simpa using Ne.symm same⟩)
  · rw [sum_apart distinct inside, worthIn_eq valued, ← total]
    exact (add_assoc _ _ _).symm

/-! ## Taking up the sum of the others -/

variable {amount? : Option Rat} {amount : Rat}

/-- What the decision on a new amount rests on. -/
theorem absorption_eq_ok (absorbs : ledger.absorption owner target base = .ok amount?) :
    ∃ sum split valuation, ledger.transactionValue owner (some target) base = .ok sum ∧
      ledger.split? target = some split ∧ ledger.valuation target split base = .ok valuation ∧
      valuation.amountFor? split (-sum) = amount? ∧
      (amount? = none → ledger.enforces = true → |sum| ≤ 1 / 1000000) := by
  obtain ⟨sum, others, decided⟩ := bind_eq_ok_iff.mp absorbs
  obtain ⟨split, isSplit, decided⟩ := bind_eq_ok_iff.mp decided
  obtain ⟨valuation, valued, decided⟩ := bind_eq_ok_iff.mp decided
  dsimp only at decided
  split at decided
  · contradiction
  · rename_i tolerable
    obtain rfl := Except.ok.inj decided
    refine ⟨sum, split, valuation, others, split_eq_ok_iff.mp isSplit, valued, rfl, ?_⟩
    intro keeps enforced
    rw [keeps, enforced] at tolerable
    simpa [Scalar.isSignificant_iff] using tolerable

/-- A split that finds an amount brings the sum of its transaction to zero. -/
theorem transactionValue_withAmount (isOwner : ledger.transaction? owner = some transaction)
    (distinct : transaction.splits.Nodup) (inside : target ∈ transaction.splits)
    (absorbs : ledger.absorption owner target base = .ok (some amount)) :
    (ledger.withAmount target (some amount)).transactionValue owner none base = .ok 0 := by
  obtain ⟨sum, split, valuation, others, isSplit, valued, finds, -⟩ := absorption_eq_ok absorbs
  have same : ledger.SameHoldings (ledger.withAmount target (some amount)) := withAmount_sameHoldings
  have rest : (ledger.withAmount target (some amount)).transactionValue owner (some target) base =
      .ok sum := by
    refine same.transactionValue (fun entry different => ?_) others
    rw [split?_withAmount_of_ne fun same => different (congrArg some same.symm)]
  have worth : (ledger.withAmount target (some amount)).worthOf owner base target = .ok (-sum) :=
    worthOf_eq_ok_iff.mpr ⟨_, valuation, split?_withAmount isSplit,
      same.valuation rfl valued, Valuation.worth?_of_amountFor? finds⟩
  have isStill : (ledger.withAmount target (some amount)).transaction? owner = some transaction :=
    isOwner
  rw [transactionValue_of_apart isStill distinct inside rest worth, add_neg_cancel]

/-- The amount that a split finds is the one that it has, exactly if its transaction sums to zero already. -/
theorem amount_of_absorption_iff {split : Split Rat}
    (isOwner : ledger.transaction? owner = some transaction) (distinct : transaction.splits.Nodup)
    (inside : target ∈ transaction.splits) (isSplit : ledger.split? target = some split)
    (absorbs : ledger.absorption owner target base = .ok (some amount)) :
    amount = split.amount ↔ ledger.transactionValue owner none base = .ok 0 := by
  obtain ⟨sum, again, valuation, others, isAgain, valued, finds, -⟩ := absorption_eq_ok absorbs
  obtain rfl : split = again := Option.some.inj (isSplit.symm.trans isAgain)
  have whole {worth : Rat} (isWorth : valuation.worth? split = some worth) :
      ledger.transactionValue owner none base = .ok (sum + worth) :=
    transactionValue_of_apart isOwner distinct inside others
      (worthOf_eq_ok_iff.mpr ⟨split, valuation, isSplit, valued, isWorth⟩)
  cases valuation with
  | priced =>
    simp only [Valuation.amountFor?, Scalar.isZero_iff] at finds
    split at finds
    · contradiction
    · rename_i price
      obtain rfl := Option.some.inj finds
      rw [whole rfl, Except.ok.injEq, Split.value, add_comm, ← eq_neg_iff_add_eq_zero, eq_comm,
        eq_div_iff price]
  | shares =>
    obtain rfl := Option.some.inj finds
    rw [whole rfl, Except.ok.injEq, add_comm, ← eq_neg_iff_add_eq_zero, eq_comm]
  | inexpressible => contradiction

/-- A split that finds no amount is worth nothing, and under enforcement so is the rest, nearly. -/
theorem transactionValue_of_keeps (isOwner : ledger.transaction? owner = some transaction)
    (distinct : transaction.splits.Nodup) (inside : target ∈ transaction.splits)
    {trigger : SplitId} (common : ledger.commonCommodity owner trigger = .ok base)
    (absorbs : ledger.absorption owner target base = .ok none) :
    ∃ sum, ledger.transactionValue owner none base = .ok sum ∧
      (ledger.enforces = true → |sum| ≤ 1 / 1000000) := by
  obtain ⟨sum, split, valuation, others, isSplit, valued, keeps, tolerable⟩ := absorption_eq_ok absorbs
  have expressible := expressible_of_commonCommodity isOwner common inside isSplit valued
  have worth : ledger.worthOf owner base target = .ok 0 := by
    refine worthOf_eq_ok_iff.mpr ⟨split, valuation, isSplit, valued, ?_⟩
    cases valuation with
    | priced =>
      simp only [Valuation.amountFor?, Scalar.isZero_iff] at keeps
      split at keeps
      · rename_i free
        exact congrArg some (by rw [Split.value, free]; exact mul_zero _)
      · contradiction
    | shares => contradiction
    | inexpressible => contradiction
  refine ⟨sum, ?_, tolerable rfl⟩
  rw [transactionValue_of_apart isOwner distinct inside others worth, add_zero]

/-! ## A lone source and its counterpart -/

namespace Lone

variable {edited : SplitId} {split : Split Rat} {account : AccountId} {holder : Account}
  (lone : ledger.Lone edited split owner transaction account holder)

include lone

/-- The two splits sum to zero as soon as the counterpart is there. -/
theorem balanced : (ledger.withCounterpart owner split).transactionValue owner none
    (some holder.currency) = .ok 0 := by
  obtain ⟨after, currency, -, isIn⟩ := lone.accountOf_withCounterpart
  have valued (id : SplitId) (entry : Split Rat) (within : entry.account = split.account) :
      (ledger.withCounterpart owner split).valuation id entry (some holder.currency) = .ok .priced := by
    rw [valuation, isIn id entry within, ok_bind]
    exact congrArg Except.ok (if_pos currency)
  have source : (ledger.withCounterpart owner split).worthOf owner (some holder.currency) edited =
      .ok split.value :=
    worthOf_eq_ok_iff.mpr ⟨_, _, lone.split?_edited, valued _ _ rfl, rfl⟩
  have next : (ledger.withCounterpart owner split).worthOf owner (some holder.currency)
      ledger.nextSplit = .ok split.counterpart.value :=
    worthOf_eq_ok_iff.mpr ⟨_, _, split?_next, valued _ _ rfl, rfl⟩
  have opposite : split.counterpart.value = -split.value := mul_one _
  rw [transactionValue, transaction_eq_ok_iff.mpr lone.transaction?_owner, ok_bind, lone.splits_push]
  refine addWorths_eq_ok_iff.mpr ⟨?_, ?_⟩
  · simp [source, next, worthIn_eq source, worthIn_eq next]
  · simp [worthIn_eq source, worthIn_eq next, opposite]

/-- The amount that the source takes back is the one that it has. -/
theorem amount_of_absorption
    (absorbs : (ledger.withCounterpart owner split).absorption owner edited (some holder.currency) =
      .ok (some amount)) : amount = split.amount := by
  have opposite : split.counterpart.value = -(split.amount * split.price) := mul_one _
  rw [lone.absorption_next] at absorbs
  split at absorbs
  · split at absorbs <;> cases absorbs
  · rename_i price
    rw [Scalar.isZero_iff] at price
    obtain rfl := Option.some.inj (Except.ok.inj absorbs)
    rw [opposite]
    change -(0 + -(split.amount * split.price)) / split.price = split.amount
    rw [zero_add, neg_neg, mul_div_cancel_right₀ _ price]

/-- The source takes back what it has, so nothing changes its value. -/
theorem withAmount_sameValues
    (absorbs : (ledger.withCounterpart owner split).absorption owner edited (some holder.currency) =
      .ok amount?) :
    (ledger.withCounterpart owner split).SameValues
      ((ledger.withCounterpart owner split).withAmount edited amount?) := by
  refine ⟨withAmount_sameHoldings, fun entry => ?_⟩
  by_cases same : entry = edited
  · subst same
    cases amount? with
    | none => rfl
    | some amount =>
      obtain rfl := lone.amount_of_absorption absorbs
      rw [split?_withAmount lone.split?_edited, lone.split?_edited]
  · rw [split?_withAmount_of_ne same]

/-- What becomes of a lone source and its counterpart in the end has the values that they start with. -/
theorem paired_sameValues
    (absorbs : (ledger.withCounterpart owner split).absorption owner edited (some holder.currency) =
      .ok amount?) :
    (ledger.withCounterpart owner split).SameValues
      (((ledger.withCounterpart owner split).absorbed edited amount?).enrolled ledger.nextSplit
        (some account)) :=
  (lone.withAmount_sameValues absorbs).trans <|
    absorbed_alike.sameValues.trans (enrolled_sameValues _ _ _)

end Lone

end Ledger

/-! ## What a rebalancing can come to -/

namespace Ledger

variable {α J : Type} [Scalar α]

/-- The three things that a rebalancing can come to: a split took up the sum of the others, a lone
source got a counterpart, or nothing had to be done. -/
inductive Rebalanced (ledger : Ledger α J) (edited : SplitId) (split : Split α) (owner : TransactionId)
    (transaction : Transaction) (base : Option Commodity) : Ledger α J → Prop
  | absorbed (target : SplitId) (amount? : Option α) (isTarget : transaction.target? edited = some target)
    (absorbs : ledger.absorption owner target base = .ok amount?) :
    Rebalanced ledger edited split owner transaction base (ledger.absorbed target amount?)
  | paired (account : AccountId) (holder : Account) (amount? : Option α)
    (lone : ledger.Lone edited split owner transaction account holder)
    (matters : Scalar.isSignificant split.amount = true)
    (absorbs : (ledger.withCounterpart owner split).absorption owner edited (some holder.currency) =
      .ok amount?) :
    Rebalanced ledger edited split owner transaction base
      (((ledger.withCounterpart owner split).absorbed edited amount?).enrolled ledger.nextSplit
        (some account))
  | rested (alone : transaction.splits = [edited])
    (idle : (ledger.enforces && Scalar.isSignificant split.amount) = false) :
    Rebalanced ledger edited split owner transaction base ledger

/-- A lone source gets its counterpart unless the two cannot be settled. -/
theorem Lone.rebalanced {ledger : Ledger α J} {edited : SplitId} {split : Split α} {owner : TransactionId}
    {transaction : Transaction} {account : AccountId} {holder : Account} {base : Option Commodity}
    (lone : ledger.Lone edited split owner transaction account holder)
    (matters : Scalar.isSignificant split.amount = true) :
    (addCounterpart owner edited).Ends ledger fun result after => result = .ok () →
      ledger.Rebalanced edited split owner transaction base after := by
  rw [ends_addCounterpart_of_lone lone]
  cases absorbs : (ledger.withCounterpart owner split).absorption owner edited (some holder.currency) with
  | error _ =>
    intro fails
    contradiction
  | ok amount? => exact fun _ => .paired account holder amount? lone matters absorbs

/-- A rebalancing that succeeds found a commodity and came to one of the three. -/
theorem Active.rebalanced {ledger : Ledger α J} {edited : SplitId} {split : Split α}
    {owner : TransactionId} {transaction : Transaction}
    (active : ledger.Active edited split owner transaction) (owned : ledger.Owned)
    (fresh : (rebalanceSplit edited ledger).ledger.minted ≤ 2 ^ 128)
    (succeeds : (rebalanceSplit edited ledger).result = .ok ()) :
    ∃ base, ledger.commonCommodity owner edited = .ok base ∧ ledger.Rebalanced edited split owner
      transaction base (rebalanceSplit edited ledger).ledger := by
  suffices ends : (rebalanceSplit edited).Ends ledger fun result after => after.minted ≤ 2 ^ 128 →
      result = .ok () → ∃ base, ledger.commonCommodity owner edited = .ok base ∧
        ledger.Rebalanced edited split owner transaction base after from ends fresh succeeds
  rw [rebalanceSplit, ends_settle, active.settlement, if_neg (owned.nonempty active.isOwner)]
  cases common : ledger.commonCommodity owner edited with
  | error _ =>
    intro _ fails
    contradiction
  | ok base =>
    rw [ok_bind]
    cases isTarget : transaction.target? edited with
    | some target =>
      dsimp only
      cases absorbs : ledger.absorption owner target base with
      | error _ =>
        intro _ fails
        contradiction
      | ok amount? => exact fun _ _ => ⟨base, rfl, .absorbed target amount? isTarget absorbs⟩
    | none =>
      have alone := (Transaction.target?_eq_none (owned.nonempty active.isOwner)).mp isTarget
      dsimp only
      cases idle : ledger.enforces && Scalar.isSignificant split.amount with
      | false => exact fun _ _ => ⟨base, rfl, .rested alone idle⟩
      | true =>
        obtain ⟨enforced, matters⟩ := Bool.and_eq_true_iff.mp idle
        obtain ⟨account, holder, within, held⟩ :=
          held_of_commonCommodity enforced active.isSplit common
        simp only [if_true]
        intro fresh succeeds
        have minted : (addCounterpart owner edited ledger).ledger.minted = ledger.minted + 1 :=
          ends_addCounterpart_minted active.isSplit
        have unnamed : ledger.ownership.named ledger.nextSplit = none :=
          owned.below.named_next (by omega)
        have new : ledger.split? ledger.nextSplit = none := by simpa [ownership] using unnamed
        have lone : ledger.Lone edited split owner transaction account holder :=
          ⟨⟨active, alone, enforced, within, held⟩, new⟩
        exact ⟨base, rfl, lone.rebalanced matters succeeds⟩

/-- Ledgers that differ at most in the amount of one split, besides running balances and noted
changes. -/
structure AlikeBut (target : SplitId) (ledger other : Ledger α J) : Prop where
  settings : other.settings = ledger.settings
  transactions : other.transactions = ledger.transactions
  others : ∀ id, id ≠ target → (other.split? id).map Split.bare = (ledger.split? id).map Split.bare
  target : (other.split? target).map (fun split => { split.bare with amount := 0 }) =
    (ledger.split? target).map fun split => { split.bare with amount := 0 }
  accounts : ∀ id, (other.account? id).map Account.bare = (ledger.account? id).map Account.bare
  minted : other.minted = ledger.minted

theorem absorbed_alikeBut {ledger : Ledger α J} {target : SplitId} {amount? : Option α} :
    ledger.AlikeBut target (ledger.absorbed target amount?) := by
  have alike : (ledger.withAmount target amount?).Alike (ledger.absorbed target amount?) := absorbed_alike
  have others (id : SplitId) (different : id ≠ target) :
      ((ledger.absorbed target amount?).split? id).map Split.bare =
        (ledger.split? id).map Split.bare := by
    rw [alike.splits, split?_withAmount_of_ne different]
  have blind := alike.map_split? (fun split => { split.bare with amount := 0 }) (fun _ => rfl) target
  cases amount? with
  | none => exact ⟨alike.settings, alike.transactions, others, blind, alike.accounts, alike.minted⟩
  | some amount =>
    refine ⟨alike.settings, alike.transactions, others, blind.trans ?_, alike.accounts, alike.minted⟩
    rw [withAmount, split?_modifySplit, if_pos rfl, Option.map_map]
    rfl

/-- What became of a split that took up the sum of the others, if it did. -/
theorem split?_absorbed {ledger : Ledger α J} {target : SplitId} {entry : Split α}
    (isSplit : ledger.split? target = some entry) (amount? : Option α) :
    ((ledger.absorbed target amount?).split? target).map Split.bare =
      (some { entry with amount := amount?.getD entry.amount }).map Split.bare := by
  have alike : (ledger.withAmount target amount?).Alike (ledger.absorbed target amount?) := absorbed_alike
  rw [alike.splits]
  cases amount? with
  | none =>
    rw [withAmount, isSplit]
    rfl
  | some amount =>
    rw [split?_withAmount isSplit]
    rfl

theorem amount_of_bare {ledger other : Ledger α J} {id : SplitId}
    (same : (other.split? id).map Split.bare = (ledger.split? id).map Split.bare) :
    other.amount id = ledger.amount id :=
  congrArg (Option.getD · 0) (map_of_bare (·.amount) (fun _ => rfl) same)

end Ledger

/-! ## The postcondition -/

section Postcondition

open Ledger

variable {J : Type} {ledger after : Ledger Rat J} {edited target : SplitId} {split : Split Rat}
  {owner : TransactionId} {transaction : Transaction} {base : Option Commodity} {amount? : Option Rat}

/-- A split finds an amount if it is valued by its shares or at a price that is not zero. -/
theorem Ledger.absorbs_some_iff (isOwner : ledger.transaction? owner = some transaction)
    (inside : target ∈ transaction.splits) (common : ledger.commonCommodity owner edited = .ok base)
    (absorbs : ledger.absorption owner target base = .ok amount?) :
    ∃ entry, ledger.split? target = some entry ∧
      (amount?.isSome ↔ ledger.valuation target entry base = .ok .shares ∨ entry.price ≠ 0) := by
  obtain ⟨sum, entry, valuation, -, isSplit, valued, finds, -⟩ := absorption_eq_ok absorbs
  have expressible := expressible_of_commonCommodity isOwner common inside isSplit valued
  refine ⟨entry, isSplit, ?_⟩
  rw [valued, ← finds]
  cases valuation with
  | priced =>
    simp only [Valuation.amountFor?, Scalar.isZero_iff]
    split
    · rename_i free
      simp [free]
    · rename_i price
      simp [price]
  | shares => simp [Valuation.amountFor?]
  | inexpressible => contradiction

/-- What the splits sum to once one of them took up the sum of the others. -/
theorem Ledger.transactionValue_absorbed (isOwner : ledger.transaction? owner = some transaction)
    (distinct : transaction.splits.Nodup) (inside : target ∈ transaction.splits)
    (common : ledger.commonCommodity owner edited = .ok base)
    (absorbs : ledger.absorption owner target base = .ok amount?) :
    ∃ sum, (ledger.absorbed target amount?).transactionValue owner none base = .ok sum ∧
      (amount?.isSome → sum = 0) ∧ (ledger.enforces = true → |sum| ≤ 1 / 1000000) := by
  have alike : (ledger.withAmount target amount?).Alike (ledger.absorbed target amount?) := absorbed_alike
  cases amount? with
  | none =>
    obtain ⟨sum, valued, small⟩ := transactionValue_of_keeps isOwner distinct inside common absorbs
    exact ⟨sum, alike.sameValues.transactionValue valued, nofun, small⟩
  | some amount =>
    have zero := transactionValue_withAmount isOwner distinct inside absorbs
    exact ⟨0, alike.sameValues.transactionValue zero, fun _ => rfl, fun _ => by rw [abs_zero]; positivity⟩

/-- What a rebalancing achieves that found the commodity `base`. With two splits or more it changes at
most the amount of the target, and the splits sum to zero if the target can have a new amount at all; a
lone source that matters under enforcement gets a second split with which it sums to zero; and all else
stays as it was. -/
structure Postcondition (ledger after : Ledger Rat J) (edited : SplitId) (split : Split Rat)
    (owner : TransactionId) (transaction : Transaction) (base : Option Commodity) : Prop where
  several : 2 ≤ transaction.splits.length →
    ∃ target entry, transaction.target? edited = some target ∧ ledger.split? target = some entry ∧
      ledger.AlikeBut target after ∧
      (ledger.valuation target entry base = .ok .shares ∨ entry.price ≠ 0 →
        after.transactionValue owner none base = .ok 0) ∧
      (¬ (ledger.valuation target entry base = .ok .shares ∨ entry.price ≠ 0) →
        ledger.Alike after ∧ (ledger.enforces = true →
          ∃ sum, after.transactionValue owner none base = .ok sum ∧ |sum| ≤ 1 / 1000000))
  lone : transaction.splits.length = 1 → ledger.enforces = true → 1 / 1000000 < |split.amount| →
    ∃ other, other ≠ edited ∧ after.splitsOf owner = [edited, other] ∧
      (after.split? edited).map (·.amount) = some split.amount ∧
      after.transactionValue owner none base = .ok 0
  idle : transaction.splits.length < 2 → ¬ (ledger.enforces = true ∧ 1 / 1000000 < |split.amount|) →
    after = ledger

theorem Ledger.Rebalanced.postcondition (active : ledger.Active edited split owner transaction)
    (owned : ledger.Owned) (common : ledger.commonCommodity owner edited = .ok base)
    (rebalanced : ledger.Rebalanced edited split owner transaction base after) :
    Postcondition ledger after edited split owner transaction base := by
  have named : ledger.ownership.named edited = some (some owner) :=
    parent_eq_iff.mpr ⟨split, active.isSplit, active.parent⟩
  have listed := (owned.mem_iff active.isOwner).mpr named
  cases rebalanced with
  | absorbed target amount? isTarget absorbs =>
    have inside := Transaction.mem_of_target? isTarget
    have more := Transaction.several_of_target? listed isTarget
    obtain ⟨entry, isEntry, finds⟩ := absorbs_some_iff active.isOwner inside common absorbs
    obtain ⟨sum, valued, zero, small⟩ := transactionValue_absorbed active.isOwner
      (owned.nodup active.isOwner) inside common absorbs
    refine ⟨fun _ => ⟨target, entry, isTarget, isEntry, absorbed_alikeBut, fun able => ?_,
      fun unable => ⟨?_, fun enforced => ⟨sum, valued, small enforced⟩⟩⟩, by omega, by omega⟩
    · rw [valued, zero (finds.mpr able)]
    · obtain rfl : amount? = none := by simpa using mt finds.mp unable
      have alike : (ledger.withAmount target none).Alike (ledger.absorbed target none) :=
        absorbed_alike
      exact alike
  | paired account holder amount? lone matters absorbs =>
    have one : transaction.splits.length = 1 := by rw [lone.alone]; rfl
    have same := lone.paired_sameValues absorbs
    obtain rfl : base = some holder.currency :=
      Except.ok.inj (common.symm.trans lone.toAlone.commonCommodity)
    refine ⟨by omega, fun _ _ _ => ⟨ledger.nextSplit, lone.other.symm, ?_, ?_,
      same.transactionValue lone.balanced⟩, fun _ idle => ?_⟩
    · obtain ⟨again, isAgain, lists⟩ := same.transaction lone.transaction?_owner
      rw [splitsOf_eq isAgain, lists, lone.splits_push]
    · have terms := same.terms edited
      rw [lone.split?_edited] at terms
      simpa [Split.terms] using congrArg (Option.map (·.2.1)) terms
    · exact absurd ⟨lone.enforced, Scalar.isSignificant_iff.mp matters⟩ idle
  | rested alone idle =>
    have one : transaction.splits.length = 1 := by rw [alone]; rfl
    refine ⟨by omega, fun _ enforced matters => ?_, fun _ _ => rfl⟩
    rw [enforced, Scalar.isSignificant_iff.mpr matters] at idle
    contradiction

/-- Rebalancing from a split where nothing puts it off, in any ledger that can be reached: if it
succeeds, there is a commodity that all splits of the transaction share, and in it the transaction is
balanced as `Postcondition` tells. -/
theorem Reachable.rebalanceSplit_balances [Journal J Rat] (reached : Reachable (fun _ => True) ledger)
    (active : ledger.Active edited split owner transaction)
    (fresh : (rebalanceSplit edited ledger).ledger.minted ≤ 2 ^ 128)
    (succeeds : (rebalanceSplit edited ledger).result = .ok ()) :
    ∃ base, ledger.commonCommodity owner edited = .ok base ∧
      Postcondition ledger (rebalanceSplit edited ledger).ledger edited split owner transaction
        base := by
  obtain ⟨base, common, rebalanced⟩ := active.rebalanced reached.owned fresh succeeds
  exact ⟨base, common, rebalanced.postcondition active reached.owned common⟩

/-- Rebalancing a one-sided transaction adds the other side. -/
theorem Reachable.rebalanceSplit_balances_oneSided : ∃ base other, other ≠ ⟨.ofNat 1⟩ ∧
    (rebalanceSplit ⟨.ofNat 1⟩ (oneSided (5 : Rat) 1 false)).ledger.splitsOf ⟨.ofNat 2⟩ =
      [⟨.ofNat 1⟩, other] ∧
    (rebalanceSplit ⟨.ofNat 1⟩ (oneSided (5 : Rat) 1 false)).ledger.transactionValue ⟨.ofNat 2⟩ none
      base = .ok 0 := by
  have reached : Reachable (fun _ => True) (oneSided (5 : Rat) 1 false) :=
    (Reachable.start _ _).after _ (fun _ _ => trivial) (by decide +kernel)
  have source : ((oneSided (5 : Rat) 1 false).split? ⟨.ofNat 1⟩).map
      (fun split => (split.parent, split.account, split.amount)) =
        some (some ⟨.ofNat 2⟩, some ⟨.ofNat 0⟩, 5) := by decide +kernel
  have lists : ((oneSided (5 : Rat) 1 false).transaction? ⟨.ofNat 2⟩).map
      (fun transaction => (transaction.splits, transaction.edit.defers)) =
        some ([⟨.ofNat 1⟩], false) := by decide +kernel
  have ready : (oneSided (5 : Rat) 1 false).accounts.defers ⟨.ofNat 0⟩ = false := by decide +kernel
  obtain ⟨split, isSplit, terms⟩ := Option.map_eq_some_iff.mp source
  obtain ⟨transaction, isOwner, shape⟩ := Option.map_eq_some_iff.mp lists
  simp only [Prod.mk.injEq] at terms shape
  obtain ⟨parent, within, amount⟩ := terms
  have active : (oneSided (5 : Rat) 1 false).Active ⟨.ofNat 1⟩ split ⟨.ofNat 2⟩ transaction :=
    ⟨isSplit, parent, isOwner, shape.2, by rw [within]; exact ready⟩
  obtain ⟨base, -, achieved⟩ := Reachable.rebalanceSplit_balances reached active
    (by decide +kernel) (by decide +kernel)
  obtain ⟨other, different, both, -, zero⟩ := achieved.lone (by rw [shape.1]; rfl)
    (by decide +kernel) (by rw [amount]; norm_num)
  exact ⟨base, other, different, both, zero⟩

end Postcondition

end DoubleEntry
