import DoubleEntry.Ledger.Relations
import DoubleEntry.Proofs.Ranking
import DoubleEntry.Proofs.Reachable

/-! # Transactions in order

Ledger order ranks transactions and splits: it is total, and only what agrees in everything that it looks
at is level. The transactions of a ledger can therefore be listed in order, in whatever order they come.
A list in order is determined up to the arrangement of transactions that are level, since these are the
ones that compare alike with every other.
-/

namespace DoubleEntry

open Std

/-! ## Rankings -/

section Rankings

variable {β : Type} {order : β → β → Ordering}

/-- An order that says the same from either side, and goes on from two things to a third one: what comes
before or is level goes on to come before or to be level, and ends level only if both steps are. -/
structure IsRanking (order : β → β → Ordering) : Prop where
  swap : ∀ a b, order a b = (order b a).swap
  trans : ∀ a b c, (order a b).isLE → (order b c).isLE →
    (order a c).isLE ∧ (order a c = .eq ↔ order a b = .eq ∧ order b c = .eq)

theorem isRanking_of_transCmp (isOrder : TransCmp order) : IsRanking order where
  swap _ _ := isOrder.eq_swap
  trans a b c first second := by
    refine ⟨isOrder.isLE_trans first second, fun level => ?_, fun both => ?_⟩
    · -- A step that is not level would be one that the other step cannot take back.
      have back : (order c a).isLE := by rw [isOrder.eq_swap, level]; rfl
      exact ⟨OrientedCmp.isLE_antisymm first (isOrder.isLE_trans second back),
        OrientedCmp.isLE_antisymm second (isOrder.isLE_trans back first)⟩
    · exact TransCmp.eq_trans both.1 both.2

/-- Things are level if they compare alike with everything. -/
theorem order_eq_iff [TransCmp order] {a b : β} : order a = order b ↔ order a b = .eq :=
  ⟨fun alike => alike ▸ ReflCmp.compare_self, fun level => funext fun _ => TransCmp.congr_left level⟩

/-- Two ways to list the same things in order differ only in how they arrange what is level. -/
theorem level_of_perm [isOrder : TransCmp order] {one other : List β} (perm : one.Perm other)
    (ascends : one.Pairwise fun a b => (order a b).isLE)
    (ascendsToo : other.Pairwise fun a b => (order a b).isLE) :
    List.Forall₂ (fun a b => order a b = .eq) one other := by
  -- What is compared instead of the entries is how each of them compares with everything.
  let below (first second : β → Ordering) : Prop :=
    ∃ a b, first = order a ∧ second = order b ∧ (order a b).isLE
  have antisymm (first second : β → Ordering) : below first second → below second first →
      first = second := by
    rintro ⟨a, b, rfl, rfl, up⟩ ⟨c, d, alike, alikeToo, down⟩
    have back : order b a = order c d := by
      rw [alike, isOrder.eq_swap (a := c), isOrder.eq_swap (a := c), alikeToo]
    exact order_eq_iff.mpr (OrientedCmp.isLE_antisymm up (back ▸ down))
  have lifts {list : List β} (ascends : list.Pairwise fun a b => (order a b).isLE) :
      (list.map order).Pairwise below :=
    List.pairwise_map.mpr (ascends.imp fun {a b} up => ⟨a, b, rfl, rfl, up⟩)
  have same : one.map order = other.map order :=
    List.Perm.eq_of_pairwise (fun first second _ _ => antisymm first second) (lifts ascends)
      (lifts ascendsToo) (perm.map order)
  rw [← List.forall₂_eq_eq_eq, List.forall₂_map_left_iff, List.forall₂_map_right_iff] at same
  exact same.imp fun _ _ => order_eq_iff.mp

end Rankings

/-! ## What is level -/

theorem Instant.order_eq_iff {a b : Instant} :
    a.order b = .eq ↔ a.seconds = b.seconds ∧ a.nanos = b.nanos := by
  rw [order, Ordering.then_eq_eq, Std.compare_eq_iff_eq, Std.compare_eq_iff_eq]

theorem textOrder_eq_iff {a b : String} : textOrder (some a) (some b) = .eq ↔ a = b :=
  Std.compare_eq_iff_eq

theorem transactionOrder_eq_iff {a b : Transaction} : transactionOrder (some a) (some b) = .eq ↔
    a.posted.seconds = b.posted.seconds ∧ a.posted.nanos = b.posted.nanos ∧ a.num = b.num ∧
      a.description = b.description := by
  change a.order b = .eq ↔ _
  rw [Transaction.order, Ordering.then_eq_eq, Ordering.then_eq_eq, Instant.order_eq_iff,
    textOrder_eq_iff, textOrder_eq_iff, and_assoc, and_assoc]

theorem splitOrder_eq_iff {a b : Position} : splitOrder (some a) (some b) = .eq ↔
    transactionOrder a.parent b.parent = .eq ∧ a.memo = b.memo ∧ a.action = b.action := by
  change a.order b = .eq ↔ _
  rw [Position.order, Ordering.then_eq_eq, Ordering.then_eq_eq, textOrder_eq_iff, textOrder_eq_iff,
    and_assoc]

/-! ## Lists in order -/

namespace Ledger

variable {α J : Type} {ledger : Ledger α J} {ids others : List TransactionId}

instance (ledger : Ledger α J) : TransCmp ledger.compareTransactions :=
  transCmp_on transCmp_transaction ledger.transaction?

instance (ledger : Ledger α J) : TransCmp ledger.compareSplits :=
  inferInstanceAs (TransCmp ledger.postings.compare)

theorem compareSplits_eq_iff {a b : SplitId} {first second : Split α}
    (isFirst : ledger.split? a = some first) (isSecond : ledger.split? b = some second) :
    ledger.compareSplits a b = .eq ↔
      transactionOrder (first.parent.bind ledger.transaction?) (second.parent.bind ledger.transaction?) =
        .eq ∧ first.memo = second.memo ∧ first.action = second.action := by
  have position {id : SplitId} {split : Split α} (isSplit : ledger.split? id = some split) :
      ledger.postings.position? id =
        some ⟨split.parent.bind ledger.transaction?, split.memo, split.action⟩ := by
    change (ledger.split? id).map _ = _
    rw [isSplit]
    rfl
  rw [compareSplits, Postings.compare, position isFirst, position isSecond, splitOrder_eq_iff]

/-- A list of every transaction of a ledger once, none before one that it comes after. -/
structure ListedInOrder (ledger : Ledger α J) (ids : List TransactionId) : Prop where
  once : ids.Nodup
  live : ∀ id, id ∈ ids ↔ (ledger.transaction? id).isSome
  ascends : ids.Pairwise fun a b => (ledger.compareTransactions a b).isLE

/-- Sorting puts the transactions in order, in whatever order they are enumerated. -/
theorem listedInOrder_sortTransactions (enumerates : ids.Perm ledger.transactions.keys) :
    ledger.ListedInOrder (ledger.sortTransactions ids) := by
  have sorts : (ledger.sortTransactions ids).Perm ledger.transactions.keys :=
    (List.mergeSort_perm ids _).trans enumerates
  have isLE (order : Ordering) : (order != .gt) = order.isLE := by cases order <;> rfl
  constructor
  case once => exact sorts.nodup_iff.mpr ledger.transactions.nodup
  case live =>
    intro id
    rw [sorts.mem_iff, ← Table.contains_iff]
    rfl
  case ascends =>
    simp only [sortTransactions, isLE]
    refine List.pairwise_mergeSort (fun a b c => TransCmp.isLE_trans) (fun a b => ?_) ids
    have turned : ledger.compareTransactions b a = (ledger.compareTransactions a b).swap :=
      OrientedCmp.eq_swap
    rw [turned]
    cases ledger.compareTransactions a b <;> rfl

/-- Two lists of the transactions in order agree, place by place, up to what is level. -/
theorem ListedInOrder.level (listed : ledger.ListedInOrder ids) (again : ledger.ListedInOrder others) :
    List.Forall₂ (fun a b => ledger.compareTransactions a b = .eq) ids others := by
  refine level_of_perm ?_ listed.ascends again.ascends
  exact (List.perm_ext_iff_of_nodup listed.once again.once).mpr fun id =>
    (listed.live id).trans (again.live id).symm

end Ledger

/-- Ledger order, for transactions and splits that may be missing, of any ledger. It is a ranking. Two
transactions are level exactly if they agree in their posted second and part of a second, their number
and their description; two splits, if their transactions are level and they agree in memo and action.
What is present comes before what is missing.

The transactions of a ledger, enumerated in any order and sorted, are all there once and in order, and
all lists of which this holds agree up to transactions that are level. -/
theorem Ledger.order_canonical {α J : Type} (ledger : Ledger α J) :
    (IsRanking transactionOrder ∧ IsRanking splitOrder ∧
      IsRanking ledger.compareTransactions ∧ IsRanking ledger.compareSplits) ∧
    (∀ a b, transactionOrder (some a) (some b) = .eq ↔ a.posted.seconds = b.posted.seconds ∧
      a.posted.nanos = b.posted.nanos ∧ a.num = b.num ∧ a.description = b.description) ∧
    (∀ a b, splitOrder (some a) (some b) = .eq ↔
      transactionOrder a.parent b.parent = .eq ∧ a.memo = b.memo ∧ a.action = b.action) ∧
    (∀ a b first second, ledger.split? a = some first → ledger.split? b = some second →
      (ledger.compareSplits a b = .eq ↔
        transactionOrder (first.parent.bind ledger.transaction?)
          (second.parent.bind ledger.transaction?) = .eq ∧
        first.memo = second.memo ∧ first.action = second.action)) ∧
    (∀ a, transactionOrder (some a) none = .lt) ∧ (∀ a, splitOrder (some a) none = .lt) ∧
    ledger.ListedInOrder ledger.transactionsInOrder ∧
    (∀ ids, ids.Perm ledger.transactions.keys → ledger.ListedInOrder (ledger.sortTransactions ids)) ∧
    (∀ ids others, ledger.ListedInOrder ids → ledger.ListedInOrder others →
      List.Forall₂ (fun a b => ledger.compareTransactions a b = .eq) ids others) := by
  refine ⟨⟨?_, ?_, ?_, ?_⟩, ?_, ?_, ?_, fun _ => rfl, fun _ => rfl, ?_, ?_, ?_⟩
  · exact isRanking_of_transCmp transCmp_transaction
  · exact isRanking_of_transCmp transCmp_split
  · exact isRanking_of_transCmp inferInstance
  · exact isRanking_of_transCmp inferInstance
  · exact fun a b => transactionOrder_eq_iff
  · exact fun a b => splitOrder_eq_iff
  · exact fun a b first second => compareSplits_eq_iff
  · exact listedInOrder_sortTransactions (List.Perm.refl _)
  · exact fun ids => listedInOrder_sortTransactions
  · exact fun ids others listed again => listed.level again

/-- Two new transactions, enumerated one way and the other. -/
theorem Ledger.order_canonical_twins :
    let twins : Ledger Rat (MemoryLog Rat) := (Ledger.start ⟨.tolerant⟩ {}).after
      [.command .createTransaction, .command .createTransaction]
    List.Forall₂ (fun a b => twins.compareTransactions a b = .eq)
      (twins.sortTransactions [⟨.ofNat 1⟩, ⟨.ofNat 3⟩])
      (twins.sortTransactions [⟨.ofNat 3⟩, ⟨.ofNat 1⟩]) := by
  intro twins
  obtain ⟨-, -, -, -, -, -, -, sorted, level⟩ := Ledger.order_canonical twins
  exact level _ _ (sorted _ (by decide +kernel)) (sorted _ (by decide +kernel))

end DoubleEntry
