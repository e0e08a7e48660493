import DoubleEntry.Proofs.Concordance
import DoubleEntry.Proofs.Synthesis

/-! # Rebalancing a second time

Rebalancing from the same split again gives the same result and changes nothing. The split that took up
the sum of the others is not among these, so it finds the amount that it already has; its account is
noted as changed, and recomputing an account twice is recomputing it once. All this holds whatever the
arithmetic is. Only where the first pass added a split does the second take another way, from the source
to the counterpart, and comes to the same amounts if calculation is exact.
-/

namespace DoubleEntry

open DoubleEntry.Action

/-! ## Changes that are made twice -/

namespace Table

variable {κ ν : Type} [DecidableEq κ]

theorem modify_comm (table : Table κ ν) {key other : κ} (different : key ≠ other)
    (first second : ν → ν) :
    (table.modify key first).modify other second = (table.modify other second).modify key first := by
  unfold modify
  congr 1
  rw [List.map_map, List.map_map]
  refine List.map_congr_left fun entry _ => ?_
  by_cases same : entry.1 = key
  · subst same
    simp [different]
  · by_cases again : entry.1 = other <;> simp [same, again, different.symm]

end Table

namespace Ledger

variable {α J : Type} {ledger : Ledger α J}

/-- Marking a split whose account is noted as changed changes nothing. -/
theorem mark_of_changed {id : SplitId} (changed : ∀ account holder,
    ledger.accountOf? id = some account → ledger.account? account = some holder →
      holder.changed = true) : ledger.mark id = ledger := by
  unfold mark
  split
  · rename_i account within
    have fixed : ledger.accounts.markChanged account = ledger.accounts := by
      refine Table.modify_of_fixed fun holder held => ?_
      rw [← changed account holder within held]
    rw [fixed]
  · rfl

theorem isChanged_mark {id : SplitId} {account : AccountId} {holder : Account}
    (within : ledger.accountOf? id = some account)
    (held : (ledger.mark id).account? account = some holder) : holder.changed = true := by
  rw [mark, within] at held
  change (Book.markChanged _ _).get? account = some holder at held
  rw [Book.markChanged, Table.get?_modify, if_pos rfl] at held
  obtain ⟨before, -, rfl⟩ := Option.map_eq_some_iff.mp held
  rfl

/-- The split that takes up the difference is not the edited one. -/
theorem Owned.ne_of_target? {edited target : SplitId} {owner : TransactionId}
    {transaction : Transaction} (owned : ledger.Owned)
    (isOwner : ledger.transaction? owner = some transaction)
    (isTarget : transaction.target? edited = some target) : edited ≠ target := by
  have distinct := owned.nodup isOwner
  unfold Transaction.target? at isTarget
  rcases shape : transaction.splits with _ | ⟨source, others⟩
  · simp [shape] at isTarget
  · simp only [shape] at isTarget
    split at isTarget
    · rename_i different
      obtain rfl := Option.some.inj isTarget
      exact different
    · rename_i same
      rw [not_not] at same
      subst same
      rw [shape, List.nodup_cons] at distinct
      exact fun same => distinct.1 (same ▸ List.mem_of_mem_head? isTarget)

theorem modifySplit_modifySplit (id : SplitId) (first second : Split α → Split α) :
    (ledger.modifySplit id first).modifySplit id second = ledger.modifySplit id (second ∘ first) :=
  congrArg (fun splits => { ledger with splits }) (Table.modify_modify ledger.splits id first second)

theorem modifySplit_comm {id other : SplitId} (different : id ≠ other)
    (first second : Split α → Split α) :
    (ledger.modifySplit id first).modifySplit other second =
      (ledger.modifySplit other second).modifySplit id first :=
  congrArg (fun splits => { ledger with splits })
    (Table.modify_comm ledger.splits different first second)

/-- A balance that is given later counts. -/
theorem renewed_modifySplit {balances : List (SplitId × RunningBalance α)} {id : SplitId}
    (later : id ∈ balances.map Prod.fst) (running : RunningBalance α) :
    (ledger.modifySplit id fun s => { s with running }).renewed balances = ledger.renewed balances := by
  induction balances generalizing ledger with
  | nil => cases later
  | cons first rest ih =>
    obtain ⟨key, balance⟩ := first
    by_cases same : id = key
    · subst same
      exact congrArg (renewed rest) (modifySplit_modifySplit id _ _)
    · have inside : id ∈ rest.map Prod.fst := by
        rcases List.mem_cons.mp later with here | later
        · exact absurd here same
        · exact later
      exact (congrArg (renewed rest) (modifySplit_comm same _ _)).trans (ih inside)

theorem renewed_renewed {balances earlier : List (SplitId × RunningBalance α)}
    (covered : ∀ id ∈ earlier.map Prod.fst, id ∈ balances.map Prod.fst) :
    (ledger.renewed earlier).renewed balances = ledger.renewed balances := by
  induction earlier generalizing ledger with
  | nil => rfl
  | cons first rest ih =>
    have here := covered first.1 List.mem_cons_self
    have there (id) (inside : id ∈ rest.map Prod.fst) := covered id (List.mem_cons_of_mem _ inside)
    exact (ih there).trans (renewed_modifySplit here first.2)

variable [Scalar α]

/-- The balances along a register depend on the figures of its splits. -/
theorem runningFrom_congr {postings again : Postings α} (same : ∀ id,
    (again.splits.get? id).map Split.figures = (postings.splits.get? id).map Split.figures)
    (sums : RunningBalance α) (register : List SplitId) :
    Book.runningFrom again sums register = Book.runningFrom postings sums register := by
  induction register generalizing sums with
  | nil => rfl
  | cons first rest ih =>
    have figures := same first
    unfold Book.runningFrom
    cases found : postings.splits.get? first with
    | none =>
      rw [found, Option.map_none, Option.map_eq_none_iff] at figures
      rw [figures]
      exact ih sums
    | some split =>
      rw [found, Option.map_some] at figures
      obtain ⟨after, isAfter, kept⟩ := Option.map_eq_some_iff.mp figures
      obtain ⟨amount, price, reconcile⟩ : after.amount = split.amount ∧ after.price = split.price ∧
          after.reconcile = split.reconcile := by simpa [Split.figures] using kept
      rw [isAfter]
      simp only [Split.value, amount, price, reconcile, ih]

/-- Recomputing an account twice is recomputing it once. -/
theorem recompute_recompute (ledger : Ledger α J) (account : AccountId) :
    (ledger.recompute account).recompute account = ledger.recompute account := by
  have figures := (recompute_alike ledger account).map_split? Split.figures fun _ => rfl
  have balances : (ledger.recompute account).accounts.runningBalances
      (ledger.recompute account).postings account =
        ledger.accounts.runningBalances ledger.postings account := by
    rw [accounts_recompute]
    unfold Book.runningBalances
    cases ledger.accounts.get? account with
    | none => rfl
    | some holder => exact runningFrom_congr figures .zero holder.register
  have again : (ledger.recompute account).recompute account = _ := recompute_eq
  rw [again, balances, recompute_eq]
  exact renewed_renewed fun _ inside => inside

/-- A split that has its amount already, in an account that is noted as changed and was recomputed, takes
it up without any change. -/
theorem absorbed_eq_self {target : SplitId} {amount? : Option α}
    (has : ∀ amount split, amount? = some amount → ledger.split? target = some split →
      split.amount = amount)
    (changed : ∀ account holder, ledger.accountOf? target = some account →
      ledger.account? account = some holder → holder.changed = true)
    (current : ∀ account, ledger.accountOf? target = some account → ledger.recompute account = ledger) :
    ledger.absorbed target amount? = ledger := by
  have amount : ledger.withAmount target amount? = ledger := by
    cases amount? with
    | none => rfl
    | some amount =>
      have fixed : ledger.splits.modify target (fun s => { s with amount }) = ledger.splits := by
        refine Table.modify_of_fixed fun split isSplit => ?_
        rw [← has amount split rfl isSplit]
      exact congrArg (fun splits => { ledger with splits }) fixed
  rw [absorbed, amount, mark_of_changed changed]
  cases within : ledger.accountOf? target with
  | none => rfl
  | some account => exact current account within

/-- A split whose amount alone has changed finds what it found. -/
theorem SameHoldings.absorption {other : Ledger α J} {owner : TransactionId} {target : SplitId}
    {base : Option Commodity} {amount? : Option α} (same : ledger.SameHoldings other)
    (terms : ∀ entry, entry ≠ target →
      (other.split? entry).map Split.terms = (ledger.split? entry).map Split.terms)
    (price : (other.split? target).map (·.price) = (ledger.split? target).map (·.price))
    (absorbs : ledger.absorption owner target base = .ok amount?) :
    other.absorption owner target base = .ok amount? := by
  obtain ⟨sum, others, decided⟩ := bind_eq_ok_iff.mp absorbs
  obtain ⟨split, isSplit, decided⟩ := bind_eq_ok_iff.mp decided
  obtain ⟨valuation, valued, decided⟩ := bind_eq_ok_iff.mp decided
  rw [split_eq_ok_iff] at isSplit
  have again : other.transactionValue owner (some target) base = .ok sum :=
    same.transactionValue (fun entry skipped => terms entry fun here => skipped (here ▸ rfl)) others
  obtain ⟨after, isAfter, within⟩ := same.split isSplit
  have samePrice : after.price = split.price := by simpa [isSplit, isAfter] using price
  have finds : valuation.amountFor? after (-sum) = valuation.amountFor? split (-sum) := by
    cases valuation <;> simp only [Valuation.amountFor?, samePrice]
  rw [Ledger.absorption, again, ok_bind, split_eq_ok_iff.mpr isAfter, ok_bind,
    same.valuation within valued, ok_bind, finds, same.enforces, samePrice]
  exact decided

section Absorbing

variable {edited target : SplitId} {split : Split α} {owner : TransactionId}
  {transaction : Transaction} {base : Option Commodity} {amount? : Option α}

theorem accounts_recompute? (ledger : Ledger α J) (account : Option AccountId) :
    (ledger.recompute? account).accounts = ledger.accounts := by
  cases account with
  | none => rfl
  | some account => exact accounts_recompute

/-- A split that took up the sum of the others takes it up again without any change. -/
theorem absorbed_absorbed :
    (ledger.absorbed target amount?).absorbed target amount? = ledger.absorbed target amount? := by
  have within : (ledger.absorbed target amount?).accountOf? target = ledger.accountOf? target :=
    absorbed_sameHoldings.accountOf? target
  have marked : (ledger.withAmount target amount?).accountOf? target = ledger.accountOf? target :=
    withAmount_sameHoldings.accountOf? target
  apply absorbed_eq_self
  · rintro amount split rfl isSplit
    have alike : (ledger.withAmount target (some amount)).Alike (ledger.absorbed target (some amount)) :=
      absorbed_alike
    have kept := alike.map_split? (·.amount) (fun _ => rfl) target
    rw [isSplit, withAmount, split?_modifySplit, if_pos rfl, Option.map_map] at kept
    obtain ⟨before, -, same⟩ := Option.map_eq_some_iff.mp kept.symm
    exact same.symm
  · intro account holder isIn held
    rw [within, ← marked] at isIn
    rw [absorbed, account?, accounts_recompute?] at held
    exact isChanged_mark isIn held
  · intro account isIn
    rw [within] at isIn
    rw [absorbed, isIn]
    exact recompute_recompute _ account

/-- The pass goes on from the split as before. -/
theorem Active.absorbed (active : ledger.Active edited split owner transaction)
    (other : edited ≠ target) :
    ∃ again, (ledger.absorbed target amount?).Active edited again owner transaction := by
  have but : ledger.AlikeBut target (ledger.absorbed target amount?) := absorbed_alikeBut
  have bare := but.others edited other
  rw [active.isSplit, Option.map_some] at bare
  obtain ⟨again, isAgain, same⟩ := Option.map_eq_some_iff.mp bare
  have parent : again.bare.parent = split.bare.parent := congrArg Split.parent same
  have within : again.bare.account = split.bare.account := congrArg Split.account same
  refine ⟨again, isAgain, parent.trans active.parent, ?_, active.undeferred, ?_⟩
  · rw [transaction?, but.transactions]
    exact active.isOwner
  · change again.bare.account.any _ = false
    rw [defers_absorbed, within]
    exact active.ready

/-- The second pass finds the same split for the sum of the others. -/
theorem settlement_absorbed (active : ledger.Active edited split owner transaction)
    (other : edited ≠ target) (isTarget : transaction.target? edited = some target)
    (common : ledger.commonCommodity owner edited = .ok base) :
    (ledger.absorbed target amount?).settlement edited = .ok (.absorb owner target base) := by
  obtain ⟨again, stays⟩ : ∃ again, (ledger.absorbed target amount?).Active edited again owner
      transaction := active.absorbed other
  have nonempty : transaction.splits ≠ [] :=
    List.ne_nil_of_mem (Transaction.mem_of_target? isTarget)
  rw [stays.settlement, if_neg nonempty, absorbed_sameHoldings.commonCommodity common, ok_bind,
    isTarget]

theorem absorption_absorbed (absorbs : ledger.absorption owner target base = .ok amount?) :
    (ledger.absorbed target amount?).absorption owner target base = .ok amount? := by
  have but : ledger.AlikeBut target (ledger.absorbed target amount?) := absorbed_alikeBut
  apply absorbed_sameHoldings.absorption _ _ absorbs
  · intro entry different
    have bare := congrArg (Option.map Split.terms) (but.others entry different)
    rw [Option.map_map, Option.map_map] at bare
    exact bare
  · have bare := congrArg (Option.map Split.price) but.target
    rw [Option.map_map, Option.map_map] at bare
    exact bare

end Absorbing

end Ledger

namespace Action

open Ledger

variable {α J : Type} {ledger : Ledger α J}

/-- Done a second time, an action comes to the same result and changes nothing. -/
def Repeats {β : Type} (action : Action α J β) (ledger : Ledger α J) : Prop :=
  action.Ends ledger fun result after =>
    action.Ends after fun again last => again = result ∧ last = after

/-- What changes nothing can be repeated. -/
theorem repeats_of_unchanged {β : Type} {action : Action α J β}
    (unchanged : action.Ends ledger fun _ after => after = ledger) : action.Repeats ledger := by
  unfold Ends at unchanged
  simp only [Repeats, Ends, unchanged, and_self]

variable [Scalar α] {edited : SplitId}

/-- Rebalancing that adds no split can be repeated. -/
theorem repeats_rebalanceSplit_of_unpaired (owned : ledger.Owned)
    (unpaired : ∀ owner, ledger.settlement edited ≠ .ok (.pair owner edited)) :
    (rebalanceSplit edited).Repeats ledger := by
  rcases decided : ledger.settlement edited with _ | _ | ⟨owner, target, base⟩ | ⟨owner, source⟩
  · apply repeats_of_unchanged
    rw [rebalanceSplit, ends_settle, decided]
  · apply repeats_of_unchanged
    rw [rebalanceSplit, ends_settle, decided]
  · cases absorbs : ledger.absorption owner target base with
    | error _ =>
      apply repeats_of_unchanged
      rw [rebalanceSplit, ends_settle, decided]
      dsimp only
      rw [absorbs]
    | ok amount? =>
      obtain ⟨split, transaction, active, isTarget, common⟩ := settlement_eq_absorb decided
      have other := owned.ne_of_target? active.isOwner isTarget
      have again : (ledger.absorbed target amount?).settlement edited = .ok (.absorb owner target base) :=
        settlement_absorbed active other isTarget common
      rw [Repeats, rebalanceSplit, ends_settle, decided]
      dsimp only
      rw [absorbs]
      dsimp only
      rw [ends_settle, again]
      dsimp only
      rw [absorption_absorbed absorbs]
      exact ⟨rfl, absorbed_absorbed⟩
  · obtain ⟨rfl, -⟩ := settlement_eq_pair decided
    exact absurd decided (unpaired owner)

end Action

/-! ## A source and its counterpart -/

namespace Ledger

section Paired

variable {α J : Type} [Scalar α] {ledger : Ledger α J} {edited : SplitId} {split : Split α}
  {owner : TransactionId} {account : AccountId} {amount? : Option α}

theorem transactions_paired : (ledger.paired owner edited split account amount?).transactions =
    (ledger.withCounterpart owner split).transactions := by
  rw [paired, enrolled, (recompute_alike _ _).transactions]
  change ((ledger.withCounterpart owner split).absorbed edited amount?).transactions = _
  rw [absorbed_alike.transactions]
  cases amount? <;> rfl

theorem defers_paired : (ledger.paired owner edited split account amount?).accounts.defers =
    ledger.accounts.defers := by
  rw [paired, enrolled, accounts_recompute, defers_registered, defers_absorbed,
    defers_withCounterpart]

/-- The account was noted as changed when the counterpart entered its register. -/
theorem isChanged_paired {holder : Account}
    (held : (ledger.paired owner edited split account amount?).account? account = some holder) :
    holder.changed = true := by
  rw [account?, paired, enrolled, accounts_recompute] at held
  change (Book.insertSplit _ _ _ _).get? account = some holder at held
  rw [Book.insertSplit, Table.get?_modify, if_pos rfl] at held
  obtain ⟨before, -, rfl⟩ := Option.map_eq_some_iff.mp held
  rfl

end Paired

variable {J : Type} {ledger : Ledger Rat J} {edited : SplitId} {split : Split Rat}
  {owner : TransactionId} {transaction : Transaction} {account : AccountId} {holder : Account}
  {amount? : Option Rat}

namespace Lone

variable (lone : ledger.Lone edited split owner transaction account holder)

include lone

/-- Settled from the source, the counterpart is to have the amount that it was made with. -/
theorem absorption_counterpart : (ledger.withCounterpart owner split).absorption owner
    ledger.nextSplit (some holder.currency) = .ok (some (-split.value)) := by
  obtain ⟨after, currency, -, isIn⟩ := lone.accountOf_withCounterpart
  have priced (enforced : Bool) : after.valuation enforced (some holder.currency) = .priced :=
    if_pos currency
  have source := split_eq_ok_iff.mpr lone.split?_edited
  have next : (ledger.withCounterpart owner split).split ledger.nextSplit =
      .ok { split.counterpart with parent := some owner } := split_eq_ok_iff.mpr split?_next
  have sourceIn := isIn edited split rfl
  have nextIn := isIn ledger.nextSplit { split.counterpart with parent := some owner } rfl
  have others : [edited, ledger.nextSplit].filter
      (fun entry => some ledger.nextSplit ≠ some entry) = [edited] := by
    simp [lone.other.symm]
  have sum : (ledger.withCounterpart owner split).transactionValue owner (some ledger.nextSplit)
      (some holder.currency) = .ok split.value := by
    simp only [transactionValue, transaction_eq_ok_iff.mpr lone.transaction?_owner, ok_bind,
      lone.splits_push, others, addWorths, source, valuation, sourceIn, priced, Valuation.worth?]
    exact congrArg Except.ok (zero_add split.value)
  have amount : Valuation.amountFor? { split.counterpart with parent := some owner } (-split.value)
      .priced = some (-split.value) := by
    change (if Scalar.isZero (1 : Rat) then none else some (-split.value / 1)) = _
    rw [if_neg (by decide), div_one]
  rw [absorption, sum, ok_bind, next, ok_bind, valuation, nextIn, ok_bind]
  simp only [priced, ok_bind, amount]
  rfl

/-- The source takes back the amount that it has, which is no change. -/
theorem withAmount_eq
    (absorbs : (ledger.withCounterpart owner split).absorption owner edited (some holder.currency) =
      .ok amount?) : (ledger.withCounterpart owner split).withAmount edited amount? =
        ledger.withCounterpart owner split := by
  cases amount? with
  | none => rfl
  | some amount =>
    obtain rfl := lone.amount_of_absorption absorbs
    have fixed : (ledger.withCounterpart owner split).splits.modify edited
        (fun s => { s with amount := split.amount }) = (ledger.withCounterpart owner split).splits := by
      refine Table.modify_of_fixed fun entry isEntry => ?_
      obtain rfl : entry = split := Option.some.inj (isEntry.symm.trans lone.split?_edited)
      rfl
    exact congrArg (fun splits => { ledger.withCounterpart owner split with splits }) fixed

/-- The second pass goes from the source to the counterpart. -/
theorem settlement_paired
    (absorbs : (ledger.withCounterpart owner split).absorption owner edited (some holder.currency) =
      .ok amount?) : (ledger.paired owner edited split account amount?).settlement edited =
        .ok (.absorb owner ledger.nextSplit (some holder.currency)) := by
  have bare : ((ledger.paired owner edited split account amount?).split? edited).map Split.bare =
      some split.bare := by
    rw [bare_split?_paired, lone.withAmount_eq absorbs, lone.split?_edited, Option.map_some]
  obtain ⟨again, isAgain, same⟩ := Option.map_eq_some_iff.mp bare
  have parent : again.bare.parent = split.bare.parent := congrArg Split.parent same
  have within : again.bare.account = split.bare.account := congrArg Split.account same
  have isOwner : (ledger.paired owner edited split account amount?).transaction? owner =
      some (transaction.push ledger.nextSplit) := by
    rw [transaction?, transactions_paired]
    exact lone.transaction?_owner
  have ready : again.account.any (ledger.paired owner edited split account
      amount?).accounts.defers = false := by
    change again.bare.account.any _ = false
    rw [defers_paired, within]
    exact lone.ready
  have active : (ledger.paired owner edited split account amount?).Active edited again owner
      (transaction.push ledger.nextSplit) :=
    ⟨isAgain, parent.trans lone.parent, isOwner, lone.undeferred, ready⟩
  have target : (transaction.push ledger.nextSplit).target? edited = some ledger.nextSplit := by
    simp [Transaction.target?, lone.splits_push]
  have common := lone.commonCommodity_withCounterpart lone.split?_edited rfl
  rw [active.settlement, if_neg (by simp [lone.splits_push]),
    paired_sameHoldings.commonCommodity common, ok_bind, target]

/-- The counterpart takes up the opposite of the source again without any change. -/
theorem absorbed_paired : (ledger.paired owner edited split account amount?).absorbed
    ledger.nextSplit (some (-split.value)) = ledger.paired owner edited split account amount? := by
  have mirrors : ledger.Mirrors (ledger.paired owner edited split account amount?) edited split owner
      account ledger.nextSplit := lone.mirrors
  obtain ⟨entry, isEntry, -, -, -, amount, -, -, within⟩ := mirrors.entry
  have isIn := (accountOf?_eq isEntry).trans within
  apply absorbed_eq_self
  · intro value again same isAgain
    rw [← Option.some.inj same]
    obtain rfl : again = entry := Option.some.inj (isAgain.symm.trans isEntry)
    exact amount
  · intro other holder isOther held
    obtain rfl : account = other := Option.some.inj (isIn.symm.trans isOther)
    exact isChanged_paired held
  · intro other isOther
    obtain rfl : account = other := Option.some.inj (isIn.symm.trans isOther)
    exact recompute_recompute _ account

end Lone

end Ledger

namespace Action

open Ledger

/-- With exact arithmetic, rebalancing that adds a split can be repeated. -/
theorem repeats_rebalanceSplit_of_lone {J : Type} {ledger : Ledger Rat J} {edited : SplitId}
    {split : Split Rat} {owner : TransactionId} {transaction : Transaction} {account : AccountId}
    {holder : Account} (lone : ledger.Lone edited split owner transaction account holder)
    (decided : ledger.settlement edited = .ok (.pair owner edited)) :
    (rebalanceSplit edited).Repeats ledger := by
  obtain ⟨amount?, absorbs⟩ := lone.absorption_next_ok
  have again : (ledger.paired owner edited split account amount?).absorption owner ledger.nextSplit
      (some holder.currency) = .ok (some (-split.value)) := by
    have same : (ledger.withCounterpart owner split).SameValues
        (ledger.paired owner edited split account amount?) := lone.paired_sameValues absorbs
    apply same.toSameHoldings.absorption _ _ lone.absorption_counterpart
    · exact fun entry _ => same.terms entry
    · have price := congrArg (Option.map (·.2.2)) (same.terms ledger.nextSplit)
      rw [Option.map_map, Option.map_map] at price
      exact price
  rw [Repeats, rebalanceSplit, ends_settle, decided]
  dsimp only
  rw [ends_addCounterpart_of_lone lone, absorbs]
  change (settle addCounterpart edited).Ends (ledger.paired owner edited split account amount?) _
  rw [ends_settle, lone.settlement_paired absorbs]
  dsimp only
  rw [again]
  exact ⟨rfl, lone.absorbed_paired⟩

end Action

section Repeating

open Ledger

/-- A pass that adds a split adds one in the end, whether or not it fails. -/
theorem Ledger.creates_of_settlement {α J : Type} [Scalar α] {ledger : Ledger α J}
    {edited : SplitId} {owner : TransactionId} (owned : ledger.Owned)
    (fresh : (rebalanceSplit edited ledger).ledger.minted ≤ 2 ^ 128)
    (decided : ledger.settlement edited = .ok (.pair owner edited)) :
    ledger.Creates (rebalanceSplit edited ledger).ledger ledger.nextSplit := by
  have new := owned.new (small_of_pair decided fresh)
  obtain ⟨-, split, transaction, account, holder, lone⟩ := lone_of_settlement new decided
  refine ⟨new, ?_⟩
  suffices ends : (rebalanceSplit edited).Ends ledger fun _ after =>
    (after.split? ledger.nextSplit).isSome = true from ends
  rw [rebalanceSplit, ends_settle, decided]
  dsimp only
  rw [ends_addCounterpart_of_lone lone]
  cases (ledger.withCounterpart owner split).absorption owner edited (some holder.currency) with
  | error _ => simp [split?_next]
  | ok amount? =>
    change ((ledger.paired owner edited split account amount?).split? ledger.nextSplit).isSome = true
    rw [paired_sameHoldings.isSome_split?, split?_next, Option.isSome_some]

/-- Rebalancing from a split, in any ledger that can be reached and whether or not it fails, comes to the
same result a second time and leaves the whole ledger as the first time left it: with any arithmetic if
the transaction has two splits or more, or no split was added, and with exact arithmetic always. -/
theorem Reachable.rebalanceSplit_idempotent :
    (∀ {α J : Type} [Scalar α] [Journal J α] {ledger : Ledger α J},
      Reachable (fun _ => True) ledger → ∀ edited,
        (rebalanceSplit edited ledger).ledger.minted ≤ 2 ^ 128 →
        ((∃ owner, ledger.parentOf? edited = some owner ∧ 2 ≤ (ledger.splitsOf owner).length) ∨
          ∀ new, ¬ ledger.Creates (rebalanceSplit edited ledger).ledger new) →
        (rebalanceSplit edited).Repeats ledger) ∧
    (∀ {J : Type} [Journal J Rat] {ledger : Ledger Rat J},
      Reachable (fun _ => True) ledger → ∀ edited,
        (rebalanceSplit edited ledger).ledger.minted ≤ 2 ^ 128 →
        (rebalanceSplit edited).Repeats ledger) := by
  constructor
  · intro α J _ _ ledger reached edited fresh idle
    apply repeats_rebalanceSplit_of_unpaired reached.owned
    intro owner decided
    rcases idle with ⟨other, parent, several⟩ | idle
    · obtain ⟨-, split, transaction, _, active, alone, -⟩ := settlement_eq_pair decided
      have named : ledger.parentOf? edited = some owner := by
        rw [parentOf?, active.isSplit, Option.bind_some, active.parent]
      obtain rfl := Option.some.inj (parent.symm.trans named)
      rw [splitsOf_eq active.isOwner, alone] at several
      simp at several
    · exact idle _ (creates_of_settlement reached.owned fresh decided)
  · intro J _ ledger reached edited fresh
    by_cases unpaired : ∀ owner, ledger.settlement edited ≠ .ok (.pair owner edited)
    · exact repeats_rebalanceSplit_of_unpaired reached.owned unpaired
    · simp only [ne_eq, not_forall, not_not] at unpaired
      obtain ⟨owner, decided⟩ := unpaired
      have new := reached.owned.new (small_of_pair decided fresh)
      obtain ⟨-, split, transaction, account, holder, lone⟩ := lone_of_settlement new decided
      exact repeats_rebalanceSplit_of_lone lone decided

/-- A source of doubles that has its counterpart, and one of fractions that gets it. -/
theorem Reachable.rebalanceSplit_idempotent_oneSided :
    (rebalanceSplit ⟨.ofNat 1⟩).Repeats
      (rebalanceSplit ⟨.ofNat 1⟩ (oneSided (5 : Float) 3 false)).ledger ∧
    (rebalanceSplit ⟨.ofNat 1⟩).Repeats (oneSided (5 : Rat) 3 false) := by
  have doubles : Reachable (fun _ => True) (oneSided (5 : Float) 3 false) :=
    (Reachable.start _ _).after _ (fun _ _ => trivial) (by decide +kernel)
  have fractions : Reachable (fun _ => True) (oneSided (5 : Rat) 3 false) :=
    (Reachable.start _ _).after _ (fun _ _ => trivial) (by decide +kernel)
  have paired : Reachable (fun _ => True)
      (rebalanceSplit ⟨.ofNat 1⟩ (oneSided (5 : Float) 3 false)).ledger :=
    doubles.step (.command (.rebalanceSplit ⟨.ofNat 1⟩)) trivial (by decide +kernel)
  constructor
  · apply Reachable.rebalanceSplit_idempotent.1 paired ⟨.ofNat 1⟩ (by decide +kernel)
    exact .inl ⟨⟨.ofNat 2⟩, by decide +kernel, by decide +kernel⟩
  · exact Reachable.rebalanceSplit_idempotent.2 fractions ⟨.ofNat 1⟩ (by decide +kernel)

end Repeating

end DoubleEntry
