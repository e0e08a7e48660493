import DoubleEntry.Proofs.Views

/-! # Running balances as sums

What a register shows beside its splits is said here without the pass that calculates it: six sums over
the splits up to and including one, each taken from the left. `Ledger.IsCurrent` says that the running
balances that the splits of a register carry are these. Recomputing an account makes its register current
and touches no split outside it. No law of the numbers is used.
-/

namespace DoubleEntry

variable {α J : Type} [Scalar α]

omit [Scalar α] in
/-- What a running balance adds up of a split. -/
def Split.figures (split : Split α) : α × α × Reconcile := (split.amount, split.price, split.reconcile)

namespace Ledger

def isCleared (ledger : Ledger α J) (split : SplitId) : Bool :=
  (ledger.reconcile? split).any Reconcile.isCleared

def isReconciled (ledger : Ledger α J) (split : SplitId) : Bool :=
  ledger.reconcile? split = some .reconciled

/-- The sum of something over splits, taken from the left. -/
def total (view : SplitId → α) (splits : List SplitId) : α := (splits.map view).foldl (· + ·) 0

/-- The balances over splits: of values and of amounts, each over all splits, over the cleared and
reconciled ones, and over the reconciled ones. -/
def balanceOver (ledger : Ledger α J) (splits : List SplitId) : RunningBalance α where
  balance := total ledger.value splits
  cleared := total ledger.value (splits.filter ledger.isCleared)
  reconciled := total ledger.value (splits.filter ledger.isReconciled)
  shareBalance := total ledger.amount splits
  shareCleared := total ledger.amount (splits.filter ledger.isCleared)
  shareReconciled := total ledger.amount (splits.filter ledger.isReconciled)

/-- Every split of a register carries the balance over the splits up to it. -/
def IsCurrent (ledger : Ledger α J) (register : List SplitId) : Prop :=
  ∀ index id, register[index]? = some id →
    ledger.running id = ledger.balanceOver (register.take (index + 1))

instance [DecidableEq α] (ledger : Ledger α J) (register : List SplitId) :
    Decidable (ledger.IsCurrent register) :=
  decidable_of_iff (∀ index, ∀ _ : index < register.length,
      ledger.running register[index] = ledger.balanceOver (register.take (index + 1))) <| by
    simp only [IsCurrent, List.getElem?_eq_some_iff, forall_exists_index]
    exact ⟨fun each index id short same => same ▸ each index short,
      fun each index short => each index _ short rfl⟩

variable {ledger other : Ledger α J} {splits register : List SplitId} {split : Split α} {id : SplitId}
  {account : AccountId}

/-! ## Sums -/

theorem total_append_singleton (view : SplitId → α) (splits : List SplitId) (id : SplitId) :
    total view (splits ++ [id]) = total view splits + view id := by
  simp [total]

theorem total_congr {view again : SplitId → α} (same : ∀ id ∈ splits, again id = view id) :
    total again splits = total view splits := by
  rw [total, total, List.map_congr_left same]

/-- One more split is added as a running balance adds it. -/
theorem balanceOver_append_singleton (splits : List SplitId)
    (found : ledger.split? id = some split) :
    ledger.balanceOver (splits ++ [id]) =
      (ledger.balanceOver splits).add split.value split.amount split.reconcile := by
  have value : ledger.value id = split.value := by simp [Ledger.value, found]
  have amount : ledger.amount id = split.amount := by simp [Ledger.amount, found]
  have cleared : ledger.isCleared id = split.reconcile.isCleared := by
    simp [isCleared, reconcile?, found]
  have reconciled : ledger.isReconciled id = decide (split.reconcile = .reconciled) := by
    simp [isReconciled, reconcile?, found]
  simp only [balanceOver, RunningBalance.add, List.filter_append, List.filter_cons, List.filter_nil,
    cleared, reconciled, total_append_singleton, value, amount, decide_eq_true_eq]
  congr 1 <;> split <;> simp [total_append_singleton, value, amount]

theorem figures_eq
    (same : (other.split? id).map Split.figures = (ledger.split? id).map Split.figures) :
    other.value id = ledger.value id ∧ other.amount id = ledger.amount id ∧
      other.reconcile? id = ledger.reconcile? id := by
  unfold Ledger.value Ledger.amount reconcile?
  cases found : ledger.split? id <;> cases again : other.split? id <;>
    simp_all [Split.figures, Split.value]

/-- The balance over splits with the figures that they had is as before. -/
theorem balanceOver_congr (same : ∀ id ∈ splits,
    (other.split? id).map Split.figures = (ledger.split? id).map Split.figures) :
    other.balanceOver splits = ledger.balanceOver splits := by
  have values (id) (inside : id ∈ splits) := (figures_eq (same id inside)).1
  have amounts (id) (inside : id ∈ splits) := (figures_eq (same id inside)).2.1
  have states (id) (inside : id ∈ splits) := (figures_eq (same id inside)).2.2
  have cleared : splits.filter other.isCleared = splits.filter ledger.isCleared :=
    List.filter_congr fun id inside => by rw [isCleared, states id inside, isCleared]
  have reconciled : splits.filter other.isReconciled = splits.filter ledger.isReconciled :=
    List.filter_congr fun id inside => by rw [isReconciled, states id inside, isReconciled]
  unfold balanceOver
  rw [cleared, reconciled]
  congr 1
  all_goals refine total_congr fun id inside => ?_
  all_goals first
    | exact values id inside
    | exact amounts id inside
    | exact values id (List.mem_of_mem_filter inside)
    | exact amounts id (List.mem_of_mem_filter inside)

/-- A register stays current as long as its splits keep their figures and what they carry. -/
theorem IsCurrent.congr (current : ledger.IsCurrent register)
    (figures : ∀ id ∈ register,
      (other.split? id).map Split.figures = (ledger.split? id).map Split.figures)
    (running : ∀ id ∈ register, other.running id = ledger.running id) : other.IsCurrent register := by
  intro index id found
  have upTo : ∀ id ∈ register.take (index + 1), id ∈ register := fun _ => List.mem_of_mem_take
  rw [running id (List.mem_of_getElem? found), current index id found,
    balanceOver_congr fun id inside => figures id (upTo id inside)]

/-! ## Recomputing -/

/-- The ledger once splits carry these balances. -/
def renewed (balances : List (SplitId × RunningBalance α)) (ledger : Ledger α J) : Ledger α J :=
  balances.foldl (fun ledger (id, running) => ledger.modifySplit id fun s => { s with running }) ledger

theorem recompute_eq : ledger.recompute account =
    ledger.renewed (ledger.accounts.runningBalances ledger.postings account) := rfl

omit [Scalar α] in
theorem split?_renewed {balances : List (SplitId × RunningBalance α)}
    (outside : id ∉ balances.map Prod.fst) : (ledger.renewed balances).split? id = ledger.split? id := by
  induction balances generalizing ledger with
  | nil => rfl
  | cons balance rest ih =>
    rw [List.map_cons, List.mem_cons, not_or] at outside
    exact (ih outside.2).trans ((split?_modifySplit ..).trans (if_neg outside.1))

omit [Scalar α] in
theorem accounts_renewed {balances : List (SplitId × RunningBalance α)} :
    (ledger.renewed balances).accounts = ledger.accounts := by
  induction balances generalizing ledger with
  | nil => rfl
  | cons _ _ ih => exact ih

/-- Recomputing touches no account. -/
theorem accounts_recompute : (ledger.recompute account).accounts = ledger.accounts := by
  rw [recompute_eq, accounts_renewed]

theorem running_renewed {balances : List (SplitId × RunningBalance α)} {balance : RunningBalance α}
    (distinct : (balances.map Prod.fst).Nodup) (inside : (id, balance) ∈ balances)
    (live : (ledger.split? id).isSome) : (ledger.renewed balances).running id = balance := by
  induction balances generalizing ledger with
  | nil => cases inside
  | cons first rest ih =>
    rw [List.map_cons, List.nodup_cons] at distinct
    rcases List.mem_cons.mp inside with rfl | inside
    · obtain ⟨split, found⟩ := Option.isSome_iff_exists.mp live
      have last : (ledger.renewed ((id, balance) :: rest)).split? id =
          (ledger.modifySplit id fun s => { s with running := balance }).split? id :=
        split?_renewed distinct.1
      simp [running, last, split?_modifySplit, found]
    · refine ih distinct.2 inside ?_
      rwa [isSome_split?_modifySplit]

/-- A pass over splits calculates balances of these splits only. -/
theorem mem_of_mem_runningFrom {postings : Postings α} {sums : RunningBalance α}
    {entry : SplitId × RunningBalance α} (inside : entry ∈ Book.runningFrom postings sums register) :
    entry.1 ∈ register := by
  induction register generalizing sums with
  | nil => cases inside
  | cons first rest ih =>
    unfold Book.runningFrom at inside
    split at inside
    · exact List.mem_cons_of_mem first (ih inside)
    · rcases List.mem_cons.mp inside with rfl | later
      · exact List.mem_cons_self
      · exact List.mem_cons_of_mem first (ih later)

/-- Recomputing touches no split that the account does not list. -/
theorem split?_recompute
    (outside : ∀ holder, ledger.account? account = some holder → id ∉ holder.register) :
    (ledger.recompute account).split? id = ledger.split? id := by
  rw [recompute_eq]
  refine split?_renewed fun inside => ?_
  obtain ⟨entry, balanced, rfl⟩ := List.mem_map.mp inside
  unfold Book.runningBalances at balanced
  split at balanced
  · cases balanced
  · exact outside _ ‹_› (mem_of_mem_runningFrom balanced)

/-- The balances that a pass over splits of the ledger calculates are those over the splits so far. -/
theorem runningFrom_eq (splits : List SplitId)
    (live : ∀ id ∈ register, (ledger.split? id).isSome) :
    Book.runningFrom ledger.postings (ledger.balanceOver splits) register =
      register.mapIdx fun index id => (id, ledger.balanceOver (splits ++ register.take (index + 1))) := by
  induction register generalizing splits with
  | nil => rfl
  | cons first rest ih =>
    obtain ⟨split, found⟩ := Option.isSome_iff_exists.mp (live first List.mem_cons_self)
    have added := balanceOver_append_singleton splits found
    have entry : ledger.postings.splits.get? first = some split := found
    simp only [Book.runningFrom, entry, ← added, List.mapIdx_cons, List.take_succ_cons, List.take_zero]
    rw [ih _ fun id inside => live id (List.mem_cons_of_mem first inside)]
    simp only [List.append_assoc, List.singleton_append]

section Recompute

variable {holder : Account} (held : ledger.account? account = some holder)
  (live : ∀ id ∈ holder.register, (ledger.split? id).isSome)

include held live

theorem runningBalances_eq : ledger.accounts.runningBalances ledger.postings account =
    holder.register.mapIdx fun index id =>
      (id, ledger.balanceOver (holder.register.take (index + 1))) := by
  have found : ledger.accounts.get? account = some holder := held
  rw [Book.runningBalances, found]
  exact runningFrom_eq [] live

theorem keys_runningBalances :
    (ledger.accounts.runningBalances ledger.postings account).map Prod.fst = holder.register := by
  rw [runningBalances_eq held live]
  exact List.ext_getElem (by simp) fun _ _ _ => by simp

/-- A register is current once its account was recomputed. -/
theorem isCurrent_recompute (distinct : holder.register.Nodup) :
    (ledger.recompute account).IsCurrent holder.register := by
  intro index id found
  have inside : (id, ledger.balanceOver (holder.register.take (index + 1))) ∈
      ledger.accounts.runningBalances ledger.postings account := by
    rw [runningBalances_eq held live, List.mem_mapIdx]
    obtain ⟨short, rfl⟩ := List.getElem?_eq_some_iff.mp found
    exact ⟨index, short, rfl⟩
  have carried : (ledger.recompute account).running id =
      ledger.balanceOver (holder.register.take (index + 1)) :=
    running_renewed (keys_runningBalances held live ▸ distinct) inside
      (live id (List.mem_of_getElem? found))
  rw [carried]
  exact (balanceOver_congr fun other _ =>
    (recompute_alike ledger account).map_split? Split.figures (fun _ => rfl) other).symm

end Recompute

end Ledger

end DoubleEntry
