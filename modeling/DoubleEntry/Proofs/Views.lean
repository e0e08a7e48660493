import DoubleEntry.Ledger.Basic
import DoubleEntry.Proofs.Links

/-! # What single changes leave alone

The single changes of a ledger are described by what is looked up afterwards. Most of them only renew
running balances or flag accounts: such ledgers are `Alike`. The two kinds of links in a ledger are its
`ownership`, from splits to transactions, and its `membership`, from splits to accounts.
-/

namespace DoubleEntry

theorem Table.map_get?_modify {κ ν β : Type} [DecidableEq κ] (table : Table κ ν) (key : κ)
    (change : ν → ν) (view : ν → β) (same : ∀ value, view (change value) = view value) (other : κ) :
    ((table.modify key change).get? other).map view = (table.get? other).map view := by
  rw [Table.get?_modify]
  split
  · subst_vars
    rw [Option.map_map]
    exact congrArg (Option.map · _) (funext same)
  · rfl

theorem Table.get?_eq_some_iff {κ ν : Type} [DecidableEq κ] {table : Table κ ν} {key : κ} {value : ν} :
    table.get? key = some value ↔ (key, value) ∈ table.entries := by
  constructor
  · intro found
    obtain ⟨⟨other, _⟩, inside, rfl⟩ := Option.map_eq_some_iff.mp found
    have same : other = key := by simpa using List.find?_some inside
    exact same ▸ List.mem_of_find?_eq_some inside
  · intro inside
    have keyed : table.contains key = true := (table.contains_iff key).mpr (List.mem_map_of_mem inside)
    obtain ⟨again, found⟩ := Option.isSome_iff_exists.mp keyed
    obtain ⟨⟨other, _⟩, first, rfl⟩ := Option.map_eq_some_iff.mp found
    have same : other = key := by simpa using List.find?_some first
    subst same
    have unique := List.inj_on_of_nodup_map table.nodup (List.mem_of_find?_eq_some first) inside rfl
    rw [found, (Prod.mk.inj unique).2]

/-- A change that leaves the value of a key as it is changes nothing. -/
theorem Table.modify_of_fixed {κ ν : Type} [DecidableEq κ] {table : Table κ ν} {key : κ}
    {change : ν → ν} (fixed : ∀ value, table.get? key = some value → change value = value) :
    table.modify key change = table := by
  obtain ⟨entries, nodup⟩ := table
  unfold modify
  congr 1
  refine (List.map_congr_left fun entry inside => ?_).trans entries.map_id
  by_cases same : entry.1 = key
  · subst same
    rw [if_pos rfl, fixed entry.2 (get?_eq_some_iff.mpr inside)]
    rfl
  · rw [if_neg same]
    rfl

/-- A change of a key that is not there changes nothing. -/
theorem Table.modify_of_absent {κ ν : Type} [DecidableEq κ] {table : Table κ ν} {key : κ}
    (absent : table.contains key = false) (change : ν → ν) : table.modify key change = table := by
  apply modify_of_fixed
  intro value found
  simp [contains, found] at absent

theorem Table.modify_modify {κ ν : Type} [DecidableEq κ] (table : Table κ ν) (key : κ)
    (first second : ν → ν) :
    (table.modify key first).modify key second = table.modify key (second ∘ first) := by
  unfold modify
  congr 1
  rw [List.map_map]
  refine List.map_congr_left fun entry _ => ?_
  by_cases same : entry.1 = key <;> simp [same]

/-- What holds of everything that is looked up can be checked entry by entry. -/
theorem Table.forall_get?_iff {κ ν : Type} [DecidableEq κ] (table : Table κ ν) (holds : κ → ν → Prop) :
    (∀ key value, table.get? key = some value → holds key value) ↔
      ∀ entry ∈ table.entries, holds entry.1 entry.2 :=
  ⟨fun each entry inside => each entry.1 entry.2 (get?_eq_some_iff.mpr inside),
    fun each key value found => each (key, value) (get?_eq_some_iff.mp found)⟩

theorem Register.coe_insert {κ : Type} [DecidableEq κ] (order : κ → κ → Ordering) (entry : κ)
    (entries : List κ) : (Register.insert order entry entries : Multiset κ) =
      entry ::ₘ (entries : Multiset κ).filter (· ≠ entry) := by
  rw [Multiset.filter_coe, Multiset.cons_coe, Multiset.coe_eq_coe]
  refine List.perm_middle.trans (List.Perm.cons entry ?_)
  rw [List.take_append_drop]

namespace Ledger

variable {α J : Type} {ledger : Ledger α J}

/-! ## Look-ups -/

theorem split?_modifySplit (id : SplitId) (change : Split α → Split α) (other : SplitId) :
    (ledger.modifySplit id change).split? other =
      if other = id then (ledger.split? id).map change else ledger.split? other :=
  Table.get?_modify ..

theorem transaction?_modifyTransaction (id : TransactionId) (change : Transaction → Transaction)
    (other : TransactionId) : (ledger.modifyTransaction id change).transaction? other =
      if other = id then (ledger.transaction? id).map change else ledger.transaction? other :=
  Table.get?_modify ..

theorem isSome_split?_modifySplit (id : SplitId) (change : Split α → Split α) (other : SplitId) :
    ((ledger.modifySplit id change).split? other).isSome = (ledger.split? other).isSome := by
  rw [split?_modifySplit]
  split
  · subst_vars
    exact Option.isSome_map ..
  · rfl

theorem isSome_transaction?_modifyTransaction (id : TransactionId) (change : Transaction → Transaction)
    (other : TransactionId) : ((ledger.modifyTransaction id change).transaction? other).isSome =
      (ledger.transaction? other).isSome := by
  rw [transaction?_modifyTransaction]
  split
  · subst_vars
    exact Option.isSome_map ..
  · rfl

theorem split?_mark (id other : SplitId) : (ledger.mark id).split? other = ledger.split? other := by
  unfold mark
  split <;> rfl

theorem transaction?_mark (id : SplitId) (other : TransactionId) :
    (ledger.mark id).transaction? other = ledger.transaction? other := by
  unfold mark
  split <;> rfl

theorem split?_eraseSplit [Scalar α] (id other : SplitId) :
    (ledger.eraseSplit id).split? other =
      if other = id then none else (ledger.leaveAccount id).split? other :=
  Table.get?_erase ..

theorem accountOf?_eq {id : SplitId} {split : Split α} (found : ledger.split? id = some split) :
    ledger.accountOf? id = split.account := by
  simp [accountOf?, found]

/-- The account of a split is read from its entry. -/
theorem accountOf?_congr {other : Ledger α J} {id : SplitId}
    (same : (other.split? id).map (·.account) = (ledger.split? id).map (·.account)) :
    other.accountOf? id = ledger.accountOf? id := by
  rw [accountOf?, accountOf?]
  cases found : ledger.split? id <;> cases again : other.split? id <;> simp_all

theorem parentOf?_congr {other : Ledger α J} {id : SplitId}
    (same : (other.split? id).map (·.parent) = (ledger.split? id).map (·.parent)) :
    other.parentOf? id = ledger.parentOf? id := by
  rw [parentOf?, parentOf?]
  cases found : ledger.split? id <;> cases again : other.split? id <;> simp_all

theorem splitsOf_eq {id : TransactionId} {transaction : Transaction}
    (found : ledger.transaction? id = some transaction) :
    ledger.splitsOf id = transaction.splits := by
  simp [splitsOf, found]

/-- The ledger with a split at its place in the register of an account. -/
def registered (account : AccountId) (split : SplitId) (ledger : Ledger α J) : Ledger α J :=
  { ledger with accounts := ledger.accounts.insertSplit ledger.postings account split }

/-! ## Ledgers alike -/

end Ledger

/-- A split without what it copies from its register. -/
def Split.bare {α : Type} [Scalar α] (split : Split α) : Split α := { split with running := .zero }

/-- An account without its note of changes. -/
def Account.bare (account : Account) : Account := { account with changed := false }

namespace Ledger

variable {α J : Type} [Scalar α] {ledger other last : Ledger α J}

/-- What does not look at running balances finds the same in splits that agree up to these. -/
theorem map_of_bare {β : Type} {one another : Option (Split α)} (view : Split α → β)
    (blind : ∀ split, view split.bare = view split)
    (same : another.map Split.bare = one.map Split.bare) : another.map view = one.map view := by
  have seen := congrArg (Option.map view) same
  simpa only [Option.map_map, Function.comp_def, blind] using seen

theorem parentOf?_of_bare {id : SplitId}
    (same : (other.split? id).map Split.bare = (ledger.split? id).map Split.bare) :
    other.parentOf? id = ledger.parentOf? id :=
  parentOf?_congr (map_of_bare (·.parent) (fun _ => rfl) same)

theorem accountOf?_of_bare {id : SplitId}
    (same : (other.split? id).map Split.bare = (ledger.split? id).map Split.bare) :
    other.accountOf? id = ledger.accountOf? id :=
  accountOf?_congr (map_of_bare (·.account) (fun _ => rfl) same)

/-- Ledgers whose entries agree up to running balances and noted changes. -/
structure Alike (ledger other : Ledger α J) : Prop where
  settings : other.settings = ledger.settings
  transactions : other.transactions = ledger.transactions
  splits : ∀ id, (other.split? id).map Split.bare = (ledger.split? id).map Split.bare
  accounts : ∀ id, (other.account? id).map Account.bare = (ledger.account? id).map Account.bare
  minted : other.minted = ledger.minted

namespace Alike

theorem refl (ledger : Ledger α J) : ledger.Alike ledger := ⟨rfl, rfl, fun _ => rfl, fun _ => rfl, rfl⟩

theorem trans (first : ledger.Alike other) (second : other.Alike last) : ledger.Alike last where
  settings := second.settings.trans first.settings
  transactions := second.transactions.trans first.transactions
  splits id := (second.splits id).trans (first.splits id)
  accounts id := (second.accounts id).trans (first.accounts id)
  minted := second.minted.trans first.minted

/-- What does not look at running balances finds the same in splits. -/
theorem map_split? {β : Type} (alike : ledger.Alike other) (view : Split α → β)
    (blind : ∀ split, view split.bare = view split) (id : SplitId) :
    (other.split? id).map view = (ledger.split? id).map view :=
  map_of_bare view blind (alike.splits id)

theorem map_account? {β : Type} (alike : ledger.Alike other) (view : Account → β)
    (blind : ∀ account, view account.bare = view account) (id : AccountId) :
    (other.account? id).map view = (ledger.account? id).map view := by
  have same := congrArg (Option.map view) (alike.accounts id)
  simpa only [Option.map_map, Function.comp_def, blind] using same

theorem accountOf? (alike : ledger.Alike other) (id : SplitId) :
    other.accountOf? id = ledger.accountOf? id := accountOf?_of_bare (alike.splits id)

theorem defers (alike : ledger.Alike other) : other.accounts.defers = ledger.accounts.defers := by
  funext id
  have same := alike.map_account? (·.defers) (fun _ => rfl) id
  simp only [account?] at same
  rw [Book.defers, Book.defers]
  cases found : ledger.accounts.get? id <;> cases again : other.accounts.get? id <;> simp_all

theorem enforces (alike : ledger.Alike other) : other.enforces = ledger.enforces := by
  rw [Ledger.enforces, Ledger.enforces, alike.settings]

end Alike

theorem mark_alike (ledger : Ledger α J) (id : SplitId) : ledger.Alike (ledger.mark id) := by
  unfold mark
  split
  · rename_i account _
    exact ⟨rfl, rfl, fun _ => rfl, Table.map_get?_modify ledger.accounts account
      (fun a => { a with changed := true }) Account.bare fun _ => rfl, rfl⟩
  · exact .refl ledger

theorem markTransaction_alike (ledger : Ledger α J) (id : TransactionId) :
    ledger.Alike (ledger.markTransaction id) := by
  unfold markTransaction
  generalize ledger.splitsOf id = splits
  induction splits generalizing ledger with
  | nil => exact .refl ledger
  | cons split rest ih => exact (ledger.mark_alike split).trans (ih _)

theorem recompute_alike (ledger : Ledger α J) (id : AccountId) :
    ledger.Alike (ledger.recompute id) := by
  unfold recompute
  generalize ledger.accounts.runningBalances ledger.postings id = balances
  dsimp only
  induction balances generalizing ledger with
  | nil => exact .refl ledger
  | cons balance rest ih =>
    have renewed : ledger.Alike (ledger.modifySplit balance.1 fun s => { s with running := balance.2 }) :=
      ⟨rfl, rfl, Table.map_get?_modify ledger.splits balance.1
        (fun s => { s with running := balance.2 }) Split.bare fun _ => rfl, fun _ => rfl, rfl⟩
    exact renewed.trans (ih _)

theorem recompute?_alike (ledger : Ledger α J) (id : Option AccountId) :
    ledger.Alike (ledger.recompute? id) := by
  cases id with
  | none => exact .refl ledger
  | some account => exact ledger.recompute_alike account

/-! ## Links -/

/-- Splits name their transaction, and transactions list their splits. -/
def ownership {α J : Type} (ledger : Ledger α J) : Links SplitId TransactionId where
  named id := (ledger.split? id).map (·.parent)
  listed id := (ledger.transaction? id).map fun transaction => (transaction.splits : Multiset SplitId)

/-- Splits name their account, and accounts list their splits. -/
def membership {α J : Type} (ledger : Ledger α J) : Links SplitId AccountId where
  named id := (ledger.split? id).map (·.account)
  listed id := (ledger.account? id).map fun account => (account.register : Multiset SplitId)

/-- Ledgers with the same links that gave out the same identifiers. -/
structure SameLinks {α J : Type} (ledger other : Ledger α J) : Prop where
  ownership : other.ownership = ledger.ownership
  membership : other.membership = ledger.membership
  minted : other.minted = ledger.minted

omit [Scalar α] in
theorem SameLinks.trans (first : ledger.SameLinks other) (second : other.SameLinks last) :
    ledger.SameLinks last where
  ownership := second.ownership.trans first.ownership
  membership := second.membership.trans first.membership
  minted := second.minted.trans first.minted

omit [Scalar α] in
theorem parentOf?_eq_some_iff {split : SplitId} {owner : TransactionId} :
    ledger.parentOf? split = some owner ↔ ledger.ownership.named split = some (some owner) := by
  simp only [Ledger.parentOf?, Ledger.ownership]
  cases ledger.split? split <;> simp

omit [Scalar α] in
theorem account_eq_iff {split : SplitId} {account : AccountId} :
    ledger.membership.named split = some (some account) ↔ ledger.accountOf? split = some account := by
  simp only [Ledger.membership, Ledger.accountOf?]
  cases ledger.split? split <;> simp

theorem Alike.ownership (alike : ledger.Alike other) : other.ownership = ledger.ownership := by
  unfold Ledger.ownership transaction?
  rw [alike.transactions]
  congr 1
  exact funext (alike.map_split? (·.parent) fun _ => rfl)

theorem Alike.membership (alike : ledger.Alike other) : other.membership = ledger.membership := by
  unfold Ledger.membership
  congr 1
  · exact funext (alike.map_split? (·.account) fun _ => rfl)
  · exact funext (alike.map_account? _ fun _ => rfl)

theorem Alike.sameLinks (alike : ledger.Alike other) : ledger.SameLinks other :=
  ⟨alike.ownership, alike.membership, alike.minted⟩

end Ledger

end DoubleEntry
