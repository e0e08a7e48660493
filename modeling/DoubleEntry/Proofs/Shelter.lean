import DoubleEntry.Proofs.Ownership
import DoubleEntry.Proofs.Running

/-! # Parts of a ledger that stay as they are

A `Shelter` is any choice of transactions with their splits, of splits in no transaction, and of accounts
that none of the splits outside is in. `Shelter.Spares` says that nothing in it has changed, apart from
running balances, and that nothing came in from outside; each single change outside keeps it up. Splits
that no account outside lists can be chosen to keep their running balances as well.
-/

namespace DoubleEntry

/-- Transactions, splits and accounts that are to stay as they are. Some of the splits, the members, are
to keep their running balances as well. -/
structure Shelter where
  transactions : Set TransactionId
  splits : Set SplitId
  accounts : Set AccountId
  members : Set SplitId
  within : members ⊆ splits

namespace Shelter

open Ledger

variable {α J : Type} [Scalar α]

/-- What is in the shelter is as it was, and nothing comes in from outside: other transactions list
none of the splits, other accounts none of the members, and other splits are in none of the transactions
and accounts. -/
structure Spares (shelter : Shelter) (before ledger : Ledger α J) : Prop where
  transaction : ∀ {id}, id ∈ shelter.transactions → ledger.transaction? id = before.transaction? id
  split : ∀ {id}, id ∈ shelter.splits →
    (ledger.split? id).map Split.bare = (before.split? id).map Split.bare
  account : ∀ {id}, id ∈ shelter.accounts → ledger.account? id = before.account? id
  member : ∀ {id}, id ∈ shelter.members → ledger.split? id = before.split? id
  lists : ∀ {id transaction}, id ∉ shelter.transactions → ledger.transaction? id = some transaction →
    ∀ split ∈ transaction.splits, split ∉ shelter.splits
  registers : ∀ {id holder}, id ∉ shelter.accounts → ledger.account? id = some holder →
    ∀ split ∈ holder.register, split ∉ shelter.members
  parents : ∀ {id parent}, id ∉ shelter.splits → ledger.parentOf? id = some parent →
    parent ∉ shelter.transactions
  homes : ∀ {id account}, id ∉ shelter.splits → ledger.accountOf? id = some account →
    account ∉ shelter.accounts
  transactionBelow : ∀ {id}, id ∈ shelter.transactions → id.ident.toNat < ledger.minted
  splitBelow : ∀ {id}, id ∈ shelter.splits → id.ident.toNat < ledger.minted

variable {shelter : Shelter} {before ledger after : Ledger α J} {id : TransactionId} {split : SplitId}

/-! ## Single changes -/

/-- The book may change as long as it keeps the accounts in the shelter and lists no member elsewhere. -/
theorem Spares.of_postings (spares : shelter.Spares before ledger)
    (splits : after.splits = ledger.splits) (transactions : after.transactions = ledger.transactions)
    (grows : ledger.minted ≤ after.minted)
    (account : ∀ id ∈ shelter.accounts, after.account? id = ledger.account? id)
    (registers : ∀ id ∉ shelter.accounts, ∀ holder, after.account? id = some holder →
      ∀ split ∈ holder.register, split ∉ shelter.members) : shelter.Spares before after := by
  have entry (id : SplitId) : after.split? id = ledger.split? id := by rw [split?, split?, splits]
  have owner (id : TransactionId) : after.transaction? id = ledger.transaction? id := by
    rw [transaction?, transaction?, transactions]
  have parent (id : SplitId) : after.parentOf? id = ledger.parentOf? id :=
    parentOf?_congr (congrArg (Option.map Split.parent) (entry id))
  have home (id : SplitId) : after.accountOf? id = ledger.accountOf? id :=
    accountOf?_congr (congrArg (Option.map Split.account) (entry id))
  exact {
    transaction := fun inside => (owner _).trans (spares.transaction inside)
    split := fun inside => entry _ ▸ spares.split inside
    account := fun inside => (account _ inside).trans (spares.account inside)
    member := fun inside => (entry _).trans (spares.member inside)
    lists := fun outside found => spares.lists outside ((owner _).symm.trans found)
    registers := fun outside held => registers _ outside _ held
    parents := fun outside named => spares.parents outside ((parent _).symm.trans named)
    homes := fun outside named => spares.homes outside ((home _).symm.trans named)
    transactionBelow := fun inside => (spares.transactionBelow inside).trans_le grows
    splitBelow := fun inside => (spares.splitBelow inside).trans_le grows }

/-- Journal and clock count for nothing here. -/
theorem Spares.of_entries (spares : shelter.Spares before ledger)
    (splits : after.splits = ledger.splits) (transactions : after.transactions = ledger.transactions)
    (accounts : after.accounts = ledger.accounts) (grows : ledger.minted ≤ after.minted) :
    shelter.Spares before after := by
  have same (id : AccountId) : after.account? id = ledger.account? id := by
    rw [Ledger.account?, Ledger.account?, accounts]
  exact spares.of_postings splits transactions grows (fun id _ => same id)
    fun id outside holder held => spares.registers outside ((same id).symm.trans held)

/-- An account outside may change, and list other splits that are no members. -/
theorem Spares.modifyAccount {account : AccountId} {change : Account → Account}
    (spares : shelter.Spares before ledger) (outside : account ∉ shelter.accounts)
    (lists : ∀ holder, ∀ split ∈ (change holder).register,
      split ∈ holder.register ∨ split ∉ shelter.members) :
    shelter.Spares before { ledger with accounts := ledger.accounts.modify account change } := by
  refine spares.of_postings rfl rfl le_rfl (fun id inside => ?_) fun id away holder held => ?_
  · rw [Ledger.account?, Table.get?_modify, if_neg (ne_of_mem_of_not_mem inside outside)]
    rfl
  · rw [Ledger.account?, Table.get?_modify] at held
    split at held
    · subst_vars
      obtain ⟨former, isFormer, rfl⟩ := Option.map_eq_some_iff.mp held
      intro split listed
      exact (lists former split listed).elim (spares.registers away isFormer split) fun free => free
    · exact spares.registers away held

theorem Spares.mark (spares : shelter.Spares before ledger) (outside : split ∉ shelter.splits) :
    shelter.Spares before (ledger.mark split) := by
  unfold Ledger.mark
  split
  · rename_i account named
    exact spares.modifyAccount (spares.homes outside named) fun _ _ listed => .inl listed
  · exact spares

theorem Spares.markAll (spares : shelter.Spares before ledger) {splits : List SplitId}
    (outside : ∀ split ∈ splits, split ∉ shelter.splits) :
    shelter.Spares before (splits.foldl (fun ledger split => ledger.mark split) ledger) := by
  induction splits generalizing ledger with
  | nil => exact spares
  | cons split rest ih =>
    exact ih (spares.mark (outside split List.mem_cons_self))
      fun other later => outside other (List.mem_cons_of_mem split later)

theorem Spares.splitsOf (spares : shelter.Spares before ledger) (outside : id ∉ shelter.transactions) :
    ∀ split ∈ ledger.splitsOf id, split ∉ shelter.splits := by
  unfold Ledger.splitsOf
  split
  · exact spares.lists outside ‹_›
  · exact nofun

theorem Spares.markTransaction (spares : shelter.Spares before ledger)
    (outside : id ∉ shelter.transactions) : shelter.Spares before (ledger.markTransaction id) :=
  spares.markAll (spares.splitsOf outside)

theorem Spares.leaveRegister {account : AccountId} (spares : shelter.Spares before ledger)
    (outside : account ∉ shelter.accounts) (split : SplitId) :
    shelter.Spares before (ledger.leaveRegister account split) :=
  spares.modifyAccount outside fun _ _ listed => .inl (List.mem_filter.mp listed).1

theorem Spares.registered {account : AccountId} (spares : shelter.Spares before ledger)
    (outside : account ∉ shelter.accounts) (away : split ∉ shelter.splits) :
    shelter.Spares before (ledger.registered account split) := by
  refine spares.modifyAccount outside fun holder other listed => ?_
  have entered : other ∈ split ::ₘ (holder.register : Multiset SplitId).filter (· ≠ split) := by
    rw [← Register.coe_insert ledger.postings.compare]
    exact listed
  rcases Multiset.mem_cons.mp entered with rfl | former
  · exact .inr fun inside => away (shelter.within inside)
  · exact .inl (Multiset.mem_of_mem_filter former)

/-- Only the splits in its register carry other balances once an account outside is recomputed. -/
theorem Spares.recompute {account : AccountId} (spares : shelter.Spares before ledger)
    (outside : account ∉ shelter.accounts) : shelter.Spares before (ledger.recompute account) := by
  have alike := ledger.recompute_alike account
  have transactions (id : TransactionId) :
      (ledger.recompute account).transaction? id = ledger.transaction? id := by
    rw [transaction?, transaction?, alike.transactions]
  have accounts (id : AccountId) : (ledger.recompute account).account? id = ledger.account? id := by
    rw [Ledger.account?, Ledger.account?, accounts_recompute]
  have parents (id : SplitId) : (ledger.recompute account).parentOf? id = ledger.parentOf? id :=
    parentOf?_congr (alike.map_split? (·.parent) (fun _ => rfl) id)
  exact {
    transaction := fun inside => (transactions _).trans (spares.transaction inside)
    split := fun inside => (alike.splits _).trans (spares.split inside)
    account := fun inside => (accounts _).trans (spares.account inside)
    member := fun inside => .trans
      (split?_recompute fun _ held listed => spares.registers outside held _ listed inside)
      (spares.member inside)
    lists := fun away found => spares.lists away ((transactions _).symm.trans found)
    registers := fun away held => spares.registers away ((accounts _).symm.trans held)
    parents := fun away named => spares.parents away ((parents _).symm.trans named)
    homes := fun away named => spares.homes away ((alike.accountOf? _).symm.trans named)
    transactionBelow := fun inside => alike.minted.symm ▸ spares.transactionBelow inside
    splitBelow := fun inside => alike.minted.symm ▸ spares.splitBelow inside }

theorem Spares.recompute? {account : Option AccountId} (spares : shelter.Spares before ledger)
    (outside : ∀ id, account = some id → id ∉ shelter.accounts) :
    shelter.Spares before (ledger.recompute? account) := by
  cases account with
  | none => exact spares
  | some account => exact spares.recompute (outside account rfl)

/-- A change of a split outside that stays where it was or goes to a place outside. -/
theorem Spares.modifySplit (spares : shelter.Spares before ledger) {change : Split α → Split α}
    (outside : split ∉ shelter.splits) (parents : ∀ entry parent, (change entry).parent = some parent →
      entry.parent = some parent ∨ parent ∉ shelter.transactions)
    (homes : ∀ entry account, (change entry).account = some account →
      entry.account = some account ∨ account ∉ shelter.accounts) :
    shelter.Spares before (ledger.modifySplit split change) where
  transaction := spares.transaction
  split inside := by
    rw [split?_modifySplit, if_neg (ne_of_mem_of_not_mem inside outside)]
    exact spares.split inside
  account := spares.account
  member inside := by
    rw [split?_modifySplit, if_neg (ne_of_mem_of_not_mem (shelter.within inside) outside)]
    exact spares.member inside
  lists := spares.lists
  registers := spares.registers
  parents {other parent} away named := by
    rw [parentOf?, split?_modifySplit] at named
    split at named
    · subst_vars
      rw [Option.bind_map, Option.bind_eq_some_iff] at named
      obtain ⟨entry, found, named⟩ := named
      refine (parents entry parent named).elim (fun kept => spares.parents away ?_) fun free => free
      rw [parentOf?, found]
      exact kept
    · exact spares.parents away named
  homes {other account} away named := by
    rw [Ledger.accountOf?, split?_modifySplit] at named
    split at named
    · subst_vars
      rw [Option.bind_map, Option.bind_eq_some_iff] at named
      obtain ⟨entry, found, named⟩ := named
      refine (homes entry account named).elim (fun kept => spares.homes away ?_) fun free => free
      rw [Ledger.accountOf?, found]
      exact kept
    · exact spares.homes away named
  transactionBelow := spares.transactionBelow
  splitBelow := spares.splitBelow

theorem Spares.editSplit (spares : shelter.Spares before ledger) {change : Split α → Split α}
    (outside : split ∉ shelter.splits) (keeps : Split.KeepsLinks change) :
    shelter.Spares before (ledger.modifySplit split change) :=
  spares.modifySplit outside (fun entry _ named => .inl ((keeps.parent entry).symm.trans named))
    fun entry _ named => .inl ((keeps.account entry).symm.trans named)

theorem Spares.modifyTransaction (spares : shelter.Spares before ledger)
    {change : Transaction → Transaction} (outside : id ∉ shelter.transactions)
    (lists : ∀ transaction, ∀ split ∈ (change transaction).splits,
      split ∈ transaction.splits ∨ split ∉ shelter.splits) :
    shelter.Spares before (ledger.modifyTransaction id change) where
  transaction inside := by
    rw [transaction?_modifyTransaction, if_neg (ne_of_mem_of_not_mem inside outside)]
    exact spares.transaction inside
  split := spares.split
  account := spares.account
  member := spares.member
  lists {other transaction} away found := by
    rw [transaction?_modifyTransaction] at found
    split at found
    · subst_vars
      obtain ⟨former, isFormer, rfl⟩ := Option.map_eq_some_iff.mp found
      intro split listed
      exact (lists former split listed).elim (spares.lists away isFormer split) fun free => free
    · exact spares.lists away found
  registers := spares.registers
  parents := spares.parents
  homes := spares.homes
  transactionBelow := spares.transactionBelow
  splitBelow := spares.splitBelow

/-- A split outside goes to a transaction outside, or to none. -/
theorem Spares.setParent (spares : shelter.Spares before ledger) {parent : Option TransactionId}
    (outside : split ∉ shelter.splits) (away : ∀ id, parent = some id → id ∉ shelter.transactions) :
    shelter.Spares before (ledger.modifySplit split fun s => { s with parent }) :=
  spares.modifySplit outside (fun _ _ named => .inr (away _ named)) fun _ _ named => .inl named

/-- A split outside goes to an account outside, or to none. -/
theorem Spares.setAccount (spares : shelter.Spares before ledger) {account : Option AccountId}
    (outside : split ∉ shelter.splits) (away : ∀ id, account = some id → id ∉ shelter.accounts) :
    shelter.Spares before (ledger.modifySplit split fun s => { s with account }) :=
  spares.modifySplit outside (fun _ _ named => .inl named) fun _ _ named => .inr (away _ named)

theorem Spares.drop (spares : shelter.Spares before ledger) (split : SplitId)
    (away : id ∉ shelter.transactions) :
    shelter.Spares before (ledger.modifyTransaction id (·.drop split)) :=
  spares.modifyTransaction away fun _ _ listed => .inl (List.mem_filter.mp listed).1

theorem Spares.push (spares : shelter.Spares before ledger) (outside : split ∉ shelter.splits)
    (away : id ∉ shelter.transactions) :
    shelter.Spares before (ledger.modifyTransaction id (·.push split)) :=
  spares.modifyTransaction away fun _ _ listed =>
    (List.mem_append.mp listed).imp_right fun last => by rwa [List.mem_singleton.mp last]

theorem Spares.insertAt (spares : shelter.Spares before ledger) (index : Nat)
    (outside : split ∉ shelter.splits) (away : id ∉ shelter.transactions) :
    shelter.Spares before (ledger.modifyTransaction id (·.insertAt index split)) := by
  refine spares.modifyTransaction away fun transaction other listed => ?_
  rcases List.mem_append.mp listed with early | late
  · exact .inl (List.mem_of_mem_take early)
  · rcases List.mem_cons.mp late with rfl | late
    · exact .inr outside
    · exact .inl (List.mem_of_mem_drop late)

/-- A new split is in no shelter that was there before. -/
theorem Spares.next (spares : shelter.Spares before ledger) (small : ledger.minted < 2 ^ 128) :
    ledger.nextSplit ∉ shelter.splits := by
  intro inside
  have below := spares.splitBelow inside
  rw [nextSplit, Links.toNat_ofNat small] at below
  exact lt_irrefl _ below

theorem Spares.insertSplit (spares : shelter.Spares before ledger) (entry : Split α)
    (outside : split ∉ shelter.splits)
    (parents : ∀ parent, entry.parent = some parent → parent ∉ shelter.transactions)
    (homes : ∀ account, entry.account = some account → account ∉ shelter.accounts) :
    shelter.Spares before { ledger with splits := ledger.splits.insert split entry } where
  transaction := spares.transaction
  split {other} inside := by
    rw [split?, Table.get?_insert, if_neg (ne_of_mem_of_not_mem inside outside)]
    exact spares.split inside
  account := spares.account
  member {other} inside := by
    rw [split?, Table.get?_insert, if_neg (ne_of_mem_of_not_mem (shelter.within inside) outside)]
    exact spares.member inside
  lists := spares.lists
  registers := spares.registers
  parents {other parent} away named := by
    rw [parentOf?, split?, Table.get?_insert] at named
    split at named
    · exact parents parent named
    · exact spares.parents away named
  homes {other account} away named := by
    rw [Ledger.accountOf?, split?, Table.get?_insert] at named
    split at named
    · exact homes account named
    · exact spares.homes away named
  transactionBelow := spares.transactionBelow
  splitBelow := spares.splitBelow

theorem Spares.insertTransaction (spares : shelter.Spares before ledger) (transaction : Transaction)
    (outside : id ∉ shelter.transactions)
    (free : ∀ split ∈ transaction.splits, split ∉ shelter.splits) :
    shelter.Spares before
      { ledger with transactions := ledger.transactions.insert id transaction } where
  transaction {other} inside := by
    rw [transaction?, Table.get?_insert, if_neg (ne_of_mem_of_not_mem inside outside)]
    exact spares.transaction inside
  split := spares.split
  account := spares.account
  member := spares.member
  lists {other another} away found := by
    rw [transaction?, Table.get?_insert] at found
    split at found
    · cases found
      exact free
    · exact spares.lists away found
  registers := spares.registers
  parents := spares.parents
  homes := spares.homes
  transactionBelow := spares.transactionBelow
  splitBelow := spares.splitBelow

theorem Spares.leaveAccount (spares : shelter.Spares before ledger) (outside : split ∉ shelter.splits) :
    shelter.Spares before (ledger.leaveAccount split) := by
  unfold Ledger.leaveAccount
  split
  · rename_i account named
    have away := spares.homes outside named
    exact (spares.leaveRegister away split).recompute away
  · exact spares

theorem Spares.eraseSplit (spares : shelter.Spares before ledger) (outside : split ∉ shelter.splits) :
    shelter.Spares before (ledger.eraseSplit split) := by
  have left := spares.leaveAccount outside
  exact {
    transaction := left.transaction
    split := fun inside => by
      rw [split?_eraseSplit, if_neg (ne_of_mem_of_not_mem inside outside)]
      exact left.split inside
    account := left.account
    member := fun inside => by
      rw [split?_eraseSplit, if_neg (ne_of_mem_of_not_mem (shelter.within inside) outside)]
      exact left.member inside
    lists := left.lists
    registers := left.registers
    parents := fun away named => by
      rw [parentOf?, split?_eraseSplit] at named
      split at named
      · contradiction
      · exact left.parents away named
    homes := fun away named => by
      rw [Ledger.accountOf?, split?_eraseSplit] at named
      split at named
      · contradiction
      · exact left.homes away named
    transactionBelow := left.transactionBelow
    splitBelow := left.splitBelow }

theorem Spares.eraseSplits (spares : shelter.Spares before ledger) (splits : List SplitId)
    (outside : ∀ split ∈ splits, split ∉ shelter.splits) : shelter.Spares before
      (splits.foldl (fun ledger split => (ledger.mark split).eraseSplit split) ledger) := by
  induction splits generalizing ledger with
  | nil => exact spares
  | cons split rest ih =>
    have away := outside split List.mem_cons_self
    exact ih ((spares.mark away).eraseSplit away)
      fun other later => outside other (List.mem_cons_of_mem split later)

theorem Spares.eraseTransaction (spares : shelter.Spares before ledger)
    (outside : id ∉ shelter.transactions) :
    shelter.Spares before { ledger with transactions := ledger.transactions.erase id } where
  transaction {other} inside := by
    rw [transaction?, Table.get?_erase, if_neg (ne_of_mem_of_not_mem inside outside)]
    exact spares.transaction inside
  split := spares.split
  account := spares.account
  member := spares.member
  lists {other another} away found := by
    rw [transaction?, Table.get?_erase] at found
    split at found
    · contradiction
    · exact spares.lists away found
  registers := spares.registers
  parents := spares.parents
  homes := spares.homes
  transactionBelow := spares.transactionBelow
  splitBelow := spares.splitBelow

/-! ## A transaction alone -/

/-- A transaction with its splits. -/
def around (owner : TransactionId) (transaction : Transaction) : Shelter where
  transactions := {owner}
  splits := {split | split ∈ transaction.splits}
  accounts := ∅
  members := ∅
  within := Set.empty_subset _

/-- No account is sheltered with a transaction, so any book will do. -/
theorem Spares.rebook {owner : TransactionId} {transaction : Transaction}
    (spares : (around owner transaction).Spares before ledger) (splits : after.splits = ledger.splits)
    (transactions : after.transactions = ledger.transactions) (grows : ledger.minted ≤ after.minted) :
    (around owner transaction).Spares before after :=
  spares.of_postings splits transactions grows (fun _ inside => inside.elim) fun _ _ _ _ _ _ inside =>
    inside

end Shelter

/-- No other transaction lists a split of a transaction, and no other split is in it. -/
theorem Ledger.Owned.spares {α J : Type} [Scalar α] {ledger : Ledger α J} {owner : TransactionId}
    {transaction : Transaction} (owned : ledger.Owned)
    (isOwner : ledger.transaction? owner = some transaction) :
    (Shelter.around owner transaction).Spares ledger ledger where
  transaction _ := rfl
  split _ := rfl
  account _ := rfl
  member _ := rfl
  lists {id other} away found split inside listed := away <| by
    have named := (owned.mem_iff found).mp inside
    have own := (owned.mem_iff isOwner).mp listed
    exact Option.some.inj (Option.some.inj (named.symm.trans own))
  registers _ _ _ _ inside := inside
  parents {split parent} away named same := away <| by
    obtain rfl : parent = owner := same
    exact (owned.mem_iff isOwner).mpr (parent_eq_iff.mpr (Option.bind_eq_some_iff.mp named))
  homes _ _ inside := inside
  transactionBelow {id} inside := by
    obtain rfl : id = owner := inside
    exact owned.below.listed (by simp [listed_eq isOwner])
  splitBelow {split} inside := by
    have named := (owned.mem_iff isOwner).mp inside
    exact owned.numbered (by simp [named])

end DoubleEntry
