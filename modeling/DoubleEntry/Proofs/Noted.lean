import DoubleEntry.Proofs.Ownership
import DoubleEntry.Proofs.Running

/-! # Changes and the flags of accounts

An account carries a flag that something about it has changed. `Ledger.Noted` relates two ledgers if each
account without that flag afterwards is the account that it was, holds the splits that it held, and
neither these splits nor their transactions have changed, apart from running balances. Some splits and
transactions may still be owed a flag: an operation that writes before it marks owes one in between.
-/

namespace DoubleEntry

/-- A transaction without its list of splits and its session. -/
def Transaction.bare (transaction : Transaction) : Transaction :=
  { transaction with splits := [], edit := .closed }

namespace Ledger

variable {α J : Type}

/-- Whether an account of the book counts as changed. -/
def changed? (ledger : Ledger α J) (id : AccountId) : Option Bool :=
  (ledger.account? id).map (·.changed)

variable [Scalar α]

/-- What is not flagged has not changed, apart from splits and transactions that are owed a flag. Also a
split that is owed one is in the account that it was in, so that this account can still be flagged. -/
structure Noted (splits : Set SplitId) (transactions : Set TransactionId)
    (before after : Ledger α J) : Prop where
  account : ∀ id, after.account? id = before.account? id ∨ after.changed? id = some true
  home : ∀ {id split}, after.changed? id = some false →
    (before.accountOf? split = some id ↔ after.accountOf? split = some id)
  split : ∀ {id split}, split ∉ splits → after.changed? id = some false →
    after.accountOf? split = some id →
    (after.split? split).map Split.bare = (before.split? split).map Split.bare
  transaction : ∀ {id split parent}, split ∉ splits → parent ∉ transactions →
    after.changed? id = some false → after.accountOf? split = some id →
    after.parentOf? split = some parent →
    (after.transaction? parent).map Transaction.bare =
      (before.transaction? parent).map Transaction.bare

variable {splits : Set SplitId} {transactions : Set TransactionId}
  {before middle after ledger : Ledger α J} {id split : SplitId} {owner : TransactionId}
  {account : AccountId}

namespace Noted

theorem refl (ledger : Ledger α J) : ledger.Noted splits transactions ledger :=
  ⟨fun _ => .inl rfl, fun _ => .rfl, fun _ _ _ => rfl, fun _ _ _ _ _ => rfl⟩

/-- Flags are not taken back. -/
theorem unmarked (noted : before.Noted splits transactions after)
    (plain : after.changed? account = some false) : before.changed? account = some false := by
  rcases noted.account account with same | marked
  · rwa [changed?, ← same]
  · rw [marked] at plain
    cases plain

theorem trans (first : before.Noted splits transactions middle)
    (second : middle.Noted splits transactions after) : before.Noted splits transactions after where
  account id := by
    rcases second.account id with same | marked
    · rw [changed?, same]
      exact first.account id
    · exact .inr marked
  home plain := (first.home (second.unmarked plain)).trans (second.home plain)
  split paid plain within :=
    (second.split paid plain within).trans
      (first.split paid (second.unmarked plain) ((second.home plain).mpr within))
  transaction paid known plain within parent := by
    have was := parentOf?_of_bare (second.split paid plain within)
    exact (second.transaction paid known plain within parent).trans <|
      first.transaction paid known (second.unmarked plain) ((second.home plain).mpr within)
        (was ▸ parent)

/-- More may be owed. -/
theorem owing (noted : before.Noted ∅ ∅ after) : before.Noted splits transactions after where
  account := noted.account
  home := noted.home
  split _ := noted.split (Set.notMem_empty _)
  transaction _ _ := noted.transaction (Set.notMem_empty _) (Set.notMem_empty _)

theorem next (first : before.Noted splits transactions middle) (second : middle.Noted ∅ ∅ after) :
    before.Noted splits transactions after := first.trans second.owing

/-- Splits and transactions that are the same owe nothing. -/
theorem of_bare (account : ∀ id, after.account? id = before.account? id ∨ after.changed? id = some true)
    (splits : ∀ id, (after.split? id).map Split.bare = (before.split? id).map Split.bare)
    (transactions : ∀ id, (after.transaction? id).map Transaction.bare =
      (before.transaction? id).map Transaction.bare) : before.Noted ∅ ∅ after where
  account := account
  home _ := by rw [accountOf?_of_bare (splits _)]
  split _ _ _ := splits _
  transaction _ _ _ _ _ := transactions _

/-- A single split may change if the accounts are flagged that it was in and that it is in. -/
theorem of_split (split : SplitId)
    (account : ∀ id, after.account? id = before.account? id ∨ after.changed? id = some true)
    (others : ∀ other, other ≠ split →
      (after.split? other).map Split.bare = (before.split? other).map Split.bare)
    (transactions : ∀ other parent, other ≠ split → after.parentOf? other = some parent →
      (after.transaction? parent).map Transaction.bare =
        (before.transaction? parent).map Transaction.bare)
    (left : ∀ id, before.accountOf? split = some id → after.changed? id ≠ some false)
    (entered : ∀ id, after.accountOf? split = some id → after.changed? id ≠ some false) :
    before.Noted ∅ ∅ after := by
  have different {id : AccountId} {other : SplitId} (plain : after.changed? id = some false)
      (within : after.accountOf? other = some id) : other ≠ split := by
    rintro rfl
    exact entered id within plain
  exact {
    account
    home := fun {id other} plain => by
      by_cases same : other = split
      · subst same
        exact ⟨fun was => absurd plain (left id was), fun is => absurd plain (entered id is)⟩
      · rw [accountOf?_of_bare (others other same)]
    split := fun _ plain within => others _ (different plain within)
    transaction := fun _ _ plain within parent =>
      transactions _ _ (different plain within) parent }

end Noted

/-! ## Flags -/

section Flags

variable {change : Account → Account}

omit [Scalar α] in
/-- A change that flags an account leaves the others as they are. -/
theorem account?_flag (flags : ∀ holder, (change holder).changed = true) (other : AccountId) :
    ({ ledger with accounts := ledger.accounts.modify account change }.account? other =
        ledger.account? other) ∨
      { ledger with accounts := ledger.accounts.modify account change }.changed? other =
        some true := by
  simp only [changed?, account?, Table.get?_modify]
  split
  · rename_i same
    cases held : ledger.accounts.get? account with
    | none => exact .inl (same ▸ held.symm)
    | some holder => exact .inr (congrArg some (flags holder))
  · exact .inl rfl

omit [Scalar α] in
theorem changed?_flag (flags : ∀ holder, (change holder).changed = true) :
    { ledger with accounts := ledger.accounts.modify account change }.changed? account ≠
      some false := by
  simp only [changed?, account?, Table.get?_modify, if_pos]
  cases ledger.accounts.get? account with
  | none => simp
  | some holder => simp [flags]

end Flags

/-- A change of accounts that flags each of them. -/
theorem noted_flag {change : Account → Account} (flags : ∀ holder, (change holder).changed = true) :
    ledger.Noted ∅ ∅ { ledger with accounts := ledger.accounts.modify account change } :=
  .of_bare (account?_flag flags) (fun _ => rfl) fun _ => rfl

theorem noted_mark (split : SplitId) : ledger.Noted ∅ ∅ (ledger.mark split) := by
  unfold mark
  split
  · exact noted_flag fun _ => rfl
  · exact .refl ledger

omit [Scalar α] in
/-- A split that is marked is in no account without a flag. -/
theorem changed?_mark (within : ledger.accountOf? split = some account) :
    (ledger.mark split).changed? account ≠ some false := by
  unfold mark
  rw [within]
  exact changed?_flag fun _ => rfl

theorem accountOf?_mark (id : SplitId) : (ledger.mark split).accountOf? id = ledger.accountOf? id :=
  (ledger.mark_alike split).accountOf? id

/-- What the split is owed is paid by marking it. -/
theorem Noted.mark (noted : before.Noted {split} transactions after) :
    before.Noted ∅ transactions (after.mark split) := by
  have marks : after.Noted ∅ ∅ (after.mark split) := noted_mark split
  have whole := noted.next marks
  have different {id : AccountId} {other : SplitId} (plain : (after.mark split).changed? id = some false)
      (within : (after.mark split).accountOf? other = some id) : other ∉ ({split} : Set SplitId) := by
    rintro rfl
    exact changed?_mark ((accountOf?_mark other).symm.trans within) plain
  exact {
    account := whole.account
    home := whole.home
    split := fun _ plain within => whole.split (different plain within) plain within
    transaction := fun _ known plain within =>
      whole.transaction (different plain within) known plain within }

/-- Every split of a list is marked. -/
theorem noted_markAll (splits : List SplitId) :
    ledger.Noted ∅ ∅ (splits.foldl (fun ledger split => ledger.mark split) ledger) := by
  induction splits generalizing ledger with
  | nil => exact .refl ledger
  | cons split rest ih => exact (noted_mark split).trans ih

theorem changed?_markAll {splits : List SplitId} (listed : split ∈ splits)
    (within : ledger.accountOf? split = some account) :
    (splits.foldl (fun ledger split => ledger.mark split) ledger).changed? account ≠ some false := by
  induction splits generalizing ledger with
  | nil => cases listed
  | cons first rest ih =>
    intro plain
    rcases List.mem_cons.mp listed with rfl | later
    · exact changed?_mark within ((noted_markAll rest).unmarked plain)
    · exact ih later ((accountOf?_mark split).trans within) plain

/-- What a transaction is owed is paid by marking it, if it lists all of its splits. -/
theorem Noted.markTransaction (noted : before.Noted ∅ {owner} after)
    (listed : ∀ split, after.parentOf? split = some owner → split ∈ after.splitsOf owner) :
    before.Noted ∅ ∅ (after.markTransaction owner) := by
  have marks : after.Noted ∅ ∅ (after.markTransaction owner) := noted_markAll _
  have whole := noted.next marks
  have alike := after.markTransaction_alike owner
  exact {
    account := whole.account
    home := whole.home
    split := whole.split
    transaction := fun {id split parent} paid _ plain within named => by
      refine whole.transaction paid ?_ plain within named
      rintro rfl
      rw [alike.accountOf?] at within
      have was : after.parentOf? split = some parent :=
        (parentOf?_congr (alike.map_split? (·.parent) (fun _ => rfl) split)).symm.trans named
      exact changed?_markAll (listed split was) within plain }

/-! ## Single changes -/

theorem noted_entries (splits : after.splits = ledger.splits)
    (transactions : after.transactions = ledger.transactions)
    (accounts : after.accounts = ledger.accounts) : ledger.Noted ∅ ∅ after :=
  .of_bare (fun _ => .inl (by rw [account?, account?, accounts])) (fun _ => by rw [split?, split?, splits])
    fun _ => by rw [transaction?, transaction?, transactions]

theorem noted_recompute (account : AccountId) : ledger.Noted ∅ ∅ (ledger.recompute account) := by
  have alike := ledger.recompute_alike account
  refine .of_bare (fun _ => .inl ?_) alike.splits fun _ => ?_
  · rw [account?, account?, accounts_recompute]
  · rw [transaction?, transaction?, alike.transactions]

theorem noted_recompute? (account : Option AccountId) :
    ledger.Noted ∅ ∅ (ledger.recompute? account) := by
  cases account with
  | none => exact .refl ledger
  | some account => exact noted_recompute account

theorem noted_registered (account : AccountId) (split : SplitId) :
    ledger.Noted ∅ ∅ (ledger.registered account split) := noted_flag fun _ => rfl

theorem noted_leaveRegister (account : AccountId) (split : SplitId) :
    ledger.Noted ∅ ∅ (ledger.leaveRegister account split) := noted_flag fun _ => rfl

theorem noted_leaveAccount (split : SplitId) : ledger.Noted ∅ ∅ (ledger.leaveAccount split) := by
  unfold leaveAccount
  split
  · exact (noted_leaveRegister _ split).trans (noted_recompute _)
  · exact .refl ledger

/-- The account that a split leaves is flagged. -/
theorem changed?_leaveAccount (within : ledger.accountOf? split = some account) :
    (ledger.leaveAccount split).changed? account ≠ some false := by
  unfold leaveAccount
  rw [within]
  intro plain
  exact changed?_flag (fun _ => rfl) ((noted_recompute account).unmarked plain)

theorem noted_eraseSplit (split : SplitId) : ledger.Noted ∅ ∅ (ledger.eraseSplit split) := by
  have leaves : ledger.Noted ∅ ∅ (ledger.leaveAccount split) := noted_leaveAccount split
  refine .of_split split leaves.account (fun other different => ?_) (fun _ _ _ _ => ?_)
    (fun id within => changed?_leaveAccount within) fun id within => ?_
  · rw [split?_eraseSplit, if_neg different, bare_leaveAccount]
  · rw [transaction?, transaction?, transactions_eraseSplit]
  · rw [accountOf?, split?_eraseSplit, if_pos rfl] at within
    cases within

theorem noted_eraseSplits (splits : List SplitId) : ledger.Noted ∅ ∅
    (splits.foldl (fun ledger split => (ledger.mark split).eraseSplit split) ledger) := by
  induction splits generalizing ledger with
  | nil => exact .refl ledger
  | cons split rest ih => exact ((noted_mark split).trans (noted_eraseSplit split)).trans ih

/-- A split that changes and stays in its account is owed a flag. -/
theorem Noted.modifySplit {change : Split α → Split α}
    (noted : before.Noted {split} transactions ledger)
    (keeps : ∀ entry, (change entry).account = entry.account) :
    before.Noted {split} transactions (ledger.modifySplit split change) := by
  have home (id : SplitId) :
      (ledger.modifySplit split change).accountOf? id = ledger.accountOf? id :=
    accountOf?_congr (Table.map_get?_modify ledger.splits split change Split.account keeps id)
  have others {id : SplitId} (other : id ∉ ({split} : Set SplitId)) :
      (ledger.modifySplit split change).split? id = ledger.split? id :=
    (split?_modifySplit ..).trans (if_neg other)
  exact {
    account := noted.account
    home := fun plain => (home _).symm ▸ noted.home plain
    split := fun {id split} other plain within => by
      rw [others other]
      exact noted.split other plain ((home _).symm.trans within)
    transaction := fun {id split parent} other known plain within named => by
      refine noted.transaction other known plain ((home _).symm.trans within) ?_
      rwa [parentOf?, others other] at named }

/-- A transaction that changes is owed a flag. -/
theorem Noted.modifyTransaction {change : Transaction → Transaction}
    (noted : before.Noted splits {owner} ledger) :
    before.Noted splits {owner} (ledger.modifyTransaction owner change) where
  account := noted.account
  home := noted.home
  split := noted.split
  transaction paid known plain within named := by
    rw [transaction?_modifyTransaction, if_neg (by exact known)]
    exact noted.transaction paid known plain within named

/-- The list of a transaction and its session are no business of accounts. -/
theorem noted_modifyTransaction {change : Transaction → Transaction}
    (keeps : ∀ transaction, (change transaction).bare = transaction.bare) (owner : TransactionId) :
    ledger.Noted ∅ ∅ (ledger.modifyTransaction owner change) :=
  .of_bare (fun _ => .inl rfl) (fun _ => rfl)
    (Table.map_get?_modify ledger.transactions owner change Transaction.bare keeps)

end Ledger

end DoubleEntry
