import DoubleEntry.Proofs.Narrowing
import DoubleEntry.Proofs.Reachable

/-! # References that lead somewhere

A ledger resolves if every split that a transaction lists exists, and so does every transaction and every
account that a split names. Then a question about splits and transactions that exist has no answer that
tells of damage or of something missing: whatever else can be wrong is a reason that a caller is to expect.
No identifier has to be new for that.
-/

namespace DoubleEntry

/-- The faults that tell of damage or of something missing. -/
def Fault.isInternal : Fault → Bool
  | .damaged _ | .missing _ => true
  | _ => false

/-- An answer that tells of no damage and of nothing missing. -/
def Ordinary {β : Type} (answer : Except Fault β) : Prop :=
  ∀ fault, answer = .error fault → fault.isInternal = false

section Answers

variable {β γ : Type} {answer : Except Fault β} {next : β → Except Fault γ}

theorem ordinary_ok {value : β} : Ordinary (.ok value : Except Fault β) := nofun

theorem ordinary_error {fault : Fault} (expected : fault.isInternal = false) :
    Ordinary (.error fault : Except Fault β) := fun _ same => Except.error.inj same ▸ expected

theorem Ordinary.bind (first : Ordinary answer)
    (second : ∀ value, answer = .ok value → Ordinary (next value)) : Ordinary (answer >>= next) := by
  cases answered : answer with
  | error fault => exact ordinary_error (first fault answered)
  | ok value => exact second value answered

end Answers

namespace Ledger

variable {α J : Type}

/-- No reference leads nowhere. -/
structure Resolves (ledger : Ledger α J) : Prop where
  lists : ∀ {id transaction}, ledger.transaction? id = some transaction →
    ∀ split ∈ transaction.splits, (ledger.split? split).isSome
  parents : ∀ {split owner}, ledger.parentOf? split = some owner → (ledger.transaction? owner).isSome
  homes : ∀ {split account}, ledger.accountOf? split = some account → (ledger.account? account).isSome

variable {ledger other : Ledger α J} {id : SplitId} {owner : TransactionId} {split : Split α}
  {base : Option Commodity}

/-! ## Ordinary answers -/

section Questions

variable {trigger : SplitId} {start : AccountId × Account} {candidate : Candidate}

theorem ordinary_split (live : (ledger.split? id).isSome) : Ordinary (ledger.split id) := by
  obtain ⟨entry, isSplit⟩ := Option.isSome_iff_exists.mp live
  rw [split_eq_ok_iff.mpr isSplit]
  exact ordinary_ok

theorem ordinary_transaction (live : (ledger.transaction? owner).isSome) :
    Ordinary (ledger.transaction owner) := by
  obtain ⟨transaction, found⟩ := Option.isSome_iff_exists.mp live
  rw [transaction_eq_ok_iff.mpr found]
  exact ordinary_ok

theorem ordinary_account {account : AccountId} (live : (ledger.account? account).isSome) :
    Ordinary (ledger.account account) := by
  obtain ⟨holder, held⟩ := Option.isSome_iff_exists.mp live
  rw [account_eq_ok_iff.mpr held]
  exact ordinary_ok

theorem ordinary_checkOpen (live : (ledger.transaction? owner).isSome) :
    Ordinary (ledger.checkOpen owner) := by
  refine (ordinary_transaction live).bind fun transaction _ => ?_
  split
  · exact ordinary_ok
  · exact ordinary_error rfl

namespace Resolves

variable (resolves : ledger.Resolves)

include resolves

theorem checkEditable (live : (ledger.split? id).isSome) : Ordinary (ledger.checkEditable id) := by
  refine (ordinary_split live).bind fun entry isSplit => ?_
  cases parent : entry.parent with
  | none => exact ordinary_ok
  | some owner =>
    have named : ledger.parentOf? id = some owner := by
      rw [parentOf?, split_eq_ok_iff.mp isSplit, Option.bind_some, parent]
    exact ordinary_checkOpen (resolves.parents named)

theorem accountOf (isSplit : ledger.split? id = some split) : Ordinary (ledger.accountOf id split) := by
  unfold Ledger.accountOf
  cases within : split.account with
  | none => exact ordinary_ok
  | some account =>
    have live := resolves.homes ((accountOf?_eq isSplit).trans within)
    obtain ⟨holder, held⟩ := Option.isSome_iff_exists.mp live
    simp only [held]
    exact ordinary_ok

theorem valuation (isSplit : ledger.split? id = some split) :
    Ordinary (ledger.valuation id split base) := by
  refine (resolves.accountOf isSplit).bind fun place _ => ?_
  cases place with
  | some _ => exact ordinary_ok
  | none =>
    dsimp only
    split
    · exact ordinary_error rfl
    · exact ordinary_ok

theorem narrowBy {splits : List SplitId} (live : ∀ entry ∈ splits, (ledger.split? entry).isSome)
    (candidate : Candidate) : Ordinary (ledger.narrowBy start candidate splits) := by
  induction splits generalizing candidate with
  | nil => exact ordinary_ok
  | cons entry rest ih =>
    have later := ih fun other inside => live other (List.mem_cons_of_mem entry inside)
    refine (ordinary_split (live entry List.mem_cons_self)).bind fun split isSplit =>
      (resolves.accountOf (split_eq_ok_iff.mp isSplit)).bind fun place _ => ?_
    cases place with
    | none =>
      dsimp only
      split
      · exact ordinary_error rfl
      · exact later _
    | some place =>
      dsimp only
      split
      · exact ordinary_error rfl
      · exact later _

theorem commonCommodity (known : (ledger.transaction? owner).isSome)
    (live : (ledger.split? trigger).isSome) : Ordinary (ledger.commonCommodity owner trigger) := by
  refine (ordinary_transaction known).bind fun transaction found => (ordinary_split live).bind
    fun split isSplit => (resolves.accountOf (split_eq_ok_iff.mp isSplit)).bind fun place _ => ?_
  cases place with
  | none =>
    dsimp only
    split
    · exact ordinary_error rfl
    · exact ordinary_ok
  | some place =>
    exact (resolves.narrowBy (resolves.lists (transaction_eq_ok_iff.mp found)) _).bind fun _ _ =>
      ordinary_ok

variable [Scalar α]

/-- The only damage that a sum can tell of is a split that is not expressed in the commodity. -/
theorem addWorths {splits : List SplitId} {sum : α} {fault : Fault}
    (live : ∀ entry ∈ splits, (ledger.split? entry).isSome)
    (failed : ledger.addWorths owner base sum splits = .error fault) :
    fault.isInternal = false ∨ ∃ entry ∈ splits, ∃ split, ledger.split? entry = some split ∧
      ledger.valuation entry split base = .ok .inexpressible ∧
        fault = .damaged (.cannotBeValued entry owner base) := by
  induction splits generalizing sum with
  | nil => cases failed
  | cons entry rest ih =>
    obtain ⟨split, isSplit⟩ := Option.isSome_iff_exists.mp (live entry List.mem_cons_self)
    rw [Ledger.addWorths, split_eq_ok_iff.mpr isSplit, ok_bind] at failed
    cases valued : ledger.valuation entry split base with
    | error other =>
      rw [valued, error_bind] at failed
      obtain rfl := Except.error.inj failed
      exact .inl (resolves.valuation isSplit other valued)
    | ok valuation =>
      rw [valued, ok_bind] at failed
      cases valuation with
      | inexpressible =>
        exact .inr ⟨entry, List.mem_cons_self, split, isSplit, valued, (Except.error.inj failed).symm⟩
      | priced | shares =>
        refine (ih (fun other inside => live other (List.mem_cons_of_mem entry inside)) failed).imp id ?_
        rintro ⟨other, inside, found⟩
        exact ⟨other, List.mem_cons_of_mem entry inside, found⟩

/-- A sum in the common commodity of a transaction tells of no damage. -/
theorem transactionValue {skip : Option SplitId} (known : (ledger.transaction? owner).isSome)
    (common : ledger.commonCommodity owner trigger = .ok base) :
    Ordinary (ledger.transactionValue owner skip base) := by
  refine (ordinary_transaction known).bind fun transaction found fault failed => ?_
  rw [transaction_eq_ok_iff] at found
  have inside {entry : SplitId} (kept : entry ∈ transaction.splits.filter fun entry => skip ≠ some entry) :
      entry ∈ transaction.splits := List.mem_of_mem_filter kept
  rcases resolves.addWorths (fun entry kept => resolves.lists found entry (inside kept)) failed with
    expected | ⟨entry, kept, split, isSplit, valued, -⟩
  · exact expected
  · exact absurd rfl (expressible_of_commonCommodity found common (inside kept) isSplit valued)

theorem imbalance (known : (ledger.transaction? owner).isSome) : Ordinary (ledger.imbalance owner) := by
  refine (ordinary_transaction known).bind fun transaction found => ?_
  cases isSource : transaction.source? with
  | none => exact ordinary_ok
  | some source =>
    have live := resolves.lists (transaction_eq_ok_iff.mp found) source (List.mem_of_mem_head? isSource)
    exact (resolves.commonCommodity known live).bind fun _ common => resolves.transactionValue known common

theorem isBalanced (known : (ledger.transaction? owner).isSome) : Ordinary (ledger.isBalanced owner) :=
  (resolves.imbalance known).bind fun _ _ => ordinary_ok

end Resolves

end Questions

/-! ## What keeps references -/

theorem isSome_split?_of_ownership (same : other.ownership = ledger.ownership) (id : SplitId) :
    (other.split? id).isSome = (ledger.split? id).isSome := by
  have named := congrArg Option.isSome (congrFun (congrArg Links.named same) id)
  simpa [Ledger.ownership] using named

theorem isSome_transaction?_of_ownership (same : other.ownership = ledger.ownership)
    (id : TransactionId) : (other.transaction? id).isSome = (ledger.transaction? id).isSome := by
  have listed := congrArg Option.isSome (congrFun (congrArg Links.listed same) id)
  simpa [Ledger.ownership] using listed

/-- A ledger that resolves and has lost nothing since. -/
structure Intact (before ledger : Ledger α J) : Prop extends ledger.Resolves where
  split : ∀ {id}, (before.split? id).isSome → (ledger.split? id).isSome
  transaction : ∀ {id}, (before.transaction? id).isSome → (ledger.transaction? id).isSome

theorem Resolves.intact (resolves : ledger.Resolves) : ledger.Intact ledger :=
  ⟨resolves, fun was => was, fun was => was⟩

namespace Intact

variable {before : Ledger α J} (intact : before.Intact ledger)

include intact

/-- References are links. -/
theorem linked (ownership : other.ownership = ledger.ownership)
    (membership : other.membership = ledger.membership) : before.Intact other := by
  have live := isSome_split?_of_ownership ownership
  have known := isSome_transaction?_of_ownership ownership
  have held (id : AccountId) : (other.account? id).isSome = (ledger.account? id).isSome := by
    have same := congrArg Option.isSome (congrFun (congrArg Links.listed membership) id)
    simpa [Ledger.membership] using same
  refine ⟨⟨fun {id transaction} found split inside => ?_, fun {split owner} named => ?_,
    fun {split account} within => ?_⟩, fun was => live _ ▸ intact.split was,
    fun was => known _ ▸ intact.transaction was⟩
  · have same := congrFun (congrArg Links.listed ownership) id
    simp only [Ledger.ownership, found, Option.map_some] at same
    obtain ⟨again, isOwner, lists⟩ := Option.map_eq_some_iff.mp same.symm
    rw [live]
    refine intact.lists isOwner split ?_
    rw [← Multiset.mem_coe, lists]
    exact inside
  · rw [known]
    exact intact.parents (parentOf?_eq_some_iff.mpr (ownership ▸ parentOf?_eq_some_iff.mp named))
  · rw [held]
    exact intact.homes (account_eq_iff.mp (membership ▸ account_eq_iff.mpr within))

theorem insertSplit {entry : Split α} (minted : Nat)
    (parent : ∀ owner, entry.parent = some owner → (ledger.transaction? owner).isSome)
    (account : ∀ home, entry.account = some home → (ledger.account? home).isSome) :
    before.Intact { ledger with splits := ledger.splits.insert id entry, minted } := by
  have inserted (split : SplitId) : { ledger with splits := ledger.splits.insert id entry, minted }.split?
      split = if split = id then some entry else ledger.split? split := Table.get?_insert ..
  have stays {split : SplitId} (live : (ledger.split? split).isSome) :
      ({ ledger with splits := ledger.splits.insert id entry, minted }.split? split).isSome := by
    rw [inserted]
    split
    · rfl
    · exact live
  refine ⟨⟨fun found other inside => stays (intact.lists found other inside),
    fun {split owner} named => ?_, fun {split home} within => ?_⟩, fun was => stays (intact.split was),
    intact.transaction⟩
  · obtain ⟨found, isSplit, named⟩ := Option.bind_eq_some_iff.mp named
    rw [inserted] at isSplit
    split at isSplit
    · obtain rfl := Option.some.inj isSplit
      exact parent owner named
    · exact intact.parents (by rw [parentOf?, isSplit, Option.bind_some, named])
  · obtain ⟨found, isSplit, within⟩ := Option.bind_eq_some_iff.mp within
    rw [inserted] at isSplit
    split at isSplit
    · obtain rfl := Option.some.inj isSplit
      exact account home within
    · exact intact.homes (by rw [accountOf?, isSplit, Option.bind_some, within])

theorem setParent (id : SplitId) {parent : Option TransactionId}
    (known : ∀ owner, parent = some owner → (ledger.transaction? owner).isSome) :
    before.Intact (ledger.modifySplit id fun s => { s with parent }) := by
  have stays (split : SplitId) : ((ledger.modifySplit id fun s => { s with parent }).split? split).isSome =
      (ledger.split? split).isSome := isSome_split?_modifySplit ..
  refine ⟨⟨fun found other inside => (stays other).trans (intact.lists found other inside),
    fun {split owner} named => ?_, fun {split account} within => ?_⟩,
    fun was => (stays _).trans (intact.split was), intact.transaction⟩
  · obtain ⟨entry, isSplit, named⟩ := Option.bind_eq_some_iff.mp named
    rw [split?_modifySplit] at isSplit
    split at isSplit
    · obtain ⟨_, -, rfl⟩ := Option.map_eq_some_iff.mp isSplit
      exact known owner named
    · exact intact.parents (by rw [parentOf?, isSplit, Option.bind_some, named])
  · have same := Table.map_get?_modify ledger.splits id (fun s => { s with parent }) Split.account
      (fun _ => rfl) split
    exact intact.homes ((accountOf?_congr same).symm.trans within)

theorem modifyTransaction {change : Transaction → Transaction}
    (lists : ∀ transaction, ledger.transaction? owner = some transaction →
      ∀ split ∈ (change transaction).splits, (ledger.split? split).isSome) :
    before.Intact (ledger.modifyTransaction owner change) := by
  have stays (id : TransactionId) : ((ledger.modifyTransaction owner change).transaction? id).isSome =
      (ledger.transaction? id).isSome := isSome_transaction?_modifyTransaction ..
  refine ⟨⟨fun {id transaction} found split inside => ?_,
    fun named => (stays _).trans (intact.parents named), intact.homes⟩, intact.split,
    fun was => (stays _).trans (intact.transaction was)⟩
  change (ledger.split? split).isSome
  rw [transaction?_modifyTransaction] at found
  split at found
  · obtain ⟨_, isOwner, rfl⟩ := Option.map_eq_some_iff.mp found
    exact lists _ isOwner split inside
  · exact intact.lists found split inside

theorem push (owner : TransactionId) (live : (ledger.split? id).isSome) :
    before.Intact (ledger.modifyTransaction owner (·.push id)) := by
  refine intact.modifyTransaction fun transaction found split inside => ?_
  rcases List.mem_append.mp inside with before | last
  · exact intact.lists found split before
  · rwa [List.mem_singleton.mp last]

theorem drop (owner : TransactionId) (id : SplitId) :
    before.Intact (ledger.modifyTransaction owner (·.drop id)) :=
  intact.modifyTransaction fun _ found split inside =>
    intact.lists found split (List.mem_of_mem_filter inside)

/-- Accounts that change remain. -/
theorem modifyAccount (account : AccountId) (change : Account → Account) :
    before.Intact { ledger with accounts := ledger.accounts.modify account change } := by
  refine ⟨⟨intact.lists, intact.parents, fun {split home} within => ?_⟩, intact.split,
    intact.transaction⟩
  have live : (ledger.account? home).isSome := intact.homes within
  simp only [account?, Table.get?_modify] at live ⊢
  split
  · subst_vars
    rw [Option.isSome_map]
    exact live
  · exact live

end Intact

end Ledger

end DoubleEntry
