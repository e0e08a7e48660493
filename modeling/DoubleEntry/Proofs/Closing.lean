import DoubleEntry.Proofs.Ownership
import DoubleEntry.Proofs.Shelving

/-! # Closing a transaction

Before a transaction is closed its splits go back to their places, one after another, and the accounts that
they are in are recomputed. Each split is compared with its two neighbours only, and finds its place by
halving; so a register is in order again if the split was the only one in it that may have been out of
order.
-/

namespace DoubleEntry

open Register

/-- A split that goes back to its place does so in one register. -/
theorem Book.register_restoreOrder {α : Type} (book : Book) (postings : Postings α)
    (account : AccountId) (split : SplitId) (other : AccountId) :
    ((book.restoreOrder postings account split).get? other).map (·.register) =
      (book.get? other).map fun holder =>
        if other = account then restored postings.compare holder.register split else holder.register := by
  rw [Book.restoreOrder]
  by_cases here : other = account
  · subst here
    cases held : book.get? other with
    | none => simp [isMisplaced, held]
    | some holder =>
      have misplaced : book.isMisplaced postings other split =
          (holder.register.idxOf? split).any fun index =>
            !isInPlace postings.compare holder.register index split := by
        rw [isMisplaced, held, Option.any_some]
      rw [misplaced, Option.map_some, if_pos rfl, restored]
      cases holder.register.idxOf? split with
      | none => simp [held]
      | some index =>
        cases inPlace : isInPlace postings.compare holder.register index split <;>
          simp [inPlace, held, insertSplit, Table.get?_modify]
  · simp only [if_neg here]
    split
    · rw [insertSplit, Table.get?_modify, if_neg here]
    · rfl

namespace Ledger

variable {α J : Type} [Scalar α] {ledger : Ledger α J} {aspect : Aspect} {moving : Option SplitId}
  {id split : SplitId} {account : AccountId} {owner : TransactionId} {splits : List SplitId}

/-! ## Back to their places -/

/-- The ledger once a split went back to its place if it had left it. -/
def returned (split : SplitId) (ledger : Ledger α J) : Ledger α J :=
  match ledger.accountOf? split with
  | none => ledger
  | some account =>
    { ledger with accounts := ledger.accounts.restoreOrder ledger.postings account split }

omit [Scalar α] in
theorem restoreOrder_eq : ledger.restoreOrder splits = splits.foldl (fun ledger split =>
    ledger.returned split) ledger := rfl

omit [Scalar α] in
theorem returned_eq (ledger : Ledger α J) (split : SplitId) : ledger.returned split = ledger ∨
    ∃ account, ledger.accountOf? split = some account ∧
      ledger.returned split = ledger.registered account split := by
  unfold returned
  cases within : ledger.accountOf? split with
  | none => exact .inl rfl
  | some account =>
    dsimp only [Book.restoreOrder]
    split
    · exact .inr ⟨account, rfl, rfl⟩
    · exact .inl rfl

omit [Scalar α] in
/-- Only registers change. -/
theorem entries_returned (ledger : Ledger α J) (split : SplitId) :
    (ledger.returned split).splits = ledger.splits ∧
      (ledger.returned split).transactions = ledger.transactions := by
  rcases ledger.returned_eq split with same | ⟨account, _, same⟩ <;> rw [same] <;> exact ⟨rfl, rfl⟩

omit [Scalar α] in
/-- A split goes back to its place in the register of its account alone. -/
theorem register_returned (ledger : Ledger α J) (split : SplitId) (account : AccountId) :
    ((ledger.returned split).account? account).map (·.register) =
      (ledger.account? account).map fun holder =>
        if ledger.accountOf? split = some account then restored ledger.postings.compare holder.register split
        else holder.register := by
  unfold returned
  cases within : ledger.accountOf? split with
  | none => simp
  | some home =>
    refine (Book.register_restoreOrder ledger.accounts ledger.postings home split account).trans ?_
    simp only [Option.some.injEq, eq_comm, account?]

omit [Scalar α] in
/-- The splits of an account that go back to their places do so one after another. -/
theorem register_restoreOrder (splits : List SplitId) (ledger : Ledger α J) (account : AccountId) :
    ((ledger.restoreOrder splits).account? account).map (·.register) =
      (ledger.account? account).map fun holder =>
        (splits.filter (ledger.accountOf? · = some account)).foldl
          (restored ledger.postings.compare) holder.register := by
  induction splits generalizing ledger with
  | nil => rfl
  | cons first rest ih =>
    have entries := ledger.entries_returned first
    have postings : (ledger.returned first).postings = ledger.postings := by
      rw [Ledger.postings, entries.1, entries.2, Ledger.postings]
    have within : (ledger.returned first).accountOf? = ledger.accountOf? := by
      funext id
      rw [accountOf?, split?, entries.1, accountOf?, split?]
    have once := ledger.register_returned first account
    have onward := congrArg (Option.map ((rest.filter (ledger.accountOf? · = some account)).foldl
      (restored ledger.postings.compare))) once
    rw [Option.map_map, Option.map_map] at onward
    rw [restoreOrder_eq, List.foldl_cons, ← restoreOrder_eq, ih, postings, within]
    refine onward.trans (congrArg (Option.map · _) (funext fun holder => ?_))
    by_cases here : ledger.accountOf? first = some account <;> simp [here]

omit [Scalar α] in
theorem entries_restoreOrder (ledger : Ledger α J) (splits : List SplitId) :
    (ledger.restoreOrder splits).splits = ledger.splits ∧
      (ledger.restoreOrder splits).transactions = ledger.transactions := by
  induction splits generalizing ledger with
  | nil => exact ⟨rfl, rfl⟩
  | cons first rest ih =>
    have once := ledger.entries_returned first
    have onward := ih (ledger.returned first)
    exact ⟨onward.1.trans once.1, onward.2.trans once.2⟩

/-- Loose splits go back to their places and no account has to be recomputed. -/
theorem Tidy.restoreOrder (tidy : ledger.Tidy aspect moving none)
    (disturb : ∀ split ∈ splits, ledger.mayDisturb moving split = true) :
    (ledger.restoreOrder splits).Tidy aspect moving none := by
  induction splits generalizing ledger with
  | nil => exact tidy
  | cons first rest ih =>
    have entries := ledger.entries_returned first
    rw [restoreOrder_eq, List.foldl_cons, ← restoreOrder_eq]
    refine ih ?_ fun split later => ?_
    · rcases ledger.returned_eq first with same | ⟨account, within, same⟩ <;> rw [same]
      · exact tidy
      · exact (tidy.weaken _).registered_loose within (disturb first List.mem_cons_self)
    · have same : (ledger.returned first).mayDisturb moving split = ledger.mayDisturb moving split :=
        mayDisturb_congr (by rw [parentOf?, split?, entries.1, parentOf?, split?]) fun owner _ => by
          rw [transaction?, entries.2, transaction?]
      exact same.trans (disturb split (List.mem_cons_of_mem first later))

/-! ## Recomputed -/

theorem recomputeAll_alike (ledger : Ledger α J) (splits : List SplitId) :
    ledger.Alike (ledger.recomputeAll splits) := by
  unfold Ledger.recomputeAll
  induction (splits.filterMap ledger.accountOf?).eraseDups generalizing ledger with
  | nil => exact .refl ledger
  | cons first rest ih => exact (ledger.recompute_alike first).trans (ih _)

/-- Splits stay in their transactions while registers are put in order and accounts recomputed. -/
theorem parentOf?_restoreOrder_recomputeAll (ledger : Ledger α J) (splits : List SplitId) (id : SplitId) :
    ((ledger.restoreOrder splits).recomputeAll splits).parentOf? id = ledger.parentOf? id := by
  have alike := (ledger.restoreOrder splits).recomputeAll_alike splits
  refine parentOf?_congr ((alike.map_split? (·.parent) (fun _ => rfl) id).trans ?_)
  rw [split?, (ledger.entries_restoreOrder splits).1, split?]

theorem Tidy.recomputeAll (tidy : ledger.Tidy aspect moving none) :
    (ledger.recomputeAll splits).Tidy aspect moving none := by
  unfold Ledger.recomputeAll
  induction (splits.filterMap ledger.accountOf?).eraseDups generalizing ledger with
  | nil => exact tidy
  | cons first rest ih => exact ih (tidy.weaken (some first)).recompute

/-- A register that is current stays so while accounts are recomputed, and becomes so when its own is. -/
theorem Shelved.isCurrent_recompute_all {accounts : List AccountId} {holder : Account}
    (shelved : ledger.Shelved) (held : ledger.account? account = some holder)
    (current : account ∈ accounts ∨ ledger.IsCurrent holder.register) :
    (accounts.foldl (fun ledger account => ledger.recompute account) ledger).IsCurrent
      holder.register := by
  induction accounts generalizing ledger holder with
  | nil => exact current.resolve_left nofun
  | cons first rest ih =>
    have still := (ledger.recompute_alike first).still
    have same := still.registers account
    rw [held, Option.map_some] at same
    obtain ⟨after, again, same⟩ := Option.map_eq_some_iff.mp same
    have onward := ih (shelved.still still) again
    rw [same] at onward
    refine onward ?_
    by_cases here : first = account
    · exact .inr (shelved.isCurrent_recompute held fun elsewhere => absurd here elsewhere)
    · rcases current with listed | current
      · exact .inl ((List.mem_cons.mp listed).resolve_left (Ne.symm here))
      · exact .inr (shelved.isCurrent_recompute held fun _ => current)

/-! ## Closed -/

/-- What is promised of a register without loose splits. -/
def ShowsAll (ledger : Ledger α J) (aspect : Aspect) (register : List SplitId) : Prop :=
  match aspect with
  | .order => InOrder ledger.postings.compare register
  | .balances => ledger.IsCurrent register

/-- The ledger once a transaction is closed. -/
def closed (owner : TransactionId) (ledger : Ledger α J) : Ledger α J :=
  ledger.modifyTransaction owner fun t => { t with edit := .closed }

omit [Scalar α] in
theorem heading?_closed (id : SplitId) :
    (ledger.closed owner).postings.heading? id = ledger.postings.heading? id := by
  have kept (other : TransactionId) :
      ((ledger.closed owner).transaction? other).map Transaction.heading =
        (ledger.transaction? other).map Transaction.heading :=
    Table.map_get?_modify ledger.transactions owner (fun t => { t with edit := .closed })
      Transaction.heading (fun _ => rfl) other
  rw [heading?_eq, heading?_eq]
  refine congrArg (Option.map · (ledger.split? id)) (funext fun split => ?_)
  cases split.parent with
  | none => rfl
  | some other => rw [Option.bind_some, Option.bind_some, kept]

/-- A transaction may be closed when the registers of its splits show all that is promised. -/
theorem Tidy.closed (tidy : ledger.Tidy aspect none none)
    (shown : ∀ {account holder}, ledger.account? account = some holder →
      (∃ id ∈ holder.register, ledger.parentOf? id = some owner) →
        ledger.ShowsAll aspect holder.register) :
    (ledger.closed owner).Tidy aspect none none where
  toShelved := tidy.toShelved.still ⟨le_rfl, fun _ => .inl, fun _ => rfl, fun _ _ => rfl⟩
  shows {account holder} held := by
    have held : ledger.account? account = some holder := held
    by_cases member : ∃ id ∈ holder.register, ledger.parentOf? id = some owner
    · have all := shown held member
      cases aspect with
      | order =>
        refine List.Pairwise.filter _ (List.Pairwise.imp (fun inOrder => ?_) all)
        rwa [Postings.compare_congr (heading?_closed _) (heading?_closed _)]
      | balances => exact fun _ _ => all
    · refine (tidy.shows held).steady fun id inside settled => ?_
      have owned (other : TransactionId) (parent : ledger.parentOf? id = some other) :
          ((ledger.closed owner).transaction? other).map (·.standing) =
            (ledger.transaction? other).map (·.standing) := by
        rw [Ledger.closed, transaction?_modifyTransaction, if_neg]
        rintro rfl
        exact member ⟨id, inside, parent⟩
      have same : (ledger.closed owner).mayDisturb none id = ledger.mayDisturb none id :=
        mayDisturb_congr rfl owned
      exact ⟨same ▸ settled, same_of_entry rfl owned⟩

/-- No register lists a closed split of the transaction beside another of its splits or a loose one. -/
def StandsAlone (ledger : Ledger α J) (owner : TransactionId) : Prop :=
  ∀ account holder, ledger.account? account = some holder →
    ∀ id ∈ holder.register, ledger.parentOf? id = some owner → ledger.isLoose id = false →
      ∀ other ∈ holder.register, ledger.parentOf? other = some owner ∨ ledger.isLoose other = true →
        other = id

instance : Decidable (ledger.StandsAlone owner) :=
  decidable_of_iff _ (Table.forall_get?_iff ledger.accounts _).symm

omit [Scalar α] in
theorem isLoose_of_parent {transaction : Transaction} (parent : ledger.parentOf? id = some owner)
    (found : ledger.transaction? owner = some transaction) (isOpen : transaction.edit.isOpen = true) :
    ledger.isLoose id = true := by
  simp [isLoose, parent, found, isOpen]

omit [Scalar α] in
/-- The splits of an open transaction are loose. -/
theorem loose_of_open {transaction : Transaction} (owned : ledger.Owned)
    (found : ledger.transaction? owner = some transaction) (isOpen : transaction.edit.isOpen = true)
    (inside : id ∈ transaction.splits) : ledger.isLoose id = true :=
  isLoose_of_parent (parentOf?_eq_some_iff.mpr ((owned.mem_iff found).mp inside)) found isOpen

section Session

variable {transaction : Transaction} {holder : Account} (owned : ledger.Owned)
  (found : ledger.transaction? owner = some transaction)

include owned found

/-- A register is in order once the one split in it that may have been out of order went back to its
place. -/
theorem inOrder_restoreOrder (tidy : ledger.Tidy .order none none)
    (isOpen : transaction.edit.isOpen = true)
    (held : ledger.account? account = some holder) (listed : id ∈ holder.register)
    (parent : ledger.parentOf? id = some owner)
    (alone : ∀ other ∈ holder.register, ledger.isLoose other = true → other = id) :
    InOrder ledger.postings.compare ((transaction.splits.filter (ledger.accountOf? · = some account)).foldl
      (restored ledger.postings.compare) holder.register) := by
  have settled (other) (inside : other ∈ holder.register) (different : other ≠ id) :
      ledger.mayDisturb none other = false := by
    by_contra loose
    exact different (alone other inside (by simpa [mayDisturb] using loose))
  have others : holder.register.filter (· ≠ id) =
      (holder.register.filter fun other => !ledger.mayDisturb none other).filter (· ≠ id) := by
    rw [List.filter_filter]
    refine List.filter_congr fun other inside => ?_
    by_cases different : other = id
    · simp [different]
    · simp [different, settled other inside different]
  refine .restored_all (tidy.nodup held) (others ▸ List.Pairwise.filter _ (tidy.shows held)) listed ?_ ?_
  · intro other returning inside
    exact alone other inside (loose_of_open owned found isOpen (List.mem_of_mem_filter returning))
  · rw [List.mem_filter, decide_eq_true_eq]
    exact ⟨(owned.mem_iff found).mpr (parentOf?_eq_some_iff.mp parent), tidy.named held listed⟩

/-- The registers of a transaction show all that is promised once its splits went back to their places and
its accounts were recomputed. -/
theorem Tidy.session (tidy : ledger.Tidy aspect none none) (isOpen : transaction.edit.isOpen = true)
    (alone : aspect = .order → ∀ {account holder}, ledger.account? account = some holder →
      ∀ id ∈ holder.register, ledger.parentOf? id = some owner →
        ∀ other ∈ holder.register, ledger.isLoose other = true → other = id) :
    (((ledger.restoreOrder transaction.splits).recomputeAll transaction.splits).closed owner).Tidy
      aspect none none := by
  have loose (id) (inside : id ∈ transaction.splits) : ledger.isLoose id = true :=
    loose_of_open owned found isOpen inside
  have restored : (ledger.restoreOrder transaction.splits).Tidy aspect none none :=
    tidy.restoreOrder fun id inside => by simp [mayDisturb, loose id inside]
  have entries := ledger.entries_restoreOrder transaction.splits
  have alike := (ledger.restoreOrder transaction.splits).recomputeAll_alike transaction.splits
  -- Until here the splits that went back are loose, so tidiness alone says nothing about their registers.
  refine (restored.recomputeAll).closed fun {account last} held member => ?_
  obtain ⟨id, inside, parent⟩ := member
  obtain ⟨middle, held, same⟩ := holder_of_registers (alike.still.registers account) held
  rw [← same] at inside ⊢
  rw [parentOf?_restoreOrder_recomputeAll] at parent
  have returns : id ∈ transaction.splits :=
    (owned.mem_iff found).mpr (parentOf?_eq_some_iff.mp parent)
  cases aspect with
  | order =>
    have register := register_restoreOrder transaction.splits ledger account
    rw [held, Option.map_some] at register
    obtain ⟨holder, was, register⟩ := Option.map_eq_some_iff.mp register.symm
    rw [← register] at inside ⊢
    have listed : id ∈ holder.register := mem_restored_all.mp inside
    have sorted := inOrder_restoreOrder owned found tidy isOpen was listed parent
      (alone rfl was id listed parent)
    refine List.Pairwise.imp (fun inOrder => ?_) sorted
    rw [Postings.compare_congr (alike.heading? _) (alike.heading? _)]
    rwa [postings, entries.1, entries.2]
  | balances =>
    refine restored.toShelved.isCurrent_recompute_all held (.inl ?_)
    rw [List.mem_eraseDups, List.mem_filterMap]
    exact ⟨id, returns, restored.named held inside⟩

omit owned in
/-- What stands alone once the transaction is closed was the only loose split in its register before. -/
theorem StandsAlone.before_close
    (alone : (((ledger.restoreOrder transaction.splits).recomputeAll transaction.splits).closed
      owner).StandsAlone owner) (held : ledger.account? account = some holder)
    (listed : id ∈ holder.register) (parent : ledger.parentOf? id = some owner) {other : SplitId}
    (beside : other ∈ holder.register) (loose : ledger.isLoose other = true) : other = id := by
  have entries := ledger.entries_restoreOrder transaction.splits
  have alike := (ledger.restoreOrder transaction.splits).recomputeAll_alike transaction.splits
  have isParent (id : SplitId) :
      (((ledger.restoreOrder transaction.splits).recomputeAll transaction.splits).closed owner).parentOf? id =
        ledger.parentOf? id := ledger.parentOf?_restoreOrder_recomputeAll transaction.splits id
  have isOwner (other : TransactionId) :
      (((ledger.restoreOrder transaction.splits).recomputeAll transaction.splits).closed
        owner).transaction? other = if other = owner then
          some { transaction with edit := .closed } else ledger.transaction? other := by
    rw [closed, transaction?_modifyTransaction, transaction?, alike.transactions, entries.2,
      transaction?, alike.transactions, entries.2]
    split
    · exact congrArg (Option.map _) found
    · rfl
  obtain ⟨last, held, same⟩ : ∃ last,
      (((ledger.restoreOrder transaction.splits).recomputeAll transaction.splits).closed owner).account?
        account = some last ∧ ∀ id, id ∈ last.register ↔ id ∈ holder.register := by
    have register := (alike.still.registers account).trans
      (register_restoreOrder transaction.splits ledger account)
    rw [held, Option.map_some] at register
    obtain ⟨last, held, same⟩ := Option.map_eq_some_iff.mp register
    exact ⟨last, held, fun id => by rw [same, mem_restored_all]⟩
  refine alone account last held id ((same id).mpr listed) ((isParent id).trans parent) ?_ other
    ((same other).mpr beside) ?_
  · simp [isLoose, isParent, parent, isOwner, EditState.isOpen]
  · cases home : ledger.parentOf? other with
    | none => simp [isLoose, home] at loose
    | some another =>
      by_cases same : another = owner
      · exact .inl ((isParent other).trans (same ▸ home))
      · right
        simpa [isLoose, isParent, home, isOwner, same] using loose

end Session

end Ledger

end DoubleEntry
