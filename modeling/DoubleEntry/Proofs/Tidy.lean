import DoubleEntry.Proofs.Placing
import DoubleEntry.Proofs.Relinking
import DoubleEntry.Proofs.Running

/-! # Registers between edits

A register is to show its splits in ledger order and, beside each, the balance over the splits up to it.
Neither is promised while a transaction is open: its splits are loose, may stand out of order, and may make
the balances of their registers stale. What holds all along is `Ledger.Tidy`: the other splits of each
register are in order, and a register without loose splits is current. Which of the two is looked at is the
`Aspect`, since the one may be lost without the other.

Within a command a split may be on its way from one transaction to another, and an account may have to be
recomputed. `Tidy` names both.
-/

namespace DoubleEntry

open Register

/-- What a register is to show. -/
inductive Aspect where
  | order
  | balances

/-- What a transaction has to do with the place of its splits: its heading, and whether it is open. -/
def Transaction.standing (transaction : Transaction) : Bool × Instant × String × String :=
  (transaction.edit.isOpen, transaction.heading)

namespace Ledger

variable {α J : Type}

/-- Whether a split is part of a transaction that is not closed. -/
def isLoose (ledger : Ledger α J) (id : SplitId) : Bool :=
  (ledger.parentOf? id).any fun owner => (ledger.transaction? owner).all (·.edit.isOpen)

/-- Whether a register may be disturbed by a split, which is loose or on its way. -/
def mayDisturb (ledger : Ledger α J) (moving : Option SplitId) (id : SplitId) : Bool :=
  moving = some id || ledger.isLoose id

/-- Whether a split stands in some register. -/
def IsRegistered (ledger : Ledger α J) (id : SplitId) : Prop :=
  ∃ account holder, ledger.account? account = some holder ∧ id ∈ holder.register

/-- Registers list splits of their account, each once. -/
structure Shelved (ledger : Ledger α J) : Prop where
  numbered : ∀ {id}, (ledger.split? id).isSome → id.ident.toNat < ledger.minted
  nodup : ∀ {account holder}, ledger.account? account = some holder → holder.register.Nodup
  named : ∀ {account holder id}, ledger.account? account = some holder → id ∈ holder.register →
    ledger.accountOf? id = some account

/-- What a register shows if its account need not be recomputed. -/
def Shows [Scalar α] (ledger : Ledger α J) (aspect : Aspect) (moving : Option SplitId) (isStale : Prop)
    (register : List SplitId) : Prop :=
  match aspect with
  | .order => InOrder ledger.postings.compare (register.filter fun id => !ledger.mayDisturb moving id)
  | .balances => ¬isStale → (∀ id ∈ register, ledger.mayDisturb moving id = false) →
      ledger.IsCurrent register

/-- Registers show what is promised of them. -/
structure Tidy [Scalar α] (aspect : Aspect) (moving : Option SplitId) (stale : Option AccountId)
    (ledger : Ledger α J) : Prop extends ledger.Shelved where
  shows : ∀ {account holder}, ledger.account? account = some holder →
    ledger.Shows aspect moving (stale = some account) holder.register

/-- A change that puts no split into a register or out of one. -/
structure Still (before after : Ledger α J) : Prop where
  minted : before.minted ≤ after.minted
  numbered : ∀ id, (after.split? id).isSome → (before.split? id).isSome ∨ id.ident.toNat < after.minted
  registers : ∀ account,
    (after.account? account).map (·.register) = (before.account? account).map (·.register)
  named : ∀ id, before.IsRegistered id → after.accountOf? id = before.accountOf? id

end Ledger

/-- What is promised of a register does not depend on more of a split than this. -/
def Aspect.Same {α J : Type} [Scalar α] (aspect : Aspect) (before after : Ledger α J) (id : SplitId) :
    Prop :=
  match aspect with
  | .order => after.postings.heading? id = before.postings.heading? id
  | .balances => (after.split? id).map Split.figures = (before.split? id).map Split.figures ∧
      after.running id = before.running id

namespace Ledger

variable {α J : Type} {before after ledger : Ledger α J} {moving next : Option SplitId}
  {stale : Option AccountId} {id split : SplitId} {account other : AccountId} {holder : Account}
  {owner : TransactionId}

section Still

/-- The register of an account that has the same one as before. -/
theorem holder_of_registers
    (same : (after.account? account).map (·.register) = (before.account? account).map (·.register))
    (held : after.account? account = some holder) :
    ∃ former, before.account? account = some former ∧ former.register = holder.register := by
  rw [held, Option.map_some] at same
  exact Option.map_eq_some_iff.mp same.symm

theorem Shelved.still (shelved : before.Shelved) (still : before.Still after) : after.Shelved where
  numbered live := (still.numbered _ live).elim
    (fun was => (shelved.numbered was).trans_le still.minted) fun now => now
  nodup held := by
    obtain ⟨former, was, same⟩ := holder_of_registers (still.registers _) held
    exact same ▸ shelved.nodup was
  named held inside := by
    obtain ⟨former, was, same⟩ := holder_of_registers (still.registers _) held
    rw [← same] at inside
    exact (still.named _ ⟨_, former, was, inside⟩).trans (shelved.named was inside)

/-- A split without an account is in no register. -/
theorem Shelved.not_registered (shelved : ledger.Shelved) (none : ledger.accountOf? id = none) :
    ¬ledger.IsRegistered id := by
  rintro ⟨account, holder, held, inside⟩
  rw [shelved.named held inside] at none
  contradiction

/-- A split that is in a register is there. -/
theorem Shelved.live (shelved : ledger.Shelved) (held : ledger.account? account = some holder)
    (inside : id ∈ holder.register) : (ledger.split? id).isSome := by
  have named := shelved.named held inside
  rw [accountOf?] at named
  exact Option.isSome_of_eq_some (Option.bind_eq_some_iff.mp named).choose_spec.1

theorem Alike.still [Scalar α] (alike : before.Alike after) : before.Still after where
  minted := alike.minted.ge
  numbered id live := .inl <| by
    have same := congrArg Option.isSome (alike.splits id)
    simp only [Option.isSome_map] at same
    rwa [same] at live
  registers := alike.map_account? (·.register) fun _ => rfl
  named id _ := alike.accountOf? id

theorem still_modifySplit {change : Split α → Split α}
    (keeps : ledger.IsRegistered split → ∀ entry, (change entry).account = entry.account) :
    ledger.Still (ledger.modifySplit split change) where
  minted := le_rfl
  numbered id live := .inl (isSome_split?_modifySplit split change id ▸ live)
  registers _ := rfl
  named id registered := by
    refine accountOf?_congr ?_
    by_cases same : id = split
    · subst same
      exact Table.map_get?_modify ledger.splits id change (·.account) (keeps registered) id
    · rw [split?_modifySplit, if_neg same]

end Still

/-! ## What does not count -/

theorem heading?_eq (ledger : Ledger α J) (id : SplitId) : ledger.postings.heading? id =
    (ledger.split? id).map fun split =>
      ((split.parent.bind ledger.transaction?).map Transaction.heading, split.memo, split.action) := by
  rw [Postings.heading?, Postings.position?, Option.map_map]
  rfl

section Standing

variable (parent : after.parentOf? id = before.parentOf? id)
  (owned : ∀ owner, before.parentOf? id = some owner →
    (after.transaction? owner).map (·.standing) = (before.transaction? owner).map (·.standing))

include parent owned

/-- Whether a split is loose depends on its transaction, and on whether that is open. -/
theorem isLoose_congr : after.isLoose id = before.isLoose id := by
  rw [isLoose, isLoose, parent]
  cases isOwner : before.parentOf? id with
  | none => rfl
  | some owner =>
    have same := congrArg (Option.all Prod.fst) (owned owner isOwner)
    simp only [Option.all_map] at same
    exact same

theorem mayDisturb_congr : after.mayDisturb moving id = before.mayDisturb moving id := by
  rw [mayDisturb, isLoose_congr parent owned, mayDisturb]

end Standing

variable [Scalar α] {aspect : Aspect}

theorem same_of_entry (isSplit : after.split? id = before.split? id)
    (owned : ∀ owner, before.parentOf? id = some owner →
      (after.transaction? owner).map (·.standing) = (before.transaction? owner).map (·.standing)) :
    aspect.Same before after id := by
  cases aspect with
  | order =>
    change after.postings.heading? id = before.postings.heading? id
    rw [heading?_eq, heading?_eq, isSplit]
    cases found : before.split? id with
    | none => rfl
    | some split =>
      cases parent : split.parent with
      | none => simp [parent]
      | some owner =>
        have same := congrArg (Option.map Prod.snd) (owned owner (by simp [parentOf?, found, parent]))
        rw [Option.map_map, Option.map_map] at same
        have heading : (after.transaction? owner).map Transaction.heading =
            (before.transaction? owner).map Transaction.heading := same
        simp [parent, heading]
  | balances => exact ⟨by rw [isSplit], by rw [running, isSplit, running]⟩

theorem shows_order {isStale : Prop} {register : List SplitId} :
    ledger.Shows .order moving isStale register ↔
      InOrder ledger.postings.compare (register.filter fun id => !ledger.mayDisturb moving id) := .rfl

/-- A register shows no less when fewer of its splits are to be reckoned with. -/
theorem Shows.steady {isStale : Prop} {register : List SplitId}
    (shows : before.Shows aspect moving isStale register)
    (undisturbed : ∀ id ∈ register, after.mayDisturb next id = false →
      before.mayDisturb moving id = false ∧ aspect.Same before after id) :
    after.Shows aspect next isStale register := by
  cases aspect with
  | order =>
    have fewer : register.filter (fun id => !after.mayDisturb next id) =
        (register.filter fun id => !before.mayDisturb moving id).filter
          fun id => !after.mayDisturb next id := by
      rw [List.filter_filter]
      refine List.filter_congr fun id inside => ?_
      cases disturbs : after.mayDisturb next id with
      | true => simp
      | false => simp [(undisturbed id inside disturbs).1]
    have heading (id) (inside : id ∈ register.filter fun id => !after.mayDisturb next id) :
        after.postings.heading? id = before.postings.heading? id := by
      simp only [List.mem_filter, Bool.not_eq_eq_eq_not, Bool.not_true] at inside
      exact (undisturbed id inside.1 inside.2).2
    have sorted : InOrder before.postings.compare
        (register.filter fun id => !after.mayDisturb next id) := fewer ▸ List.Pairwise.filter _ shows
    refine sorted.imp_of_mem fun left right inOrder => ?_
    rwa [Postings.compare_congr (heading _ left) (heading _ right)]
  | balances =>
    intro fresh closed
    have kept (id) (inside : id ∈ register) := undisturbed id inside (closed id inside)
    exact IsCurrent.congr (shows fresh fun id inside => (kept id inside).1)
      (fun id inside => (kept id inside).2.1) fun id inside => (kept id inside).2.2

/-- A register that is not stale shows as much as any. -/
theorem Shows.of_fresh {isStale mayBe : Prop} {register : List SplitId}
    (shows : ledger.Shows aspect moving isStale register) (fresh : ¬isStale) :
    ledger.Shows aspect moving mayBe register := by
  cases aspect with
  | order => exact shows
  | balances => exact fun _ => shows fresh

/-! ## Steady changes -/

/-- A still change that lets no split disturb a register that did not before. -/
structure Steady (before after : Ledger α J) (aspect : Aspect) (moving next : Option SplitId) : Prop
    extends before.Still after where
  undisturbed : ∀ id, before.IsRegistered id → after.mayDisturb next id = false →
    before.mayDisturb moving id = false ∧ aspect.Same before after id

theorem Tidy.steady (tidy : before.Tidy aspect moving stale)
    (steady : before.Steady after aspect moving next) : after.Tidy aspect next stale where
  toShelved := tidy.toShelved.still steady.toStill
  shows held := by
    obtain ⟨former, was, same⟩ := holder_of_registers (steady.registers _) held
    refine (same ▸ tidy.shows was).steady fun id inside => ?_
    exact steady.undisturbed id ⟨_, former, was, same ▸ inside⟩

/-- An account may be recomputed at any time. -/
theorem Tidy.weaken (tidy : ledger.Tidy aspect moving none) (stale : Option AccountId) :
    ledger.Tidy aspect moving stale :=
  ⟨tidy.toShelved, fun held => (tidy.shows held).of_fresh nofun⟩

/-- No entry of a split or transaction changes. -/
theorem Steady.of_entries (minted : before.minted ≤ after.minted)
    (splits : after.splits = before.splits) (transactions : after.transactions = before.transactions)
    (registers : ∀ account,
      (after.account? account).map (·.register) = (before.account? account).map (·.register)) :
    before.Steady after aspect moving moving := by
  have isSplit (id) : after.split? id = before.split? id := by rw [split?, splits, split?]
  have isOwner (owner) : after.transaction? owner = before.transaction? owner := by
    rw [transaction?, transactions, transaction?]
  exact {
    minted, registers
    numbered := fun id live => .inl (isSplit id ▸ live)
    named := fun id _ => by rw [accountOf?, isSplit, accountOf?]
    undisturbed := fun id _ closed =>
      ⟨mayDisturb_congr (parentOf?_congr (congrArg (·.map (·.parent)) (isSplit id)))
          (fun owner _ => by rw [isOwner]) ▸ closed,
        same_of_entry (isSplit id) fun owner _ => by rw [isOwner]⟩ }

/-- A change of one split. -/
theorem steady_modifySplit {change : Split α → Split α}
    (elsewhere : ∀ id, id ≠ split → (next = some id ↔ moving = some id))
    (counts : ledger.IsRegistered split → (∀ entry, (change entry).account = entry.account) ∧
      ((ledger.modifySplit split change).mayDisturb next split = false →
        ledger.mayDisturb moving split = false ∧
          aspect.Same ledger (ledger.modifySplit split change) split)) :
    ledger.Steady (ledger.modifySplit split change) aspect moving next where
  toStill := still_modifySplit fun registered => (counts registered).1
  undisturbed id registered closed := by
    by_cases same : id = split
    · subst same
      exact (counts registered).2 closed
    · have isSplit : (ledger.modifySplit split change).split? id = ledger.split? id := by
        rw [split?_modifySplit, if_neg same]
      have disturbs : (ledger.modifySplit split change).mayDisturb next id = ledger.mayDisturb next id :=
        mayDisturb_congr (parentOf?_congr (by rw [isSplit])) fun _ _ => rfl
      refine ⟨?_, same_of_entry isSplit fun _ _ => rfl⟩
      rw [disturbs] at closed
      simpa [mayDisturb, elsewhere id same] using closed

/-- A change of a transaction that is open afterwards, or moves none of its splits. -/
theorem steady_modifyTransaction {change : Transaction → Transaction}
    (counts : ∀ transaction, ledger.transaction? owner = some transaction →
      (change transaction).edit.isOpen = true ∨ (change transaction).standing = transaction.standing) :
    ledger.Steady (ledger.modifyTransaction owner change) aspect moving moving where
  minted := le_rfl
  numbered _ live := .inl live
  registers _ := rfl
  named _ _ := rfl
  undisturbed id _ closed := by
    have elsewhere (other) (parent : ledger.parentOf? id = some other) :
        ((ledger.modifyTransaction owner change).transaction? other).map (·.standing) =
          (ledger.transaction? other).map (·.standing) := by
      rw [transaction?_modifyTransaction]
      split
      · subst_vars
        cases found : ledger.transaction? other with
        | none => rfl
        | some transaction =>
          rcases counts transaction found with opens | same
          · have parent : (ledger.modifyTransaction other change).parentOf? id = some other := parent
            simp [mayDisturb, isLoose, parent, transaction?_modifyTransaction, found, opens] at closed
          · simp [same]
      · rfl
    rw [mayDisturb_congr (by exact rfl) elsewhere] at closed
    exact ⟨closed, same_of_entry (by exact rfl) elsewhere⟩

/-- Entries of splits that are in no register come and go, and so do transactions that no split in a
register is part of afterwards unless it is loose. -/
theorem steady_entries (minted : before.minted ≤ after.minted)
    (numbered : ∀ id, (after.split? id).isSome →
      (before.split? id).isSome ∨ id.ident.toNat < after.minted)
    (registers : ∀ account, after.account? account = before.account? account)
    (splits : ∀ id, before.IsRegistered id → after.split? id = before.split? id)
    (transactions : ∀ id owner, before.IsRegistered id → before.parentOf? id = some owner →
      after.mayDisturb moving id = false → after.transaction? owner = before.transaction? owner) :
    before.Steady after aspect moving moving where
  minted := minted
  numbered := numbered
  registers account := by rw [registers]
  named id registered := by rw [accountOf?, splits id registered, accountOf?]
  undisturbed id registered closed := by
    have isSplit := splits id registered
    have owned (owner) (parent : before.parentOf? id = some owner) :
        (after.transaction? owner).map (·.standing) = (before.transaction? owner).map (·.standing) := by
      rw [transactions id owner registered parent closed]
    rw [mayDisturb_congr (parentOf?_congr (by rw [isSplit])) owned] at closed
    exact ⟨closed, same_of_entry isSplit owned⟩

/-! ## Recomputing -/

theorem Alike.parentOf? (alike : before.Alike after) (id : SplitId) :
    after.parentOf? id = before.parentOf? id :=
  parentOf?_congr (alike.map_split? (·.parent) (fun _ => rfl) id)

theorem Alike.isLoose (alike : before.Alike after) (id : SplitId) :
    after.isLoose id = before.isLoose id :=
  isLoose_congr (alike.parentOf? id) fun owner _ => by rw [transaction?, alike.transactions, transaction?]

theorem Alike.mayDisturb (alike : before.Alike after) (id : SplitId) :
    after.mayDisturb moving id = before.mayDisturb moving id := by
  rw [Ledger.mayDisturb, alike.isLoose, Ledger.mayDisturb]

theorem Alike.heading? (alike : before.Alike after) (id : SplitId) :
    after.postings.heading? id = before.postings.heading? id := by
  have same : after.transaction? = before.transaction? := by
    funext owner
    rw [transaction?, alike.transactions, transaction?]
  rw [heading?_eq, heading?_eq, same]
  exact alike.map_split? (fun split => ((split.parent.bind before.transaction?).map Transaction.heading,
    split.memo, split.action)) (fun _ => rfl) id

/-- A split of another account carries what it carried before an account was recomputed. -/
theorem Shelved.running_recompute (shelved : ledger.Shelved)
    (elsewhere : ledger.accountOf? id ≠ some account) :
    (ledger.recompute account).running id = ledger.running id := by
  rw [running, split?_recompute fun holder held inside => elsewhere (shelved.named held inside), running]

/-- Recomputing makes a register current, and leaves every other one current that was. -/
theorem Shelved.isCurrent_recompute (shelved : ledger.Shelved)
    (held : ledger.account? other = some holder)
    (current : account ≠ other → ledger.IsCurrent holder.register) :
    (ledger.recompute account).IsCurrent holder.register := by
  by_cases here : account = other
  · subst here
    exact Ledger.isCurrent_recompute held (fun _ => shelved.live held) (shelved.nodup held)
  · refine (current here).congr
      (fun id _ => (ledger.recompute_alike account).map_split? Split.figures (fun _ => rfl) id)
      fun id inside => shelved.running_recompute fun elsewhere => ?_
    exact here (Option.some.inj (elsewhere.symm.trans (shelved.named held inside)))

/-- Recomputing the one account that may need it leaves none that does. -/
theorem Tidy.recompute (tidy : ledger.Tidy aspect moving (some account)) :
    (ledger.recompute account).Tidy aspect moving none where
  toShelved := tidy.toShelved.still (ledger.recompute_alike account).still
  shows {other holder} held := by
    have alike := ledger.recompute_alike account
    obtain ⟨former, was, same⟩ := holder_of_registers (alike.still.registers other) held
    rw [← same]
    have shows := tidy.shows was
    cases aspect with
    | order =>
      exact Shows.steady shows fun id _ closed => ⟨alike.mayDisturb id ▸ closed, alike.heading? id⟩
    | balances =>
      refine fun _ closed => tidy.toShelved.isCurrent_recompute was fun elsewhere => ?_
      exact shows (by simpa using elsewhere) fun id inside => alike.mayDisturb id ▸ closed id inside

theorem Tidy.recompute? (tidy : ledger.Tidy aspect moving stale) :
    (ledger.recompute? stale).Tidy aspect moving none := by
  cases stale with
  | none => exact tidy
  | some _ => exact tidy.recompute

end Ledger

end DoubleEntry
