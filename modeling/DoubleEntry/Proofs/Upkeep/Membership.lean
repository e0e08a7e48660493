import DoubleEntry.Proofs.Upkeep.Edit

/-! # Registers through moves of splits

A split that joins an open transaction becomes loose. One that leaves is not loose any more, and shows its
register what it is by then: `Upkeep.MayLeave` says when nothing is lost by that. A split that is released to
join another transaction is on its way in between.
-/

namespace DoubleEntry

open DoubleEntry.Action Ledger Links

variable {α J : Type} [Scalar α] {ledger before after : Ledger α J} {aspect : Aspect}
  {moving next : Option SplitId} {id split : SplitId} {account : AccountId} {owner : TransactionId}

namespace Upkeep

/-! ## Splits that come and go -/

theorem keeps_createSplit : Keeps (Kept (α := α) (J := J) aspect moving) createSplit :=
  fun _ tidy fresh => Tidy.insertSplit fresh (tidy ((Nat.le_succ _).trans fresh))

/-- No split in a register is part of a transaction that comes only now. -/
theorem ends_createTransaction (owned : ledger.Owned) (tidy : Kept aspect moving ledger) :
    createTransaction.Ends ledger fun _ after => Kept aspect moving after := by
  intro fresh
  change ledger.minted + 2 ≤ 2 ^ 128 at fresh
  have small : ledger.minted < 2 ^ 128 := by omega
  have tidied : ledger.Tidy aspect moving none := tidy small.le
  let owner : TransactionId := ⟨Ident.ofNat (ledger.minted + 1)⟩
  have unlisted : ledger.ownership.listed owner = none :=
    (owned.below.mono (Nat.le_succ _)).listed_next fresh
  let entry : Split α := { (.empty : Split α) with parent := some owner }
  have came : Tidy aspect moving none { ledger with
      splits := ledger.splits.insert ledger.nextSplit entry
      minted := ledger.minted + 1 } := tidied.insertSplit small
  refine came.steady (steady_entries (Nat.le_succ _) (fun _ live => .inl live) (fun _ => rfl)
    (fun _ _ => rfl) fun id other registered parent _ => ?_)
  refine (Table.get?_insert ..).trans (if_neg ?_)
  rintro rfl
  have different : id ≠ ledger.nextSplit := by
    rintro rfl
    exact tidied.new_not_registered small registered
  have named : ledger.ownership.named id = some (some owner) := by
    refine parentOf?_eq_some_iff.mp (.trans (parentOf?_congr (congrArg (Option.map Split.parent) ?_)) parent)
    exact ((Table.get?_insert ..).trans (if_neg different)).symm
  obtain ⟨transaction, found⟩ := owned.known named
  simp [listed_eq found] at unlisted

theorem ends_discardSplit (id : SplitId) (tidy : Kept aspect moving ledger) :
    (discardSplit id).Ends ledger fun _ after => Kept aspect moving after := by
  rw [discardSplit]
  refine ends_ask_bind tidy fun entry _ => ?_
  cases entry.parent with
  | some _ => exact tidy
  | none => exact fun fresh => (tidy (minted_eraseSplit.ge.trans fresh)).eraseSplit

/-! ## Transactions -/

section Joining

variable (isOpen : ledger.checkOpen owner = .ok ())

include isOpen

omit [Scalar α] in
/-- A split that joins an open transaction is loose. -/
theorem joined_loose (split : SplitId) :
    (ledger.modifySplit split fun s => { s with parent := some owner }).split? split = none ∨
    (ledger.modifySplit split fun s => { s with parent := some owner }).isLoose split = true := by
  obtain ⟨transaction, found, opens⟩ := checkOpen_eq_ok_iff.mp isOpen
  rw [split?_modifySplit, if_pos rfl]
  cases isSplit : ledger.split? split with
  | none => exact .inl rfl
  | some entry =>
    have still : (ledger.modifySplit split fun s => { s with parent := some owner }).transaction? owner =
        some transaction := found
    exact .inr (isLoose_of_parent (by simp [parentOf?, split?_modifySplit, isSplit]) still opens)

theorem tidy_join (tidy : Kept aspect moving ledger) (elsewhere : ∀ id, id ≠ split → moving ≠ some id) :
    Kept aspect none (ledger.modifySplit split fun s => { s with parent := some owner }) := by
  intro fresh
  have tidied : ledger.Tidy aspect moving none := tidy fresh
  refine tidied.steady (steady_modifySplit
    (fun id other => ⟨nofun, fun same => absurd same (elsewhere id other)⟩) fun registered =>
    ⟨fun _ => rfl, fun closed => ?_⟩)
  rcases joined_loose isOpen split with missing | loose
  · obtain ⟨account, holder, held, inside⟩ := registered
    have live := tidied.live held inside
    rw [← isSome_split?_modifySplit split, missing] at live
    cases live
  · simp [mayDisturb, loose] at closed

/-- A split goes to a transaction that is open, and rebalancing follows. -/
theorem ends_adopt (tidy : Kept aspect moving ledger) (elsewhere : ∀ id, id ≠ split → moving ≠ some id) :
    (adopt rebalanceSplit owner split).Ends ledger fun _ after => Kept aspect none after := by
  have named := tidy_join isOpen tidy elsewhere
  have free : _ ∨ _ := joined_loose isOpen split
  rw [adopt, ends_bind, ends_update]
  generalize (ledger.modifySplit split fun s => { s with parent := some owner }) = joined at named free ⊢
  dsimp only
  rw [ends_bind, ends_update]
  dsimp only
  rw [ends_bind, ends_update]
  have listed : Kept aspect none (joined.modifyTransaction owner (·.push split)) :=
    tidy_steady named (steady_modifyTransaction fun _ _ => .inr rfl)
  have alike := (joined.modifyTransaction owner (·.push split)).mark_alike split
  refine ends_rebalanceSplit_tidy (tidy_steady listed steady_mark) fun _ => ?_
  rcases free with missing | loose
  · refine .inl ((alike.parentOf? split).trans ?_)
    change joined.parentOf? split = none
    rw [parentOf?, missing]
    rfl
  · refine .inr (.inl ((alike.isLoose split).trans (.trans ?_ loose)))
    exact isLoose_congr rfl fun other _ => Table.map_get?_modify joined.transactions owner (·.push split)
      (·.standing) (fun _ => rfl) other

end Joining

/-- A split that is released is on its way: it is in no transaction, but may stand in a register. If that
fails, it is where it was. -/
theorem ends_release (owned : ledger.Owned) (tidy : ledger.Tidy aspect none none)
    (named : ledger.ownership.named split = some (some owner)) :
    (release owner split).Ends ledger fun result after =>
      match result with
      | .ok _ => Kept aspect (some split) after
      | .error _ => Kept aspect none after := by
  have away : Kept aspect (some split) (ledger.parted owner split) := by
    refine fun _ => tidy.drop.steady
      (steady_modifySplit (fun id other => ?_) fun _ => ⟨by exact fun _ => rfl, fun closed => ?_⟩)
    · simpa using other.symm
    · simp [mayDisturb] at closed
  refine ends_release_of (fun _ _ => tidy) (fun _ _ _ => away) fun transaction source releases isSource => ?_
  have sound := Ownership.owned_parted owned named releases.isOwner releases.several
  have rest : (ledger.parted owner split).transaction? owner = some (transaction.drop split) :=
    transaction?_parted split releases.isOwner
  have opens : (transaction.drop split).edit.isOpen = true := releases.isOpen
  have loose : (ledger.parted owner split).isLoose source = true :=
    loose_of_open sound rest opens (List.mem_of_mem_head? isSource)
  have still : (ledger.parted owner split).checkOpen owner = .ok () :=
    checkOpen_eq_ok_iff.mpr ⟨_, rest, opens⟩
  refine ((ends_rebalanceSplit_tidy away fun _ => .inr (.inl loose)).and
    (ends_rebalanceSplit_sameEdits source)).imp ?_
  rintro (_ | _) after ⟨tidied, edits⟩
  · dsimp only
    cases place : transaction.splits.idxOf? split with
    | none =>
      have inside := (owned.mem_iff releases.isOwner).mpr named
      exact absurd inside (List.idxOf?_eq_none_iff.mp place)
    | some index =>
      have again : SameEdits after (after.modifyTransaction owner (·.insertAt index split)) :=
        sameEdits_modifyTransaction fun _ => rfl
      refine tidy_join (again.isOpen (edits.isOpen still))
        (tidy_steady tidied (steady_modifyTransaction fun _ _ => .inr rfl)) fun id other => ?_
      simpa using other.symm
  · exact tidied

theorem ends_release_sameEdits :
    (release owner split).Ends ledger fun _ after => SameEdits ledger after := by
  have edits {change : Transaction → Transaction}
      (stays : ∀ transaction, (change transaction).edit = transaction.edit) :
      ∀ after : Ledger α J, SameEdits ledger after → SameEdits ledger (after.modifyTransaction owner change) :=
    fun after same id => (sameEdits_modifyTransaction stays id).trans (same id)
  refine keeps_release_of (edits (by exact fun _ => rfl)) (fun after place same => ?_)
    keeps_rebalanceSplit_edits ledger fun _ => rfl
  cases place with
  | none => exact same
  | some index => exact edits (by exact fun _ => rfl) after same

theorem ends_appendSplit (owned : ledger.Owned) (tidy : ledger.Tidy aspect none none) (id : TransactionId)
    (split : SplitId) :
    (appendSplit id split).Ends ledger fun _ after => Kept aspect none after := by
  have kept : Kept aspect none ledger := fun _ => tidy
  refine ends_appendSplit_of (fun _ => kept) fun entry isOpen isSplit => ?_
  have named := parent_eq_iff.mpr ⟨entry, isSplit, rfl⟩
  cases parent : entry.parent with
  | none => exact ends_adopt isOpen kept (by simp)
  | some former =>
    rw [parent] at named
    dsimp only
    split
    · have edits : SameEdits ledger (ledger.modifyTransaction id (·.drop split)) :=
        sameEdits_modifyTransaction fun _ => rfl
      exact ends_adopt (edits.isOpen isOpen) (fun _ => tidy.drop) (by simp)
    · refine ((ends_release owned tidy named).and ends_release_sameEdits).imp ?_
      rintro (_ | _) after ⟨ends, edits⟩
      · exact ends
      · exact ends_adopt (edits.isOpen isOpen) ends fun id other => by simpa using other.symm

/-- Whether a split may leave its transaction: it is in no register, or the register that it is in is
current. -/
def MayLeave (aspect : Aspect) (ledger : Ledger α J) (split : SplitId) : Prop :=
  match aspect with
  | .order => ledger.accountOf? split = none
  | .balances => ∀ account holder, ledger.account? account = some holder → split ∈ holder.register →
      ledger.IsCurrent holder.register

instance [DecidableEq α] : Decidable (MayLeave aspect ledger split) :=
  match aspect with
  | .order => inferInstanceAs (Decidable (ledger.accountOf? split = none))
  | .balances => decidable_of_iff _ (Table.forall_get?_iff ledger.accounts _).symm

theorem tidy_detach (tidy : ledger.Tidy aspect none none) (leaves : MayLeave aspect ledger split) :
    (ledger.modifySplit split fun s => { s with parent := none }).Tidy aspect none none := by
  cases aspect with
  | order =>
    exact tidy.steady (steady_modifySplit (fun _ _ => .rfl) fun registered =>
      absurd registered (tidy.not_registered leaves))
  | balances =>
    refine ⟨tidy.toShelved.still (still_modifySplit fun _ _ => rfl), fun {account holder} held => ?_⟩
    have held : ledger.account? account = some holder := held
    by_cases inside : split ∈ holder.register
    · have ignores : Aspect.balances.Ignores fun s : Split α => { s with parent := none } :=
        fun _ => ⟨rfl, rfl⟩
      exact fun _ _ => (leaves account holder held inside).congr (fun id _ => (ignores.same id).1)
        fun id _ => (ignores.same id).2
    · refine (tidy.shows held).steady fun id listed closed => ?_
      have isSplit : (ledger.modifySplit split fun s => { s with parent := none }).split? id =
          ledger.split? id := by
        rw [split?_modifySplit, if_neg]
        rintro rfl
        exact inside listed
      have disturbs : (ledger.modifySplit split fun s => { s with parent := none }).mayDisturb none id =
          ledger.mayDisturb none id := mayDisturb_congr (parentOf?_congr (by rw [isSplit])) fun _ _ => rfl
      exact ⟨disturbs ▸ closed, same_of_entry isSplit fun _ _ => rfl⟩

theorem ends_removeSplit (tidy : ledger.Tidy aspect none none) (leaves : MayLeave aspect ledger split)
    (id : TransactionId) :
    (removeSplit id split).Ends ledger fun _ after => Kept aspect none after := by
  have kept : Kept aspect none ledger := fun _ => tidy
  rw [removeSplit, ensureOpen_eq]
  refine ends_ask_bind kept fun _ _ => ends_ask_bind kept fun transaction _ => ?_
  rw [ends_ite, ends_ite]
  split
  · exact kept
  · split
    · exact kept
    · have stays : MayLeave aspect (ledger.modifyTransaction id (·.drop split)) split := by
        cases aspect <;> exact leaves
      exact fun _ => (tidy_detach tidy.drop stays).steady steady_mark

/-! ## Accounts -/

/-- A split that left its account is in no register, whatever account it is to be in. -/
theorem tidy_rehoused (tidy : ledger.Tidy aspect moving none) (account : Option AccountId) :
    ((ledger.leaveAccount split).modifySplit split fun s => { s with account }).Tidy aspect moving
      none :=
  tidy.leaveAccount.steady (steady_modifySplit (fun _ _ => .rfl) fun registered =>
    absurd registered tidy.not_registered_leaveAccount)

theorem ends_leaveAccount (tidy : ledger.Tidy aspect moving none) (split : SplitId) :
    (Action.leaveAccount split).Ends ledger fun _ after => Kept aspect moving after := by
  rw [Action.leaveAccount, ensureEditable_eq]
  exact ends_ask_bind (fun _ => tidy) fun _ _ _ => tidy_rehoused tidy none

/-- A split enters an account: a loose one, or one that is in no transaction where no loose split stands. -/
theorem ends_enterAccount (tidy : ledger.Tidy aspect moving none)
    (quiet : aspect = .order → ledger.parentOf? split = none → ledger.IsQuiet moving account) :
    (enterAccount account split).Ends ledger fun _ after => Kept aspect moving after := by
  have kept : Kept aspect moving ledger := fun _ => tidy
  rw [enterAccount, ensureEditable_eq]
  refine ends_ask_bind kept fun _ _ => ends_ask_bind kept fun _ editable => ?_
  simp only [ends_bind, ends_update, ends_enterRegister]
  obtain ⟨entry, isSplit⟩ := split_of_editable editable
  have entered : ((ledger.leaveAccount split).modifySplit split fun s =>
      { s with account := some account }).Tidy aspect moving none := tidy_rehoused tidy (some account)
  have disturbs (id : SplitId) : ((ledger.leaveAccount split).modifySplit split fun s =>
      { s with account := some account }).mayDisturb moving id = ledger.mayDisturb moving id :=
    (mayDisturb_modifySplit (by exact fun _ => rfl) id).trans (mayDisturb_leaveAccount id)
  have within : ((ledger.leaveAccount split).modifySplit split fun s =>
      { s with account := some account }).accountOf? split = some account := by
    have live := (isSome_leaveAccount ledger split split).trans (Option.isSome_of_eq_some isSplit)
    obtain ⟨entry, found⟩ := Option.isSome_iff_exists.mp live
    simp [accountOf?, split?_modifySplit, found]
  have accounts : ((ledger.leaveAccount split).modifySplit split fun s =>
      { s with account := some account }).account? account =
        (ledger.leaveAccount split).account? account := rfl
  generalize (ledger.leaveAccount split).modifySplit split (fun s =>
    { s with account := some account }) = joined at entered disturbs within accounts ⊢
  refine fun _ => Tidy.recompute ((entered.weaken (some account)).registered within fun order => ?_)
  rcases loose_or_detached editable with loose | detached
  · exact .inl ((disturbs split).trans (by simp [mayDisturb, loose]))
  · refine .inr fun holder held id inside => (disturbs id).trans ?_
    rw [accounts] at held
    obtain ⟨-, former, was, inside⟩ := tidy.mem_leaveAccount held inside
    exact quiet order detached former was id inside

end Upkeep

end DoubleEntry
