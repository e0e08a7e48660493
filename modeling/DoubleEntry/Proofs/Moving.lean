import DoubleEntry.Ledger.EditSession
import DoubleEntry.Ledger.Membership
import DoubleEntry.Proofs.Relinking
import DoubleEntry.Proofs.Settling

/-! # Splits that leave a transaction

A split that goes to another transaction is first released by the one that it is in, which settles what is
left to it, and then adopted. If what is left cannot be settled, the split goes back to its place. A split
that is destroyed leaves its transaction as well, if that goes on without it.

The rules below walk through these actions once: `ends_release_of`, `ends_appendSplit_of` and
`ends_destroySplit_of` for how they end, `keeps_release_of` and `keeps_appendSplit_of` for what they pass on.
-/

namespace DoubleEntry

namespace Ledger

variable {α J : Type} {ledger : Ledger α J} {split : SplitId} {owner : TransactionId}
  {transaction : Transaction}

/-- The ledger with a split taken out of a transaction. -/
def parted (owner : TransactionId) (split : SplitId) (ledger : Ledger α J) : Ledger α J :=
  (ledger.modifyTransaction owner (·.drop split)).modifySplit split fun s => { s with parent := none }

/-- The ledger with a split at a place of a transaction, if there is such a place. -/
def rejoined (owner : TransactionId) (split : SplitId) (place : Option Nat) (ledger : Ledger α J) :
    Ledger α J :=
  match place with
  | none => ledger
  | some index => (ledger.modifyTransaction owner (·.insertAt index split)).modifySplit split
      fun s => { s with parent := some owner }

/-- The ledger with a split at the end of a transaction. -/
def joined (owner : TransactionId) (split : SplitId) (ledger : Ledger α J) : Ledger α J :=
  (ledger.modifySplit split fun s => { s with parent := some owner }).modifyTransaction owner (·.push split)

theorem minted_rejoined (owner : TransactionId) (split : SplitId) (place : Option Nat) :
    (ledger.rejoined owner split place).minted = ledger.minted := by
  cases place <;> rfl

theorem transaction?_parted (split : SplitId) (found : ledger.transaction? owner = some transaction) :
    (ledger.parted owner split).transaction? owner = some (transaction.drop split) := by
  change (ledger.modifyTransaction owner (·.drop split)).transaction? owner = _
  rw [transaction?_modifyTransaction, if_pos rfl, found, Option.map_some]

theorem split?_joined {entry : Split α} (found : ledger.split? split = some entry) :
    (ledger.joined owner split).split? split = some { entry with parent := some owner } := by
  change (ledger.modifySplit split fun s => { s with parent := some owner }).split? split = _
  rw [split?_modifySplit, if_pos rfl, found, Option.map_some]

theorem transaction?_joined (split : SplitId) (found : ledger.transaction? owner = some transaction) :
    (ledger.joined owner split).transaction? owner = some (transaction.push split) := by
  rw [joined, transaction?_modifyTransaction, if_pos rfl]
  exact congrArg (Option.map _) found

/-- Once it is part of a transaction, a split is rebalanced from if nothing puts that off. -/
theorem active_joined [Scalar α] {entry : Split α} (isSplit : ledger.split? split = some entry)
    (isOwner : ledger.transaction? owner = some transaction)
    (undeferred : transaction.edit.defers = false)
    (ready : entry.account.any ledger.accounts.defers = false) :
    ((ledger.joined owner split).mark split).Active split { entry with parent := some owner } owner
      (transaction.push split) where
  isSplit := (split?_mark split split).trans (split?_joined isSplit)
  parent := rfl
  isOwner := (transaction?_mark split owner).trans (transaction?_joined split isOwner)
  undeferred := undeferred
  ready := by
    rw [(mark_alike _ split).defers]
    exact ready

/-- A transaction that may let a split go: it is open and keeps another one. -/
structure Releases (ledger : Ledger α J) (owner : TransactionId) (transaction : Transaction) : Prop where
  isOwner : ledger.transaction? owner = some transaction
  isOpen : transaction.edit.isOpen = true
  several : 1 < transaction.splits.length

/-- A split that names an open transaction, which lists it. -/
structure OpenMember (ledger : Ledger α J) (split : SplitId) (owner : TransactionId)
    (transaction : Transaction) : Prop where
  parent : ledger.parentOf? split = some owner
  isOwner : ledger.transaction? owner = some transaction
  isOpen : transaction.edit.isOpen = true
  inside : split ∈ transaction.splits

/-- The ledger without a split of a transaction. -/
def without [Scalar α] (owner : TransactionId) (split : SplitId) (ledger : Ledger α J) : Ledger α J :=
  ((ledger.mark split).modifyTransaction owner (·.drop split)).eraseSplit split

theorem minted_without [Scalar α] : (ledger.without owner split).minted = ledger.minted :=
  minted_eraseSplit.trans (ledger.mark_alike split).minted

theorem transaction?_without [Scalar α] (found : ledger.transaction? owner = some transaction) :
    (ledger.without owner split).transaction? owner = some (transaction.drop split) := by
  rw [without, transaction?, transactions_eraseSplit]
  change ((ledger.mark split).modifyTransaction owner (·.drop split)).transaction? owner = _
  rw [transaction?_modifyTransaction, if_pos rfl, transaction?_mark, found, Option.map_some]

end Ledger

namespace Action

variable {α J : Type} [Scalar α] {ledger : Ledger α J} {owner : TransactionId} {split : SplitId}
  {property : Except Fault Unit → Ledger α J → Prop}

/-! ## How a move ends -/

/-- A release that is not refused parts the split from its transaction. It ends like the settling of what is
left, and with the split at its old place if that fails. -/
theorem ends_release_of (refused : ∀ fault, property (.error fault) ledger)
    (left : ∀ transaction, ledger.Releases owner transaction → (transaction.drop split).source? = none →
      property (.ok ()) (ledger.parted owner split))
    (settles : ∀ transaction source, ledger.Releases owner transaction →
      (transaction.drop split).source? = some source →
      (rebalanceSplit source).Ends (ledger.parted owner split) fun result after =>
        match result with
        | .ok _ => property (.ok ()) after
        | .error fault =>
          property (.error fault) (after.rejoined owner split (transaction.splits.idxOf? split))) :
    (release owner split).Ends ledger property := by
  simp only [release, ensureOpen_eq, ends_bind, ends_ask]
  cases isOpen : ledger.checkOpen owner with
  | error fault => exact refused fault
  | ok _ =>
    obtain ⟨transaction, found, opens⟩ := Ledger.checkOpen_eq_ok_iff.mp isOpen
    dsimp only
    rw [Ledger.transaction_eq_ok_iff.mpr found]
    dsimp only
    rw [ends_ite]
    split
    · exact refused _
    · have releases : ledger.Releases owner transaction := ⟨found, opens, by omega⟩
      have rest := Ledger.transaction_eq_ok_iff.mpr (Ledger.transaction?_parted split found)
      simp only [ends_bind, ends_update, ends_ask]
      rw [Ledger.parted] at rest
      rw [rest]
      dsimp only
      cases isSource : (transaction.drop split).source? with
      | none => exact left transaction releases isSource
      | some source =>
        refine ends_onFault.mpr ((settles transaction source releases isSource).imp fun result after ends => ?_)
        cases result with
        | ok _ => exact ends
        | error fault =>
          dsimp only at ends ⊢
          cases place : transaction.splits.idxOf? split with
          | none => exact place ▸ ends
          | some index => exact place ▸ ends

theorem ends_adopt :
    (adopt rebalanceSplit owner split).Ends ledger property ↔
      (rebalanceSplit split).Ends ((ledger.joined owner split).mark split) property := .rfl

/-- A split that is appended comes from no transaction, moves within its own, or is released by another. -/
theorem ends_appendSplit_of (refused : ∀ fault, property (.error fault) ledger)
    (comes : ∀ entry, ledger.checkOpen owner = .ok () → ledger.split? split = some entry →
      match entry.parent with
      | none => (adopt rebalanceSplit owner split).Ends ledger property
      | some former =>
        if former = owner then
          (adopt rebalanceSplit owner split).Ends (ledger.modifyTransaction owner (·.drop split)) property
        else (release former split).Ends ledger fun result after =>
          match result with
          | .ok _ => (adopt rebalanceSplit owner split).Ends after property
          | .error fault => property (.error fault) after) :
    (appendSplit owner split).Ends ledger property := by
  simp only [appendSplit, ensureOpen_eq, ends_bind, ends_ask]
  cases isOpen : ledger.checkOpen owner with
  | error fault => exact refused fault
  | ok _ =>
    dsimp only
    cases isSplit : ledger.split split with
    | error fault => exact refused fault
    | ok entry =>
      have comes := comes entry isOpen (Ledger.split_eq_ok_iff.mp isSplit)
      dsimp only
      cases parent : entry.parent with
      | none =>
        rw [parent] at comes
        exact comes
      | some former =>
        rw [parent] at comes
        dsimp only at comes ⊢
        rw [ends_ite]
        split
        · rename_i same
          rw [if_pos same] at comes
          rw [ends_bind, ends_update]
          exact comes
        · rename_i different
          rw [if_neg different] at comes
          refine ends_bind.mpr (comes.imp fun result after ends => ?_)
          cases result <;> exact ends

/-- A split that is destroyed takes its transaction along or leaves it with others. -/
theorem ends_destroySplit_of [Journal J α] {holds : Ledger α J → Prop} (start : holds ledger)
    (discards : ∀ owner transaction, ledger.OpenMember split owner transaction →
      (discardTransaction owner).Ends ledger fun _ after => holds after)
    (goes : ∀ owner transaction, ledger.OpenMember split owner transaction →
      2 < transaction.splits.length →
      (rebalanceTransaction owner).Ends (ledger.without owner split) fun _ after => holds after) :
    (destroySplit split).Ends ledger fun _ after => holds after := by
  refine ends_ask_bind start fun entry isSplit => ?_
  cases parent : entry.parent with
  | none => exact start
  | some owner =>
    dsimp only
    rw [ensureOpen_eq]
    refine ends_ask_bind start fun _ isOpen => ends_ask_bind start fun transaction found => ?_
    rw [Ledger.transaction_eq_ok_iff] at found
    obtain ⟨_, again, opens⟩ := Ledger.checkOpen_eq_ok_iff.mp isOpen
    obtain rfl := Option.some.inj (found.symm.trans again)
    have named : ledger.parentOf? split = some owner := by
      rw [Ledger.parentOf?, Ledger.split_eq_ok_iff.mp isSplit, Option.bind_some, parent]
    simp only [ends_ite]
    split
    · exact start
    · rename_i listed
      have member : ledger.OpenMember split owner transaction :=
        ⟨named, found, opens, by simpa using listed⟩
      split
      · exact discards owner transaction member
      · exact goes owner transaction member (by omega)

/-! ## What a move passes on -/

section Keeping

variable {holds : Ledger α J → Prop}

theorem keeps_release_of (parts : ∀ ledger, holds ledger → holds (ledger.parted owner split))
    (rejoins : ∀ ledger place, holds ledger → holds (ledger.rejoined owner split place))
    (each : ∀ source, Keeps holds (rebalanceSplit source)) : Keeps holds (release owner split) := by
  intro ledger start
  refine ends_release_of (fun _ => start) (fun _ _ _ => parts ledger start) fun transaction source _ _ => ?_
  refine (each source _ (parts ledger start)).imp fun result after held => ?_
  cases result with
  | ok _ => exact held
  | error _ => exact rejoins after _ held

theorem keeps_adopt_of (joins : ∀ ledger, holds ledger → holds ((ledger.joined owner split).mark split))
    (each : ∀ source, Keeps holds (rebalanceSplit source)) :
    Keeps holds (adopt rebalanceSplit owner split) :=
  fun ledger start => ends_adopt.mpr (each split _ (joins ledger start))

theorem keeps_appendSplit_of
    (drops : ∀ ledger, holds ledger → holds (ledger.modifyTransaction owner (·.drop split)))
    (releases : ∀ former, Keeps holds (release former split))
    (adopts : Keeps holds (adopt rebalanceSplit owner split)) : Keeps holds (appendSplit owner split) := by
  intro ledger start
  refine ends_appendSplit_of (fun _ => start) fun entry _ _ => ?_
  split
  · exact adopts ledger start
  · split
    · exact adopts _ (drops ledger start)
    · refine (releases _ ledger start).imp fun result after held => ?_
      cases result with
      | ok _ => exact adopts after held
      | error _ => exact held

end Keeping

end Action

end DoubleEntry
