import DoubleEntry.Proofs.Shelter

/-! # What commands leave alone

A command changes the transaction that it names, the transaction of the split that it names, the splits
of these, and the accounts of these splits. `Shelter.keeps_act` says that it spares every shelter of which
it names nothing: nothing in it changes, apart from running balances, and for its members not even these.
Whether the command fails makes no difference.
-/

namespace DoubleEntry

open DoubleEntry.Action

/-- The split that a command is about. -/
def Command.split? {α : Type} : Command α → Option SplitId
  | .discardSplit split | .setPriceAndAmount split _ _ | .setPrice split _ | .setAmount split _
  | .setValue split _ | .setMemo split _ | .setAction split _ | .setSplitDocref split _
  | .setReconcile split _ | .setReconciledOn split _ | .appendSplit _ split | .removeSplit _ split
  | .enterAccount _ split | .leaveAccount split | .otherSplit split | .destroySplit split
  | .splitWorth split _ | .setSplitWorth split _ _ | .commonCommodity _ split
  | .rebalanceSplit split => some split
  | .transactionValue _ skip _ => skip
  | _ => none

/-- The transaction that a command is about. -/
def Command.transaction? {α : Type} : Command α → Option TransactionId
  | .setNum transaction _ | .setDescription transaction _ | .setDocref transaction _
  | .setPosted transaction _ | .setEntered transaction _ | .setDay transaction _ _ _
  | .setToday transaction | .setCaption transaction _ _ | .appendSplit transaction _
  | .removeSplit transaction _ | .beginEdit transaction _ | .commitEdit transaction
  | .destroyTransaction transaction | .transactionValue transaction _ _
  | .commonCommodity transaction _ | .rebalanceTransaction transaction | .imbalance transaction
  | .isBalanced transaction => some transaction
  | _ => none

/-- The account that a split is to enter. -/
def Command.account? {α : Type} : Command α → Option AccountId
  | .enterAccount account _ => some account
  | _ => none

namespace Shelter

open Ledger

variable {α J : Type} [Scalar α]
variable {shelter : Shelter} {before ledger after : Ledger α J} {id : TransactionId} {split : SplitId}

/-! ## Passes -/

/-- What is spared while no identifier was given out twice. -/
def Stays (shelter : Shelter) (before : Ledger α J) : Ledger α J → Prop :=
  WhileFresh (shelter.Spares before)

theorem Stays.transaction (stays : shelter.Stays before ledger) {found : Transaction}
    (isOwner : ledger.transaction? id = some found) (away : id ∉ shelter.transactions)
    (inside : split ∈ found.splits) (fresh : ledger.minted ≤ 2 ^ 128) : split ∉ shelter.splits :=
  (stays fresh).lists away isOwner split inside

theorem stays_absorbed {target : SplitId} {amount? : Option α} (stays : shelter.Stays before ledger)
    (outside : ledger.minted ≤ 2 ^ 128 → target ∉ shelter.splits) :
    shelter.Stays before (ledger.absorbed target amount?) := by
  intro fresh
  rw [absorbed_sameLinks.minted] at fresh
  have spares := stays fresh
  have away := outside fresh
  have renewed : shelter.Spares before (ledger.withAmount target amount?) := by
    cases amount? with
    | none => exact spares
    | some amount =>
      exact spares.editSplit away (by constructor <;> exact fun _ => rfl)
  exact (renewed.mark away).recompute? fun _ named => spares.homes away named

/-- A pass from a split outside touches its transaction and nothing else. -/
theorem ends_settle_stays {lone : TransactionId → SplitId → Action α J Unit} {edited : SplitId}
    (stays : shelter.Stays before ledger)
    (outside : ledger.minted ≤ 2 ^ 128 → edited ∉ shelter.splits)
    (pairs : ∀ owner split, ledger.split? edited = some split →
      (ledger.minted ≤ 2 ^ 128 → owner ∉ shelter.transactions) →
      (lone owner edited).Ends ledger fun _ after => shelter.Stays before after) :
    (settle lone edited).Ends ledger fun _ after => shelter.Stays before after := by
  have away {split : Split α} {owner : TransactionId} {transaction : Transaction}
      (active : ledger.Active edited split owner transaction) (fresh : ledger.minted ≤ 2 ^ 128) :
      owner ∉ shelter.transactions :=
    (stays fresh).parents (outside fresh) (by simp [parentOf?, active.isSplit, active.parent])
  rw [ends_settle]
  rcases decided : ledger.settlement edited with _ | _ | ⟨transaction, target, base⟩ | ⟨owner, source⟩
  · exact stays
  · exact stays
  · obtain ⟨split, found, active, isTarget, -⟩ := settlement_eq_absorb decided
    dsimp only
    cases ledger.absorption transaction target base with
    | error _ => exact stays
    | ok _ =>
      exact stays_absorbed stays fun fresh => stays.transaction active.isOwner (away active fresh)
        (Transaction.mem_of_target? isTarget) fresh
  · obtain ⟨rfl, split, transaction, base, active, -⟩ := settlement_eq_pair decided
    exact pairs owner split active.isSplit (away active)

theorem stays_withCounterpart {owner : TransactionId} {entry : Split α}
    (stays : shelter.Stays before ledger)
    (outside : ledger.minted ≤ 2 ^ 128 → owner ∉ shelter.transactions)
    (homes : ledger.minted ≤ 2 ^ 128 → ∀ account, entry.account = some account →
      account ∉ shelter.accounts) : shelter.Stays before (ledger.withCounterpart owner entry) := by
  intro fresh
  rw [Ledger.minted_withCounterpart] at fresh
  have spares := stays (by omega)
  have away := outside (by omega)
  have next := spares.next fresh
  have grown : shelter.Spares before { ledger with minted := ledger.minted + 1 } :=
    spares.of_entries rfl rfl rfl (Nat.le_succ _)
  have named := (grown.insertSplit entry.counterpart next nofun (homes (by omega))).setParent next
    fun _ same => Option.some.inj same ▸ away
  exact (named.push next away).mark next

theorem stays_enrolled {account : Option AccountId} (stays : shelter.Stays before ledger)
    (outside : ledger.minted ≤ 2 ^ 128 → split ∉ shelter.splits)
    (homes : ledger.minted ≤ 2 ^ 128 → ∀ id, account = some id → id ∉ shelter.accounts) :
    shelter.Stays before (ledger.enrolled split account) := by
  intro fresh
  rw [enrolled_minted] at fresh
  cases account with
  | none => exact stays fresh
  | some account =>
    have away := homes fresh account rfl
    exact ((stays fresh).registered away (outside fresh)).recompute away

/-- Rebalancing from a split outside. -/
theorem ends_rebalanceSplit_stays {edited : SplitId} (stays : shelter.Stays before ledger)
    (outside : ledger.minted ≤ 2 ^ 128 → edited ∉ shelter.splits) :
    (rebalanceSplit edited).Ends ledger fun _ after => shelter.Stays before after := by
  refine ends_settle_stays stays outside fun owner entry found away => ?_
  rw [ends_addCounterpart (split_eq_ok_iff.mpr found)]
  have homes (fresh : ledger.minted ≤ 2 ^ 128) (account : AccountId)
      (named : entry.account = some account) : account ∉ shelter.accounts :=
    (stays fresh).homes (outside fresh) ((accountOf?_eq found).trans named)
  have paired := stays_withCounterpart stays away homes
  have next (fresh : ledger.minted + 1 ≤ 2 ^ 128) : ledger.nextSplit ∉ shelter.splits :=
    (stays (by omega)).next fresh
  have minted : (ledger.withCounterpart owner entry).minted = ledger.minted + 1 :=
    Ledger.minted_withCounterpart
  have settles : (settle (fun _ _ => pure ()) ledger.nextSplit).Ends
      (ledger.withCounterpart owner entry) fun _ after => shelter.Stays before after :=
    ends_settle_stays paired (fun fresh => next (minted ▸ fresh))
      fun _ _ _ _ => ends_pure.mpr paired
  refine ((ends_settle_sameLinks _).and settles).imp fun result after ends => ?_
  cases result with
  | error _ => exact ends.2
  | ok _ =>
    have same : after.minted = ledger.minted + 1 := ends.1.minted.trans minted
    exact stays_enrolled ends.2 (fun fresh => next (same ▸ fresh)) fun fresh => homes (by omega)

/-! ## Steps -/

/-- A step that spares the shelter and takes no identifier back. -/
theorem keeps_spares {change : Ledger α J → Ledger α J}
    (grows : ∀ ledger, ledger.minted ≤ (change ledger).minted)
    (spares : ∀ ledger, shelter.Spares before ledger → shelter.Spares before (change ledger)) :
    Keeps (shelter.Stays before) (update change) :=
  (keeps_update spares).whileFresh grows

theorem keeps_mark (outside : split ∉ shelter.splits) :
    Keeps (shelter.Stays before) (update (·.mark split)) :=
  keeps_spares (fun ledger => (ledger.mark_alike split).minted.ge) fun _ spares => spares.mark outside

theorem keeps_markTransaction (outside : id ∉ shelter.transactions) :
    Keeps (shelter.Stays before) (update (·.markTransaction id)) :=
  keeps_spares (fun ledger => (ledger.markTransaction_alike id).minted.ge) fun _ spares =>
    spares.markTransaction outside

theorem keeps_recompute {account : AccountId} (outside : account ∉ shelter.accounts) :
    Keeps (shelter.Stays before) (update (·.recompute account)) :=
  keeps_spares (fun ledger => (ledger.recompute_alike account).minted.ge) fun _ spares =>
    spares.recompute outside

theorem keeps_modifySplit {change : Split α → Split α} (outside : split ∉ shelter.splits)
    (keeps : Split.KeepsLinks change) :
    Keeps (shelter.Stays before) (update (·.modifySplit split change)) :=
  keeps_spares (fun _ => le_rfl) fun _ spares => spares.editSplit outside keeps

theorem keeps_modifyTransaction {change : Transaction → Transaction}
    (outside : id ∉ shelter.transactions)
    (keeps : ∀ transaction, (change transaction).splits = transaction.splits) :
    Keeps (shelter.Stays before) (update (·.modifyTransaction id change)) :=
  keeps_spares (fun _ => le_rfl) fun _ spares =>
    spares.modifyTransaction outside fun transaction _ listed => .inl (keeps transaction ▸ listed)

theorem keeps_mint : Keeps (shelter.Stays before) mint :=
  fun _ stays fresh => (stays ((Nat.le_succ _).trans fresh)).of_entries rfl rfl rfl (Nat.le_succ _)

theorem keeps_enterRegister {account : AccountId} (away : account ∉ shelter.accounts)
    (outside : split ∉ shelter.splits) :
    Keeps (shelter.Stays before) (enterRegister account split) := by
  intro ledger stays
  rw [ends_enterRegister]
  exact fun fresh => (stays fresh).registered away outside

theorem keeps_rebalanceSplit (outside : split ∉ shelter.splits) :
    Keeps (shelter.Stays before) (rebalanceSplit split) :=
  fun _ stays => ends_rebalanceSplit_stays stays fun _ => outside

/-- Rebalancing from the source of a transaction outside. -/
theorem ends_rebalanceTransaction_stays (stays : shelter.Stays before ledger)
    (away : ledger.minted ≤ 2 ^ 128 → id ∉ shelter.transactions) :
    (rebalanceTransaction id).Ends ledger fun _ after => shelter.Stays before after := by
  rw [rebalanceTransaction, ends_bind, ends_ask]
  cases found : ledger.transaction id with
  | error _ => exact stays
  | ok transaction =>
    rw [transaction_eq_ok_iff] at found
    dsimp only
    cases isSource : transaction.source? with
    | none => exact stays
    | some source =>
      exact ends_rebalanceSplit_stays stays fun fresh =>
        stays.transaction found (away fresh) (List.mem_of_mem_head? isSource) fresh

theorem keeps_rebalanceTransaction (outside : id ∉ shelter.transactions) :
    Keeps (shelter.Stays before) (rebalanceTransaction id) :=
  fun _ stays => ends_rebalanceTransaction_stays stays fun _ => outside

/-! ## Fields -/

theorem keeps_editSplit {change : Split α → Split α} (outside : split ∉ shelter.splits)
    (keeps : Split.KeepsLinks change) : Keeps (shelter.Stays before) (editSplit split change) :=
  (keeps_ensureEditable split).bind fun _ => (keeps_modifySplit outside keeps).bind fun _ =>
    keeps_mark outside

theorem keeps_setReconcile (outside : split ∉ shelter.splits) (state : Reconcile) :
    Keeps (shelter.Stays before) (setReconcile split state) := by
  have edits : Keeps (shelter.Stays before) (editSplit (J := J) split fun s => { s with reconcile := state }) :=
    keeps_editSplit outside (by constructor <;> exact fun _ => rfl)
  refine edits.bind fun _ ledger stays => ends_ask_bind stays fun entry found fresh => ?_
  have spares := stays ((ledger.recompute?_alike entry.account).minted ▸ fresh)
  exact spares.recompute? fun id named => spares.homes outside <|
    (accountOf?_eq (split_eq_ok_iff.mp found)).trans named

theorem keeps_editNumbers {change : Split α → Split α} (outside : split ∉ shelter.splits)
    (keeps : Split.KeepsLinks change) : Keeps (shelter.Stays before) (editNumbers split change) :=
  (keeps_ensureEditable split).bind fun _ => (keeps_mark outside).bind fun _ =>
    (keeps_modifySplit outside keeps).bind fun _ => keeps_rebalanceSplit outside

theorem keeps_setValue (outside : split ∉ shelter.splits) (value : α) :
    Keeps (shelter.Stays before) (setValue split value) :=
  (keeps_ensureFinite _ _).bind fun _ => (keeps_ensureEditable split).bind fun _ =>
    keeps_ask.bind fun _ => keeps_raise.ite <|
      keeps_editNumbers outside (by constructor <;> exact fun _ => rfl)

theorem keeps_applyWorth (outside : split ∉ shelter.splits) (value : α) (base : Option Commodity) :
    Keeps (shelter.Stays before) (applyWorth split value base) := by
  have renewed (amount : α) : Keeps (shelter.Stays before)
      (update (J := J) (·.modifySplit split fun s => { s with amount })) :=
    keeps_modifySplit outside (by constructor <;> exact fun _ => rfl)
  refine keeps_ask.bind fun entry => keeps_ask.bind fun valuation => ?_
  cases valuation with
  | priced => exact (keeps_report.bind fun _ => keeps_pure).ite ((renewed _).bind fun _ => keeps_pure)
  | shares => exact (renewed _).bind fun _ => keeps_pure
  | inexpressible => exact keeps_report.bind fun _ => keeps_pure

theorem keeps_setSplitWorth (outside : split ∉ shelter.splits) (value : α) (base : Option Commodity) :
    Keeps (shelter.Stays before) (setSplitWorth split value base) :=
  (keeps_ensureFinite _ _).bind fun _ => (keeps_ensureEditable split).bind fun _ =>
    (keeps_applyWorth outside value base).bind fun _ => keeps_mark outside

theorem keeps_editTransaction {change : Transaction → Transaction}
    (outside : id ∉ shelter.transactions)
    (keeps : ∀ transaction, (change transaction).splits = transaction.splits) :
    Keeps (shelter.Stays before) (editTransaction id change) :=
  (keeps_ensureOpen id).bind fun _ => (keeps_modifyTransaction outside keeps).bind fun _ =>
    keeps_markTransaction outside

theorem keeps_reposition (outside : split ∉ shelter.splits) :
    Keeps (shelter.Stays before) (reposition split) := by
  intro ledger stays
  rw [reposition, ends_bind, ends_read]
  cases within : ledger.accountOf? split with
  | none => exact stays
  | some account =>
    dsimp only
    rw [ends_bind, ends_update, ends_enterRegister]
    intro fresh
    have spares := stays fresh
    have away := spares.homes outside within
    exact (spares.leaveRegister away split).registered away outside

theorem keeps_setPosted (outside : id ∉ shelter.transactions) (posted : Instant) :
    Keeps (shelter.Stays before) (setPosted id posted) := by
  refine (keeps_ensureOpen id).bind fun _ =>
    (keeps_modifyTransaction outside (by exact fun _ => rfl)).bind fun _ ledger stays => ?_
  have counted : OfLinks fun after : Ledger α J => ledger.minted ≤ after.minted :=
    OfLinks.minted_ge ledger.minted
  refine ends_whileFresh ?_ fun fresh => ?_
  · exact (keeps_read.bind fun _ => (keeps_forM fun split _ => counted.reposition split).bind fun _ =>
      counted.markTransaction id) ledger le_rfl
  · rw [ends_bind, ends_read]
    exact ((keeps_forM fun split listed =>
      keeps_reposition ((stays fresh).splitsOf outside split listed)).bind fun _ =>
        keeps_markTransaction outside) ledger stays

theorem keeps_setDates (outside : id ∉ shelter.transactions) (date : Instant) :
    Keeps (shelter.Stays before) (setDates id date) :=
  (keeps_ensureOpen id).bind fun _ =>
    (keeps_modifyTransaction outside (by exact fun _ => rfl)).bind fun _ =>
      keeps_setPosted outside date

theorem keeps_setDay (outside : id ∉ shelter.transactions) (day month : Nat) (year : Int) :
    Keeps (shelter.Stays before) (setDay id day month year) := by
  unfold setDay
  split
  · exact keeps_setDates outside _
  · exact keeps_raise

/-- A text that is set on a split outside gives out no identifier. -/
theorem ends_setCaptionOf_stays (caption : Caption) (text : String)
    (stays : shelter.Stays before ledger)
    (outside : ledger.minted ≤ 2 ^ 128 → split ∉ shelter.splits) :
    (setCaptionOf split caption text).Ends ledger fun _ after =>
      shelter.Stays before after ∧ after.minted = ledger.minted := by
  rw [setCaptionOf, ends_bind, ends_ask]
  cases ledger.split split with
  | error _ => exact ⟨stays, rfl⟩
  | ok _ =>
    simp only [ends_bind, ends_update]
    have minted := ((ledger.modifySplit split (·.setCaption caption text)).mark_alike split).minted
    refine ⟨fun fresh => ?_, minted⟩
    rw [minted] at fresh
    have away := outside fresh
    exact ((stays fresh).editSplit away (Split.keepsLinks_setCaption caption text)).mark away

theorem keeps_setCaption (outside : id ∉ shelter.transactions) (caption : Caption) (text : String) :
    Keeps (shelter.Stays before) (setCaption id caption text) := by
  refine (keeps_ensureOpen id).bind fun _ ledger stays => ?_
  rw [ends_bind, ends_ask]
  cases found : ledger.transaction id with
  | error _ => exact stays
  | ok transaction =>
    have listed (split : SplitId) (inside : split ∈ transaction.splits)
        (fresh : ledger.minted ≤ 2 ^ 128) : split ∉ shelter.splits :=
      stays.transaction (transaction_eq_ok_iff.mp found) outside inside fresh
    have sets (split : SplitId) (inside : split ∈ transaction.splits) :=
      ends_setCaptionOf_stays caption text stays (listed split inside)
    dsimp only
    rcases shape : transaction.splits with _ | ⟨first, _ | ⟨second, _ | ⟨third, rest⟩⟩⟩
    · exact stays
    · have once := (sets first (by simp [shape])).imp fun _ _ ends => ends.1
      simp only [ends_bind, ends_read, ends_ite, ends_ask]
      split
      · cases ledger.split first with
        | error _ => exact stays
        | ok _ =>
          dsimp only
          split
          · exact once
          · exact stays
      · exact once
    · dsimp only
      rw [ends_bind]
      refine (sets first (by simp [shape])).imp fun result after ends => ?_
      cases result with
      | error _ => exact ends.1
      | ok _ =>
        have next (fresh : after.minted ≤ 2 ^ 128) : second ∉ shelter.splits :=
          listed second (by simp [shape]) (ends.2 ▸ fresh)
        exact (ends_setCaptionOf_stays caption text ends.1 next).imp fun _ _ ends => ends.1
    · exact (sets first (by simp [shape])).imp fun _ _ ends => ends.1

/-! ## Coming, going and moving -/

theorem keeps_createSplit : Keeps (shelter.Stays before) createSplit := by
  intro ledger stays fresh
  change ledger.minted + 1 ≤ 2 ^ 128 at fresh
  have spares := stays (by omega)
  have grown : shelter.Spares before { ledger with minted := ledger.minted + 1 } :=
    spares.of_entries rfl rfl rfl (Nat.le_succ _)
  exact grown.insertSplit .empty (spares.next fresh) nofun nofun

theorem keeps_createTransaction : Keeps (shelter.Stays before) createTransaction := by
  intro ledger stays fresh
  change ledger.minted + 2 ≤ 2 ^ 128 at fresh
  have spares := stays (by omega)
  have next : ledger.nextSplit ∉ shelter.splits := spares.next (by omega)
  let id : TransactionId := ⟨Ident.ofNat (ledger.minted + 1)⟩
  have new : id ∉ shelter.transactions := by
    intro inside
    have below := spares.transactionBelow inside
    rw [Links.toNat_ofNat (by omega)] at below
    omega
  have grown : shelter.Spares before { ledger with minted := ledger.minted + 2 } :=
    spares.of_entries rfl rfl rfl (Nat.le_add_right _ 2)
  have inserted := grown.insertSplit { (.empty : Split α) with parent := some id } next
    (fun _ named => Option.some.inj named ▸ new) nofun
  exact inserted.insertTransaction (.ofSource ledger.nextSplit) new fun _ listed => by
    rwa [List.mem_singleton.mp listed]

theorem keeps_discardSplit (outside : split ∉ shelter.splits) :
    Keeps (shelter.Stays before) (discardSplit split) := by
  refine keeps_ask.bind fun entry => ?_
  cases entry.parent with
  | some _ => exact keeps_raise
  | none =>
    refine keeps_update fun ledger stays fresh => ?_
    rw [minted_eraseSplit] at fresh
    exact (stays fresh).eraseSplit outside

/-- A transaction outside loses a split outside and settles what is left, or keeps it. -/
theorem ends_release_stays (stays : shelter.Stays before ledger) (outside : split ∉ shelter.splits)
    (away : ledger.minted ≤ 2 ^ 128 → id ∉ shelter.transactions) :
    (release id split).Ends ledger fun _ after => shelter.Stays before after := by
  have parted : shelter.Stays before (ledger.parted id split) :=
    fun fresh => ((stays fresh).drop split (away fresh)).setParent outside (by simp)
  refine ends_release_of (fun _ => stays) (fun _ _ _ => parted) fun transaction source releases isSource => ?_
  have rest : (ledger.parted id split).transaction? id = some (transaction.drop split) :=
    transaction?_parted split releases.isOwner
  have listed (fresh : (ledger.parted id split).minted ≤ 2 ^ 128) : source ∉ shelter.splits :=
    parted.transaction rest (away fresh) (List.mem_of_mem_head? isSource) fresh
  have grows : (rebalanceSplit source).Ends (ledger.parted id split) fun _ after =>
      ledger.minted ≤ after.minted := ends_rebalanceSplit_minted source
  refine (grows.and (ends_rebalanceSplit_stays parted listed)).imp fun result after ends => ?_
  cases result with
  | ok _ => exact ends.2
  | error _ =>
    intro fresh
    rw [minted_rejoined] at fresh
    cases transaction.splits.idxOf? split with
    | none => exact ends.2 fresh
    | some index =>
      have still : id ∉ shelter.transactions := away (ends.1.trans fresh)
      exact ((ends.2 fresh).insertAt index outside still).setParent outside
        fun _ same => Option.some.inj same ▸ still

theorem keeps_adopt (outside : split ∉ shelter.splits) (away : id ∉ shelter.transactions) :
    Keeps (shelter.Stays before) (adopt rebalanceSplit id split) := by
  refine (keeps_update fun _ stays fresh => (stays fresh).setParent outside ?_).bind fun _ =>
    (keeps_update fun _ stays fresh => (stays fresh).push outside away).bind fun _ =>
      (keeps_mark outside).bind fun _ => keeps_rebalanceSplit outside
  exact fun _ same => Option.some.inj same ▸ away

theorem keeps_drop (away : id ∉ shelter.transactions) : Keeps (shelter.Stays before)
    (update (J := J) (α := α) (·.modifyTransaction id (·.drop split))) :=
  keeps_update fun _ stays fresh => (stays fresh).drop split away

/-- A split outside is in a transaction outside, if it is in one, and moves to another. -/
theorem keeps_appendSplit (outside : split ∉ shelter.splits) (away : id ∉ shelter.transactions) :
    Keeps (shelter.Stays before) (appendSplit id split) := by
  intro ledger stays
  refine ends_appendSplit_of (fun _ => stays) fun entry _ isSplit => ?_
  cases parent : entry.parent with
  | none => exact keeps_adopt outside away ledger stays
  | some owner =>
    dsimp only
    split
    · exact keeps_adopt outside away _ (keeps_drop away ledger stays)
    · have apart (fresh : ledger.minted ≤ 2 ^ 128) : owner ∉ shelter.transactions :=
        (stays fresh).parents outside (by simp [parentOf?, isSplit, parent])
      refine (ends_release_stays stays outside apart).imp fun result after released => ?_
      cases result with
      | error _ => exact released
      | ok _ => exact keeps_adopt outside away after released

theorem keeps_removeSplit (outside : split ∉ shelter.splits) (away : id ∉ shelter.transactions) :
    Keeps (shelter.Stays before) (removeSplit id split) :=
  (keeps_ensureOpen id).bind fun _ => keeps_ask.bind fun _ => keeps_raise.ite <| keeps_raise.ite <|
    (keeps_drop away).bind fun _ => Keeps.bind
      (keeps_update fun _ stays fresh => (stays fresh).setParent outside (by simp))
      fun _ => keeps_mark outside

theorem keeps_vacate (outside : split ∉ shelter.splits) :
    Keeps (shelter.Stays before) (update (J := J) (Ledger.leaveAccount (α := α) split)) :=
  keeps_spares (fun _ => minted_leaveAccount.ge) fun _ spares => spares.leaveAccount outside

theorem keeps_setAccount {account : Option AccountId} (outside : split ∉ shelter.splits)
    (away : ∀ id, account = some id → id ∉ shelter.accounts) : Keeps (shelter.Stays before)
      (update (J := J) (α := α) (·.modifySplit split fun s => { s with account })) :=
  keeps_spares (fun _ => le_rfl) fun _ spares => spares.setAccount outside away

theorem keeps_enterAccount {account : AccountId} (outside : split ∉ shelter.splits)
    (away : account ∉ shelter.accounts) :
    Keeps (shelter.Stays before) (enterAccount account split) := by
  have home (id : AccountId) (same : some account = some id) : id ∉ shelter.accounts :=
    Option.some.inj same ▸ away
  exact keeps_ask.bind fun _ => (keeps_ensureEditable split).bind fun _ =>
    (keeps_vacate outside).bind fun _ => (keeps_setAccount outside home).bind fun _ =>
      (keeps_enterRegister away outside).bind fun _ => keeps_recompute away

theorem keeps_leaveAccount (outside : split ∉ shelter.splits) :
    Keeps (shelter.Stays before) (leaveAccount split) :=
  (keeps_ensureEditable split).bind fun _ => (keeps_vacate outside).bind fun _ =>
    keeps_setAccount outside nofun

/-! ## Sessions -/

theorem Spares.restoreOrder {splits : List SplitId} (spares : shelter.Spares before ledger)
    (outside : ∀ split ∈ splits, split ∉ shelter.splits) :
    shelter.Spares before (ledger.restoreOrder splits) := by
  unfold Ledger.restoreOrder
  induction splits generalizing ledger with
  | nil => exact spares
  | cons split rest ih =>
    have away := outside split List.mem_cons_self
    refine ih ?_ fun other later => outside other (List.mem_cons_of_mem split later)
    dsimp only
    cases named : ledger.accountOf? split with
    | none => exact spares
    | some account =>
      dsimp only [Book.restoreOrder]
      split
      · exact spares.registered (spares.homes away named) away
      · exact spares

theorem Spares.recomputeAll {splits : List SplitId} (spares : shelter.Spares before ledger)
    (outside : ∀ split ∈ splits, split ∉ shelter.splits) :
    shelter.Spares before (ledger.recomputeAll splits) := by
  have away : ∀ account ∈ (splits.filterMap ledger.accountOf?).eraseDups,
      account ∉ shelter.accounts := by
    intro account inside
    obtain ⟨split, listed, named⟩ := List.mem_filterMap.mp (List.mem_eraseDups.mp inside)
    exact spares.homes (outside split listed) named
  unfold Ledger.recomputeAll
  generalize (splits.filterMap ledger.accountOf?).eraseDups = accounts at away ⊢
  induction accounts generalizing ledger with
  | nil => exact spares
  | cons account rest ih =>
    exact ih (spares.recompute (away account List.mem_cons_self))
      fun other later => away other (List.mem_cons_of_mem account later)

theorem keeps_toJournal (call : J → Except JournalFault Unit × J) :
    Keeps (shelter.Stays before) (toJournal call) :=
  fun _ stays fresh => (stays fresh).of_entries rfl rfl rfl le_rfl

variable [Journal J α]

theorem keeps_writeRecord (kind : EventKind) (id : TransactionId) :
    Keeps (shelter.Stays before) (writeRecord kind id) :=
  keeps_ask.bind fun _ => keeps_read.bind fun _ => keeps_mint.bind fun _ => keeps_toJournal _

theorem keeps_beginEdit (outside : id ∉ shelter.transactions) (defer : Bool) :
    Keeps (shelter.Stays before) (beginEdit id defer) :=
  keeps_ask.bind fun _ => (keeps_modifyTransaction outside (by exact fun _ => rfl)).bind fun _ =>
    (keeps_toJournal _).bind fun _ => keeps_writeRecord _ id

theorem keeps_closeEdit (outside : id ∉ shelter.transactions) :
    Keeps (shelter.Stays before) (closeEdit id) := by
  intro ledger stays
  have counted : OfLinks fun after : Ledger α J => ledger.minted ≤ after.minted :=
    OfLinks.minted_ge ledger.minted
  refine ends_whileFresh (counted.closeEdit id ledger le_rfl) fun fresh => ?_
  refine ends_ask_bind stays fun transaction found => ?_
  have away := (stays fresh).lists outside (transaction_eq_ok_iff.mp found)
  have restores : Keeps (shelter.Stays before) (update (J := J) (α := α)
      (·.restoreOrder transaction.splits)) :=
    keeps_spares (fun _ => (OfLinks.minted_ge _).restoreOrder _ _ le_rfl) fun _ spares =>
      spares.restoreOrder away
  have recomputes : Keeps (shelter.Stays before) (update (J := J) (α := α)
      (·.recomputeAll transaction.splits)) :=
    keeps_spares (fun _ => (OfLinks.minted_ge _).recomputeAll _ _ le_rfl) fun _ spares =>
      spares.recomputeAll away
  exact (restores.bind fun _ => recomputes.bind fun _ =>
    (keeps_modifyTransaction outside (by exact fun _ => rfl)).bind fun _ =>
      keeps_writeRecord _ id) ledger stays

theorem keeps_commitEdit (outside : id ∉ shelter.transactions) :
    Keeps (shelter.Stays before) (commitEdit id) := by
  rw [commitEdit_eq]
  exact (keeps_ensureOpen id).bind fun _ =>
    (keeps_modifyTransaction outside (by exact fun _ => rfl)).bind fun _ =>
      (keeps_rebalanceTransaction outside).bind fun _ => keeps_closeEdit outside

theorem ends_discardTransaction_stays (stays : shelter.Stays before ledger)
    (away : ledger.minted ≤ 2 ^ 128 → id ∉ shelter.transactions) :
    (discardTransaction id).Ends ledger fun _ after => shelter.Stays before after := by
  rw [discardTransaction, ends_bind]
  have grows := (OfLinks.minted_ge ledger.minted).writeRecord .destroyed id ledger le_rfl
  have spares := keeps_writeRecord .destroyed id ledger stays
  refine Ends.imp (grows.and spares) fun result after ends => ?_
  cases result with
  | error _ => exact ends.2
  | ok _ =>
    dsimp only
    rw [ends_bind, ends_ask]
    cases found : after.transaction id with
    | error _ => exact ends.2
    | ok transaction =>
      simp only [ends_bind, ends_update]
      intro fresh
      have kept : after.minted ≤ 2 ^ 128 := minted_eraseSplits transaction.splits after ▸ fresh
      have outside : id ∉ shelter.transactions := away (ends.1.trans kept)
      have erased := (ends.2 kept).eraseSplits transaction.splits fun split inside =>
        Stays.transaction ends.2 (transaction_eq_ok_iff.mp found) outside inside kept
      exact erased.eraseTransaction outside

theorem keeps_destroySplit (outside : split ∉ shelter.splits) :
    Keeps (shelter.Stays before) (destroySplit split) := by
  intro ledger stays
  have away {owner transaction} (member : ledger.OpenMember split owner transaction)
      (fresh : ledger.minted ≤ 2 ^ 128) : owner ∉ shelter.transactions :=
    (stays fresh).parents outside member.parent
  refine ends_destroySplit_of stays
    (fun _ _ member => ends_discardTransaction_stays stays (away member)) fun owner _ member _ => ?_
  refine ends_rebalanceTransaction_stays (fun fresh => ?_) fun fresh => ?_
  · rw [minted_without] at fresh
    exact (((stays fresh).mark outside).drop split (away member fresh)).eraseSplit outside
  · rw [minted_without] at fresh
    exact away member fresh

/-! ## All commands -/

/-- A command that names nothing in a shelter leaves everything in it as it was. -/
theorem keeps_act (command : Command α)
    (splits : ∀ split, command.split? = some split → split ∉ shelter.splits)
    (transactions : ∀ id, command.transaction? = some id → id ∉ shelter.transactions)
    (accounts : ∀ id, command.account? = some id → id ∉ shelter.accounts) :
    Keeps (shelter.Stays before) (command.act (J := J)) := by
  cases command with
  | createSplit => exact keeps_createSplit.bind fun _ => keeps_pure
  | createTransaction => exact keeps_createTransaction.bind fun _ => keeps_pure
  | discardSplit split => exact keeps_done (keeps_discardSplit (splits split rfl))
  | setPriceAndAmount split price amount =>
    exact keeps_done <| (keeps_ensureFinite _ _).bind fun _ => (keeps_ensureFinite _ _).bind fun _ =>
      keeps_editNumbers (splits split rfl) (by constructor <;> exact fun _ => rfl)
  | setPrice split _ | setAmount split _ =>
    exact keeps_done <| (keeps_ensureFinite _ _).bind fun _ =>
      keeps_editNumbers (splits split rfl) (by constructor <;> exact fun _ => rfl)
  | setValue split value => exact keeps_done (keeps_setValue (splits split rfl) value)
  | setMemo split _ | setAction split _ | setSplitDocref split _ | setReconciledOn split _ =>
    exact keeps_done (keeps_editSplit (splits split rfl) (by constructor <;> exact fun _ => rfl))
  | setReconcile split state => exact keeps_done (keeps_setReconcile (splits split rfl) state)
  | setNum id _ | setDescription id _ | setDocref id _ | setEntered id _ =>
    exact keeps_done (keeps_editTransaction (transactions id rfl) (by exact fun _ => rfl))
  | setPosted id date => exact keeps_done (keeps_setPosted (transactions id rfl) date)
  | setDay id day month year => exact keeps_done (keeps_setDay (transactions id rfl) day month year)
  | setToday id =>
    exact keeps_done (keeps_read.bind fun _ => keeps_setDates (transactions id rfl) _)
  | setCaption id caption text =>
    exact keeps_done (keeps_setCaption (transactions id rfl) caption text)
  | appendSplit id split =>
    exact keeps_done (keeps_appendSplit (splits split rfl) (transactions id rfl))
  | removeSplit id split =>
    exact keeps_done (keeps_removeSplit (splits split rfl) (transactions id rfl))
  | enterAccount account split =>
    exact keeps_done (keeps_enterAccount (splits split rfl) (accounts account rfl))
  | leaveAccount split => exact keeps_done (keeps_leaveAccount (splits split rfl))
  | otherSplit split => exact (keeps_otherSplit split).bind fun _ => keeps_pure
  | beginEdit id defer => exact keeps_done (keeps_beginEdit (transactions id rfl) defer)
  | commitEdit id => exact keeps_done (keeps_commitEdit (transactions id rfl))
  | destroyTransaction id =>
    exact keeps_done <| (keeps_ensureOpen id).bind fun _ _ stays =>
      ends_discardTransaction_stays stays fun _ => transactions id rfl
  | destroySplit split => exact keeps_done (keeps_destroySplit (splits split rfl))
  | splitWorth split base => exact (keeps_splitWorth split base).bind fun _ => keeps_pure
  | setSplitWorth split value base =>
    exact keeps_done (keeps_setSplitWorth (splits split rfl) value base)
  | transactionValue | commonCommodity | imbalance | isBalanced =>
    exact keeps_ask.bind fun _ => keeps_pure
  | rebalanceSplit split => exact keeps_done (keeps_rebalanceSplit (splits split rfl))
  | rebalanceTransaction id =>
    exact keeps_done (keeps_rebalanceTransaction (transactions id rfl))

end Shelter

end DoubleEntry
