import DoubleEntry.Proofs.Membership
import DoubleEntry.Proofs.Noted
import DoubleEntry.Proofs.Reach

/-! # No change goes unmarked

Every command flags the accounts that it changes, whether or not it fails. Most operations write a split
and mark its account, or mark it and write; a transaction is marked through the splits that it lists, so
it matters that it lists all that are part of it. The one operation that takes back what it wrote, a move
whose rebalancing fails, leaves everything as it was.
-/

namespace DoubleEntry

open DoubleEntry.Action Ledger

namespace Marking

variable {α J : Type} [Scalar α] {splits : Set SplitId} {transactions : Set TransactionId}
  {before ledger : Ledger α J} {split : SplitId} {owner : TransactionId}

/-- What is noted while no identifier was given out twice. -/
def Notes (before : Ledger α J) : Ledger α J → Prop := WhileFresh (before.Noted ∅ ∅)

/-! ## Passes -/

/-- A split with a new amount is owed a flag. -/
theorem noted_withAmount (amount? : Option α) : ledger.Noted {split} ∅ (ledger.withAmount split amount?) := by
  cases amount? with
  | none => exact .refl ledger
  | some amount => exact (Noted.refl ledger).modifySplit fun _ => rfl

theorem noted_absorbed {amount? : Option α} : ledger.Noted ∅ ∅ (ledger.absorbed split amount?) :=
  (noted_withAmount amount?).mark.next (noted_recompute? _)

/-- The counterpart is new, and its account is marked. -/
theorem noted_withCounterpart (new : ledger.split? ledger.nextSplit = none) (entry : Split α) :
    ledger.Noted ∅ ∅ (ledger.withCounterpart owner entry) := by
  refine .of_split ledger.nextSplit (noted_mark ledger.nextSplit).account
    (fun other different => by rw [split?_withCounterpart different]) (fun _ parent _ _ => ?_)
    (fun id within => ?_) fun id within => changed?_mark ?_
  · rw [transaction?_withCounterpart]
    split
    · rw [Option.map_map]
      rfl
    · rfl
  · rw [accountOf?, new] at within
    cases within
  · exact (accountOf?_mark _).symm.trans within

theorem noted_enrolled (split : SplitId) (account : Option AccountId) :
    ledger.Noted ∅ ∅ (ledger.enrolled split account) := by
  cases account with
  | none => exact .refl ledger
  | some account => exact (noted_registered account split).trans (noted_recompute account)

theorem ends_settle {lone : TransactionId → SplitId → Action α J Unit} {edited : SplitId}
    (pairs : ∀ owner entry, ledger.split? edited = some entry →
      (lone owner edited).Ends ledger fun _ after => Notes ledger after) :
    (settle lone edited).Ends ledger fun _ after => Notes ledger after := by
  rw [Action.ends_settle]
  rcases decided : ledger.settlement edited with _ | _ | ⟨transaction, target, base⟩ | ⟨owner, source⟩
  · exact fun _ => .refl ledger
  · exact fun _ => .refl ledger
  · dsimp only
    cases ledger.absorption transaction target base with
    | error _ => exact fun _ => .refl ledger
    | ok _ => exact fun _ => noted_absorbed
  · obtain ⟨rfl, entry, _, _, active, -⟩ := settlement_eq_pair decided
    exact pairs owner entry active.isSplit

theorem ends_rebalanceSplit (owned : WhileFresh Owned ledger) (edited : SplitId) :
    (rebalanceSplit edited).Ends ledger fun _ after => Notes ledger after := by
  refine ends_settle fun owner entry found => ?_
  rw [ends_addCounterpart (split_eq_ok_iff.mpr found)]
  have settles : (settle (fun _ _ => pure ()) ledger.nextSplit).Ends
      (ledger.withCounterpart owner entry) fun _ after =>
        WhileFresh ((ledger.withCounterpart owner entry).Noted ∅ ∅) after :=
    ends_settle fun _ _ _ => ends_pure.mpr fun _ => .refl _
  refine ((ends_settle_sameLinks _).and settles).imp fun result after ends => ?_
  have minted : after.minted = ledger.minted + 1 := ends.1.minted.trans minted_withCounterpart
  have paired (fresh : after.minted ≤ 2 ^ 128) : ledger.Noted ∅ ∅ after := by
    have small : ledger.minted < 2 ^ 128 := by omega
    exact (noted_withCounterpart ((owned small.le).new small) entry).trans (ends.2 fresh)
  cases result with
  | error _ => exact paired
  | ok _ =>
    intro fresh
    exact (paired (enrolled_minted.symm.le.trans fresh)).trans (noted_enrolled _ _)

/-- Rebalancing goes on from what is noted. -/
theorem notes_rebalanceSplit (notes : Notes before ledger) (owned : WhileFresh Owned ledger)
    (edited : SplitId) : (rebalanceSplit edited).Ends ledger fun _ after => Notes before after := by
  refine Ends.imp (Ends.and (ends_rebalanceSplit_minted edited) (ends_rebalanceSplit owned edited))
    fun _ after ends fresh => ?_
  exact (notes (ends.1.trans fresh)).trans (ends.2 fresh)

theorem notes_rebalanceTransaction (notes : Notes before ledger) (owned : WhileFresh Owned ledger)
    (id : TransactionId) :
    (rebalanceTransaction id).Ends ledger fun _ after => Notes before after := by
  refine ends_ask_bind notes fun transaction _ => ?_
  cases transaction.source? with
  | none => exact notes
  | some source => exact notes_rebalanceSplit notes owned source

/-! ## Fields of splits -/

theorem keeps_noted {change : Ledger α J → Ledger α J}
    (step : ∀ ledger : Ledger α J, ledger.Noted ∅ ∅ (change ledger)) :
    Keeps (before.Noted splits transactions) (update change) :=
  keeps_update fun ledger noted => noted.next (step ledger)

/-- Writing a split and then marking its account. -/
theorem noted_edited {change : Split α → Split α}
    (keeps : ∀ entry, (change entry).account = entry.account) :
    ledger.Noted ∅ ∅ ((ledger.modifySplit split change).mark split) :=
  ((Noted.refl ledger).modifySplit keeps).mark

theorem keeps_editSplit {change : Split α → Split α}
    (keeps : ∀ entry, (change entry).account = entry.account) :
    Keeps (before.Noted ∅ ∅) (editSplit split change) := by
  refine (keeps_ensureEditable split).bind fun _ ledger noted => ?_
  simp only [ends_bind, ends_update]
  exact noted.next (noted_edited keeps)

theorem keeps_setReconcile (state : Reconcile) :
    Keeps (before.Noted ∅ ∅) (setReconcile split state) := by
  have recomputes (account : Option AccountId) :
      Keeps (before.Noted ∅ ∅) (update (Ledger.recompute? account)) :=
    keeps_noted fun _ => noted_recompute? account
  exact (keeps_editSplit (by exact fun _ => rfl)).bind fun _ => keeps_ask.bind fun entry =>
    recomputes entry.account

/-- The new amount leaves a flag owing, which is paid at once. -/
theorem keeps_setSplitWorth (value : α) (base : Option Commodity) :
    Keeps (before.Noted ∅ ∅) (setSplitWorth split value base) := by
  refine (keeps_ensureFinite _ _).bind fun _ => (keeps_ensureEditable split).bind fun _ ledger noted => ?_
  rw [ends_bind]
  cases found : ledger.split split with
  | error _ => simpa only [applyWorth, ends_bind, ends_ask, found] using noted
  | ok entry =>
    cases valued : ledger.valuation split entry base with
    | error _ => simpa only [applyWorth, ends_bind, ends_ask, found, valued] using noted
    | ok valuation =>
      rw [ends_applyWorth found valued]
      exact noted.next (noted_withAmount _).mark

theorem noted_rewritten {change : Split α → Split α}
    (keeps : ∀ entry, (change entry).account = entry.account) :
    ledger.Noted ∅ ∅ ((ledger.mark split).modifySplit split change) := by
  have home : ((ledger.mark split).modifySplit split change).accountOf? split =
      ledger.accountOf? split :=
    (accountOf?_congr (Table.map_get?_modify _ split change Split.account keeps split)).trans
      (accountOf?_mark split)
  refine .of_split split (noted_mark split).account (fun other different => ?_)
    (fun _ _ _ _ => ?_) (fun id within => changed?_mark within) fun id within =>
      changed?_mark (home.symm.trans within)
  · rw [split?_modifySplit, if_neg different, split?_mark]
  · exact congrArg _ (transaction?_mark ..)

theorem ends_editNumbers {change : Split α → Split α} (owned : WhileFresh Owned ledger)
    (keeps : Split.KeepsLinks change) :
    (editNumbers split change).Ends ledger fun _ after => Notes ledger after := by
  rw [editNumbers, ensureEditable_eq]
  refine ends_ask_bind (fun _ => .refl ledger) fun _ _ => ?_
  simp only [ends_bind, ends_update]
  have marked := Ownership.ofLinks.alike (ledger.mark_alike split) owned
  exact notes_rebalanceSplit (fun _ => noted_rewritten keeps.account)
    (Ownership.ofLinks.modifySplit keeps split _ marked) split

theorem ends_setValue (owned : WhileFresh Owned ledger) (value : α) :
    (setValue split value).Ends ledger fun _ after => Notes ledger after := by
  refine ends_finite (fun _ => .refl ledger) ?_
  rw [ensureEditable_eq]
  refine ends_ask_bind (fun _ => .refl ledger) fun _ _ =>
    ends_ask_bind (fun _ => .refl ledger) fun entry _ => ?_
  rw [ends_ite]
  split
  · exact fun _ => .refl ledger
  · exact ends_editNumbers owned (by constructor <;> exact fun _ => rfl)

/-! ## Fields of transactions -/

omit [Scalar α] in
/-- Every split that is part of a transaction is in its list. -/
theorem listed_of_owned (owned : ledger.Owned) (split : SplitId)
    (named : ledger.parentOf? split = some owner) : split ∈ ledger.splitsOf owner := by
  rw [parentOf?_eq_some_iff] at named
  obtain ⟨transaction, found⟩ := owned.known named
  rw [splitsOf_eq found]
  exact (owned.mem_iff found).mpr named

/-- What a transaction is owed is paid by marking its splits. -/
theorem notes_markTransaction (noted : before.Noted ∅ {owner} ledger)
    (owned : WhileFresh Owned ledger) : Notes before (ledger.markTransaction owner) := by
  intro fresh
  have sound := owned ((ledger.markTransaction_alike owner).minted ▸ fresh)
  exact noted.markTransaction (listed_of_owned sound)

theorem ends_editTransaction {change : Transaction → Transaction} (owned : WhileFresh Owned ledger)
    (keeps : ∀ transaction, (change transaction).splits = transaction.splits) :
    (editTransaction owner change).Ends ledger fun _ after => Notes ledger after := by
  rw [editTransaction, ensureOpen_eq]
  refine ends_ask_bind (fun _ => .refl ledger) fun _ _ => ?_
  simp only [ends_bind, ends_update]
  exact notes_markTransaction ((Noted.refl ledger).modifyTransaction)
    (Ownership.ofLinks.modifyTransaction keeps owner ledger owned)

/-- A split that moves within its register flags the account. -/
theorem keeps_reposition : Keeps (before.Noted splits transactions) (reposition split) := by
  refine keeps_read.bind fun account => ?_
  cases account with
  | none => exact keeps_pure
  | some account =>
    refine (keeps_noted fun _ => noted_leaveRegister account split).bind fun _ ledger noted => ?_
    rw [ends_enterRegister]
    exact noted.next (noted_registered account split)

omit [Scalar α] in
theorem ends_repositions (splits : List SplitId) :
    (splits.forM reposition).Ends ledger fun result _ => result = .ok () := by
  induction splits generalizing ledger with
  | nil => exact ends_pure.mpr rfl
  | cons split rest ih =>
    have moves : (reposition split).Ends ledger fun result _ => result = .ok () := by
      rw [reposition, ends_bind, ends_read]
      cases ledger.accountOf? split with
      | none => exact ends_pure.mpr rfl
      | some account =>
        dsimp only
        rw [ends_bind, ends_update, ends_enterRegister]
    change (reposition split >>= fun _ => rest.forM reposition).Ends ledger _
    rw [ends_bind]
    refine moves.imp fun result after succeeds => ?_
    subst succeeds
    exact ih

/-- While the splits move, the transaction is owed a flag for its date. -/
theorem ends_setPosted (noted : before.Noted ∅ {owner} ledger) (owned : WhileFresh Owned ledger)
    (refused : ledger.checkOpen owner ≠ .ok () → before.Noted ∅ ∅ ledger) (date : Instant) :
    (setPosted owner date).Ends ledger fun _ after => Notes before after := by
  simp only [setPosted, ensureOpen_eq, ends_bind, ends_ask, ends_update, ends_read]
  rcases isOpen : ledger.checkOpen owner with _ | ⟨⟨⟩⟩
  · exact fun _ => refused (by simp [isOpen])
  dsimp only
  let holds (ledger : Ledger α J) : Prop := before.Noted ∅ {owner} ledger ∧ WhileFresh Owned ledger
  have moves (splits : List SplitId) : Keeps holds (splits.forM reposition) :=
    keeps_forM fun split _ => keeps_reposition.and (Ownership.ofLinks.reposition split)
  have dated : holds (ledger.modifyTransaction owner fun t => { t with posted := date }) :=
    ⟨noted.modifyTransaction,
      Ownership.ofLinks.modifyTransaction (by exact fun _ => rfl) owner ledger owned⟩
  refine Ends.imp (Ends.and (ends_repositions _) (moves _ _ dated)) fun result after ends => ?_
  obtain ⟨rfl, noted, owned⟩ := ends
  exact notes_markTransaction noted owned

theorem ends_setDates (owned : WhileFresh Owned ledger) (date : Instant) :
    (setDates owner date).Ends ledger fun _ after => Notes ledger after := by
  rw [setDates, ensureOpen_eq]
  refine ends_ask_bind (fun _ => .refl ledger) fun _ isOpen => ?_
  rw [ends_bind, ends_update]
  refine ends_setPosted (Noted.refl ledger).modifyTransaction
    (Ownership.ofLinks.modifyTransaction (by exact fun _ => rfl) owner ledger owned)
    (fun closed => absurd ?_ closed) date
  obtain ⟨transaction, found, opened⟩ := checkOpen_eq_ok_iff.mp isOpen
  refine checkOpen_eq_ok_iff.mpr ⟨{ transaction with entered := date }, ?_, opened⟩
  rw [transaction?_modifyTransaction, if_pos rfl, found]
  rfl

theorem ends_setDay (owned : WhileFresh Owned ledger) (day month : Nat) (year : Int) :
    (setDay owner day month year).Ends ledger fun _ after => Notes ledger after := by
  unfold setDay
  split
  · exact ends_setDates owned _
  · exact fun _ => .refl ledger

/-! ## Texts shared by two splits -/

theorem keeps_setCaptionOf (caption : Caption) (text : String) :
    Keeps (before.Noted ∅ ∅) (setCaptionOf split caption text) := by
  refine keeps_ask.bind fun _ ledger noted => ?_
  simp only [ends_bind, ends_update]
  exact noted.next (noted_edited (Split.keepsLinks_setCaption caption text).account)

theorem keeps_setCaption (caption : Caption) (text : String) :
    Keeps (before.Noted ∅ ∅) (setCaption owner caption text) := by
  refine (keeps_ensureOpen owner).bind fun _ => keeps_ask.bind fun transaction => ?_
  have sets (split : SplitId) : Keeps (before.Noted ∅ ∅) (setCaptionOf split caption text) :=
    keeps_setCaptionOf caption text
  rcases transaction.splits with _ | ⟨first, _ | ⟨second, _ | ⟨third, rest⟩⟩⟩
  · exact keeps_raise
  · exact keeps_read.bind fun _ =>
      (keeps_ask.bind fun _ => (sets first).ite keeps_raise).ite (sets first)
  · exact (sets first).bind fun _ => sets second
  · exact sets first

/-! ## Coming and going -/

/-- A new split is in no account. -/
theorem notes_createSplit (owned : WhileFresh Owned ledger) :
    createSplit.Ends ledger fun _ after => Notes ledger after := by
  intro fresh
  change ledger.minted + 1 ≤ 2 ^ 128 at fresh
  have new := (owned (by omega)).new fresh
  refine .of_split ledger.nextSplit (fun _ => .inl rfl) (fun other different => ?_)
    (fun _ _ _ _ => rfl) (fun id within => ?_) fun id within => ?_
  · exact congrArg _ ((Table.get?_insert ..).trans (if_neg different))
  · rw [accountOf?, new] at within
    cases within
  · obtain ⟨entry, isSplit, within⟩ := Option.bind_eq_some_iff.mp within
    obtain rfl : .empty = entry :=
      Option.some.inj (((Table.get?_insert ..).trans (if_pos rfl)).symm.trans isSplit)
    cases within

/-- A new split is in no account, and no other split is in the new transaction. -/
theorem notes_createTransaction (owned : WhileFresh Owned ledger) :
    createTransaction.Ends ledger fun _ after => Notes ledger after := by
  intro fresh
  change ledger.minted + 2 ≤ 2 ^ 128 at fresh
  have sound := owned (by omega)
  have new := sound.new (by omega)
  have unlisted : ledger.ownership.listed ⟨Ident.ofNat (ledger.minted + 1)⟩ = none :=
    (sound.below.mono (Nat.le_succ _)).listed_next (by omega)
  have others {other : SplitId} (different : other ≠ ledger.nextSplit) :
      (createTransaction ledger).ledger.split? other = ledger.split? other :=
    (Table.get?_insert ..).trans (if_neg different)
  refine .of_split ledger.nextSplit (fun _ => .inl rfl)
    (fun other different => congrArg _ (others different)) (fun other parent different named => ?_)
    (fun id within => ?_) fun id within => ?_
  · refine congrArg _ ((Table.get?_insert ..).trans (if_neg ?_))
    rintro rfl
    rw [parentOf?, others different] at named
    have known : (ledger.ownership.listed ⟨Ident.ofNat (ledger.minted + 1)⟩).isSome :=
      sound.agree.known (parentOf?_eq_some_iff.mp named)
    rw [unlisted] at known
    cases known
  · rw [accountOf?, new] at within
    cases within
  · obtain ⟨entry, isSplit, within⟩ := Option.bind_eq_some_iff.mp within
    obtain rfl := Option.some.inj (((Table.get?_insert ..).trans (if_pos rfl)).symm.trans isSplit)
    cases within

theorem keeps_discardSplit : Keeps (before.Noted ∅ ∅) (discardSplit split) := by
  refine keeps_ask.bind fun entry => ?_
  cases entry.parent with
  | some _ => exact keeps_raise
  | none => exact keeps_noted fun _ => noted_eraseSplit split

/-- A split leaves its account and then no longer names it. -/
theorem noted_vacated : ledger.Noted ∅ ∅
    ((ledger.leaveAccount split).modifySplit split fun s => { s with account := none }) := by
  refine .of_split split (noted_leaveAccount split).account (fun other different => ?_)
    (fun _ _ _ _ => ?_) (fun id within => changed?_leaveAccount within) fun id within => ?_
  · rw [split?_modifySplit, if_neg different, bare_leaveAccount]
  · exact congrArg _ (congrArg (Table.get? · _) transactions_leaveAccount)
  · rw [accountOf?, split?_modifySplit, if_pos rfl] at within
    obtain ⟨entry, isSplit, within⟩ := Option.bind_eq_some_iff.mp within
    obtain ⟨_, _, rfl⟩ := Option.map_eq_some_iff.mp isSplit
    cases within

theorem keeps_leaveAccount : Keeps (before.Noted ∅ ∅) (leaveAccount split) := by
  refine (keeps_ensureEditable split).bind fun _ ledger noted => ?_
  simp only [ends_bind, ends_update]
  exact noted.next noted_vacated

/-- A split names another account and enters its register. -/
theorem noted_entered (account : AccountId) : ledger.Noted ∅ ∅
    (((ledger.leaveAccount split).modifySplit split fun s =>
      { s with account := some account }).registered account split) := by
  have left : ledger.Noted ∅ ∅ (ledger.leaveAccount split) := noted_leaveAccount split
  let named := (ledger.leaveAccount split).modifySplit split fun s => { s with account := some account }
  have enters : named.Noted ∅ ∅ (named.registered account split) := noted_registered account split
  have whole (id : AccountId) : (named.registered account split).account? id = ledger.account? id ∨
      (named.registered account split).changed? id = some true := by
    refine (enters.account id).elim (fun same => ?_) .inr
    rw [changed?, same]
    exact left.account id
  refine .of_split split whole (fun other different => ?_) (fun _ _ _ _ => ?_)
    (fun id within plain => ?_) fun id within => ?_
  · refine (congrArg _ ((split?_modifySplit ..).trans (if_neg different))).trans ?_
    exact bare_leaveAccount other
  · exact congrArg _ (congrArg (Table.get? · _) transactions_leaveAccount)
  · exact changed?_leaveAccount within (enters.unmarked plain)
  · obtain ⟨entry, isSplit, within⟩ := Option.bind_eq_some_iff.mp within
    obtain ⟨_, _, rfl⟩ := Option.map_eq_some_iff.mp <|
      ((split?_modifySplit ..).trans (if_pos rfl)).symm.trans isSplit
    obtain rfl := Option.some.inj within
    exact changed?_flag fun _ => rfl

theorem keeps_enterAccount (account : AccountId) :
    Keeps (before.Noted ∅ ∅) (enterAccount account split) := by
  refine keeps_ask.bind fun _ => (keeps_ensureEditable split).bind fun _ ledger noted => ?_
  simp only [ends_bind, ends_update, ends_enterRegister]
  exact noted.next ((noted_entered account).trans (noted_recompute account))

/-! ## Moving -/

/-- A split that leaves a transaction is owed a flag. -/
theorem noted_parted : ledger.Noted {split} ∅ (ledger.parted owner split) :=
  (noted_modifyTransaction (by exact fun _ => rfl) owner).owing.modifySplit fun _ => rfl

theorem keeps_removeSplit : Keeps (before.Noted ∅ ∅) (removeSplit owner split) := by
  refine (keeps_ensureOpen owner).bind fun _ => keeps_ask.bind fun transaction =>
    keeps_raise.ite (keeps_raise.ite fun ledger noted => ?_)
  simp only [ends_bind, ends_update]
  exact noted.next noted_parted.mark

/-- A split that comes into a transaction is marked, and so is paid what it was owed for leaving one. -/
theorem ends_adopt (noted : ledger.minted ≤ 2 ^ 128 → before.Noted {split} ∅ ledger)
    (owned : WhileFresh Owned (ledger.joined owner split)) :
    (adopt rebalanceSplit owner split).Ends ledger fun _ after => Notes before after := by
  refine Action.ends_adopt.mpr <| notes_rebalanceSplit (fun fresh => ?_)
    (Ownership.ofLinks.alike (mark_alike _ split) owned) split
  rw [(mark_alike (α := α) _ split).minted] at fresh
  have named : before.Noted {split} ∅ (ledger.modifySplit split fun s => { s with parent := some owner }) :=
    (noted fresh).modifySplit fun _ => rfl
  exact (named.next (noted_modifyTransaction (by exact fun _ => rfl) owner)).mark

/-- A split that goes back to its place is as it was, and so is its transaction. -/
theorem noted_rejoined (named : ledger.parentOf? split = some owner) (index : Nat) :
    ledger.Noted ∅ ∅ ((ledger.parted owner split).rejoined owner split (some index)) := by
  obtain ⟨entry, isSplit, parent⟩ := Option.bind_eq_some_iff.mp named
  refine .of_bare (fun _ => .inl rfl) (fun other => ?_) fun other => ?_
  · refine congrArg (Option.map Split.bare) ?_
    rw [rejoined, split?_modifySplit]
    split
    · subst_vars
      change (Ledger.split? (modifySplit other _ _) other).map _ = _
      rw [split?_modifySplit, if_pos rfl]
      change ((ledger.split? other).map _).map _ = _
      rw [isSplit, Option.map_some, Option.map_some, ← parent]
    · exact (split?_modifySplit ..).trans (if_neg ‹_›)
  · exact (Table.map_get?_modify _ owner (·.insertAt index split) Transaction.bare (fun _ => rfl) other).trans
      (Table.map_get?_modify _ owner (·.drop split) Transaction.bare (fun _ => rfl) other)

/-- A released split is owed a flag; one that is kept is owed nothing. -/
theorem ends_release [ZeroPriced α] (owned : ledger.Owned)
    (named : ledger.ownership.named split = some (some owner)) :
    (release owner split).Ends ledger fun result after => after.minted ≤ 2 ^ 128 →
      match result with
      | .ok _ => ledger.Noted {split} ∅ after
      | .error _ => ledger.Noted ∅ ∅ after := by
  refine ends_release_of (fun _ _ => .refl ledger) (fun _ _ _ _ => noted_parted)
    fun transaction source releases _ => ?_
  have sound := Ownership.owned_parted owned named releases.isOwner releases.several
  have inside : split ∈ transaction.splits := (owned.mem_iff releases.isOwner).mpr named
  refine Ends.imp (Ends.and (ends_rebalanceSplit_refused sound.new source)
    (notes_rebalanceSplit (fun _ => .refl _) (fun _ => sound) source)) ?_
  rintro (fault | _) after ⟨refused, notes⟩ fresh
  · rw [minted_rejoined] at fresh
    obtain rfl := refused fresh fault rfl
    cases place : transaction.splits.idxOf? split with
    | none => exact absurd inside (List.idxOf?_eq_none_iff.mp place)
    | some index => exact noted_rejoined (parentOf?_eq_some_iff.mpr named) index
  · exact noted_parted.next (notes fresh)

theorem ends_appendSplit [ZeroPriced α] (owned : ledger.Owned) (id : TransactionId) (split : SplitId) :
    (appendSplit id split).Ends ledger fun _ after => Notes ledger after := by
  refine ends_appendSplit_of (fun _ _ => .refl ledger) fun entry isOpen isSplit => ?_
  have named := parent_eq_iff.mpr ⟨entry, isSplit, rfl⟩
  obtain ⟨transaction, found, -⟩ := checkOpen_eq_ok_iff.mp isOpen
  have listed : (ledger.ownership.listed id).isSome := by simp [listed_eq found]
  cases parent : entry.parent with
  | none =>
    exact ends_adopt (fun _ => .refl ledger) fun _ =>
      Ownership.owned_joined owned (parent ▸ named) listed
  | some former =>
    rw [parent] at named
    dsimp only
    split
    · subst_vars
      exact ends_adopt (fun _ => (noted_modifyTransaction (by exact fun _ => rfl) _).owing) fun _ =>
        owned.linked (ownership_reattach owned.agree named) le_rfl
    · refine Ends.imp (Ends.and (ends_release owned named)
        (Ownership.ends_release (fun _ => owned) named)) ?_
      rintro (_ | _) after ⟨notes, sound, freed⟩
      · exact notes
      · refine ends_adopt notes fun fresh => ?_
        obtain ⟨unheld, lists⟩ := freed rfl fresh
        exact Ownership.owned_joined (sound fresh) unheld (lists id listed)

/-! ## Sessions -/

theorem keeps_setEditState (edit : EditState) : Keeps (before.Noted ∅ ∅) (setEditState owner edit) :=
  keeps_noted fun _ => noted_modifyTransaction (by exact fun _ => rfl) owner

theorem keeps_toJournal (call : J → Except JournalFault Unit × J) :
    Keeps (before.Noted ∅ ∅) (toJournal call) :=
  fun _ noted => noted.next (noted_entries rfl rfl rfl)

theorem noted_restoreOrder (splits : List SplitId) : ledger.Noted ∅ ∅ (ledger.restoreOrder splits) := by
  induction splits generalizing ledger with
  | nil => exact .refl ledger
  | cons split rest ih =>
    refine Noted.trans ?_ ih
    dsimp only
    cases ledger.accountOf? split with
    | none => exact .refl ledger
    | some account =>
      dsimp only [Book.restoreOrder]
      split
      · exact noted_registered account split
      · exact .refl ledger

theorem noted_recomputeAll (splits : List SplitId) : ledger.Noted ∅ ∅ (ledger.recomputeAll splits) := by
  unfold recomputeAll
  induction (splits.filterMap ledger.accountOf?).eraseDups generalizing ledger with
  | nil => exact .refl ledger
  | cons account rest ih => exact (noted_recompute account).trans ih

/-- No account holds a split of a transaction that has lost all its splits. -/
theorem noted_discarded (owned : ledger.Owned) {transaction : Transaction}
    (found : ledger.transaction? owner = some transaction) {erased : Ledger α J}
    (gone : erased = transaction.splits.foldl
      (fun ledger split => (ledger.mark split).eraseSplit split) ledger) :
    ledger.Noted ∅ ∅ { erased with transactions := erased.transactions.erase owner } := by
  have erases : ledger.Noted ∅ ∅ erased := gone ▸ noted_eraseSplits transaction.splits
  have unnamed (split : SplitId) : erased.parentOf? split ≠ some owner := by
    intro named
    rw [parentOf?_eq_some_iff, gone, ownership_eraseSplits] at named
    dsimp only at named
    split at named
    · cases named
    · exact absurd ((owned.mem_iff found).mpr named) ‹_›
  refine erases.trans ⟨fun _ => .inl rfl, fun _ => .rfl, fun _ _ _ => rfl,
    fun {_ split parent} _ _ _ _ named => congrArg _ ?_⟩
  refine (Table.get?_erase ..).trans (if_neg ?_)
  rintro rfl
  exact unnamed split named

variable [Journal J α]

theorem keeps_writeRecord (kind : EventKind) : Keeps (before.Noted ∅ ∅) (writeRecord kind owner) :=
  keeps_ask.bind fun _ => keeps_read.bind fun _ =>
    Keeps.bind (fun _ noted => noted.next (noted_entries rfl rfl rfl)) fun _ => keeps_toJournal _

theorem keeps_beginEdit (defer : Bool) : Keeps (before.Noted ∅ ∅) (beginEdit owner defer) :=
  keeps_ask.bind fun _ => (keeps_setEditState _).bind fun _ => (keeps_toJournal _).bind fun _ =>
    keeps_writeRecord _

theorem keeps_closeEdit : Keeps (before.Noted ∅ ∅) (closeEdit owner) :=
  keeps_ask.bind fun transaction => (keeps_noted fun _ => noted_restoreOrder transaction.splits).bind fun _ =>
    (keeps_noted fun _ => noted_recomputeAll transaction.splits).bind fun _ =>
      (keeps_setEditState _).bind fun _ => keeps_writeRecord _

theorem ends_commitEdit (owned : WhileFresh Owned ledger) :
    (commitEdit owner).Ends ledger fun _ after => Notes ledger after := by
  rw [commitEdit_eq, ensureOpen_eq]
  refine ends_ask_bind (fun _ => .refl ledger) fun _ _ => ?_
  have closes : Keeps (Notes ledger) (closeEdit owner) := keeps_closeEdit.whileFresh fun middle =>
    (OfLinks.minted_ge middle.minted).closeEdit owner middle le_rfl
  have opened : (setEditState owner (.editing false)).Ends ledger fun _ after =>
      Notes ledger after ∧ WhileFresh Owned after :=
    ⟨fun _ => keeps_setEditState _ ledger (.refl ledger),
      Ownership.ofLinks.setEditState owner _ ledger owned⟩
  rw [ends_bind]
  refine opened.imp fun result middle ends => ?_
  cases result with
  | error _ => exact ends.1
  | ok _ =>
    dsimp only
    rw [ends_bind]
    refine (notes_rebalanceTransaction ends.1 ends.2 owner).imp fun result after notes => ?_
    cases result with
    | error _ => exact notes
    | ok _ => exact closes after notes

theorem ends_discardTransaction (owned : WhileFresh Owned ledger) :
    (discardTransaction owner).Ends ledger fun _ after => Notes ledger after := by
  have writes : (writeRecord .destroyed owner).Ends ledger fun _ after =>
      ledger.Noted ∅ ∅ after ∧ WhileFresh Owned after :=
    ⟨keeps_writeRecord _ ledger (.refl ledger), Ownership.ofLinks.writeRecord _ owner ledger owned⟩
  rw [discardTransaction, ends_bind]
  refine writes.imp fun result written ends => ?_
  cases result with
  | error _ => exact fun _ => ends.1
  | ok _ =>
    refine ends_ask_bind (fun _ => ends.1) fun transaction found => ?_
    simp only [ends_bind, ends_update]
    intro fresh
    have minted := minted_eraseSplits transaction.splits written
    exact ends.1.trans (noted_discarded (ends.2 (minted ▸ fresh)) (transaction_eq_ok_iff.mp found) rfl)

theorem ends_destroySplit (owned : WhileFresh Owned ledger) :
    (destroySplit split).Ends ledger fun _ after => Notes ledger after := by
  refine ends_destroySplit_of (fun _ => .refl ledger) (fun _ _ _ => ends_discardTransaction owned)
    fun owner transaction member several => ?_
  have erased : ledger.Noted ∅ ∅ (ledger.without owner split) :=
    ((noted_mark split).trans (noted_modifyTransaction (by exact fun _ => rfl) owner)).trans
      (noted_eraseSplit split)
  refine notes_rebalanceTransaction (fun _ => erased) (fun fresh => ?_) owner
  rw [minted_without] at fresh
  exact Ownership.owned_without (owned fresh) (parentOf?_eq_some_iff.mp member.parent) member.isOwner
    (by omega)

/-! ## All commands -/

theorem ends_act [ZeroPriced α] (owned : ledger.Owned) (command : Command α) :
    (command.act (J := J)).Ends ledger fun _ after => Notes ledger after := by
  have sound : WhileFresh Owned ledger := fun _ => owned
  have steady {β : Type} {action : Action α J β} {reply : β → Reply α}
      (keeps : Keeps (ledger.Noted ∅ ∅) action) :
      (action >>= fun value => pure (reply value)).Ends ledger fun _ after => Notes ledger after :=
    ends_reply fun _ => keeps ledger (.refl ledger)
  cases command with
  | createSplit => exact ends_reply (notes_createSplit sound)
  | createTransaction => exact ends_reply (notes_createTransaction sound)
  | discardSplit split => exact steady keeps_discardSplit
  | setPriceAndAmount split price amount =>
    exact ends_reply <| ends_finite (fun _ => .refl ledger) <| ends_finite (fun _ => .refl ledger) <|
      ends_editNumbers sound (by constructor <;> exact fun _ => rfl)
  | setPrice split _ | setAmount split _ =>
    exact ends_reply <| ends_finite (fun _ => .refl ledger) <|
      ends_editNumbers sound (by constructor <;> exact fun _ => rfl)
  | setValue split value => exact ends_reply (ends_setValue sound value)
  | setMemo split _ | setAction split _ | setSplitDocref split _ | setReconciledOn split _ =>
    exact steady (keeps_editSplit fun _ => rfl)
  | setReconcile split state => exact steady (keeps_setReconcile state)
  | setNum transaction _ | setDescription transaction _ | setDocref transaction _
  | setEntered transaction _ => exact ends_reply (ends_editTransaction sound (by exact fun _ => rfl))
  | setPosted transaction date =>
    exact ends_reply (ends_setPosted (.refl ledger) sound (fun _ => .refl ledger) date)
  | setDay transaction day month year => exact ends_reply (ends_setDay sound day month year)
  | setToday transaction =>
    exact ends_reply (ends_bind.mpr (ends_read.mpr (ends_setDates sound _)))
  | setCaption transaction caption text => exact steady (keeps_setCaption caption text)
  | appendSplit transaction split => exact ends_reply (ends_appendSplit owned transaction split)
  | removeSplit transaction split => exact steady keeps_removeSplit
  | enterAccount account split => exact steady (keeps_enterAccount account)
  | leaveAccount split => exact steady keeps_leaveAccount
  | otherSplit split => exact steady (keeps_otherSplit split)
  | beginEdit transaction defer => exact steady (keeps_beginEdit defer)
  | commitEdit transaction => exact ends_reply (ends_commitEdit sound)
  | destroyTransaction transaction =>
    refine ends_reply ?_
    rw [destroyTransaction, ensureOpen_eq]
    exact ends_ask_bind (fun _ => .refl ledger) fun _ _ => ends_discardTransaction sound
  | destroySplit split => exact ends_reply (ends_destroySplit sound)
  | splitWorth split base => exact steady (keeps_splitWorth split base)
  | setSplitWorth split value base => exact steady (keeps_setSplitWorth value base)
  | transactionValue | commonCommodity | imbalance | isBalanced => exact steady keeps_ask
  | rebalanceSplit split => exact ends_reply (ends_rebalanceSplit sound split)
  | rebalanceTransaction transaction =>
    exact ends_reply (notes_rebalanceTransaction (fun _ => .refl ledger) sound transaction)

end Marking

variable {α J : Type} [Scalar α] [Journal J α] {ledger : Ledger α J}

/-- Whatever was asked of a ledger before, and whether or not a command fails: an account is flagged
afterwards if its register has changed, if anything but running balances has changed of a split that it
holds or held, or if a number, a text or a date has changed of the transaction of such a split. -/
theorem Reachable.changes_flagged [ZeroPriced α] (reached : Reachable Deed.LeavesRegisters ledger)
    (command : Command α) (fresh : (command.run ledger).ledger.minted ≤ 2 ^ 128) {id : AccountId}
    {holder : Account} (held : ledger.account? id = some holder) :
    let after := (command.run ledger).ledger
    ∃ later, after.account? id = some later ∧
      (later.register ≠ holder.register → later.changed = true) ∧
      (∀ split, split ∈ holder.register ∨ split ∈ later.register →
        (after.split? split).map Split.bare ≠ (ledger.split? split).map Split.bare →
          later.changed = true) ∧
      ∀ split parent, (split ∈ holder.register ∧ ledger.parentOf? split = some parent) ∨
          (split ∈ later.register ∧ after.parentOf? split = some parent) →
        (after.transaction? parent).map Transaction.bare ≠
            (ledger.transaction? parent).map Transaction.bare → later.changed = true := by
  intro after
  have noted : ledger.Noted ∅ ∅ after := Marking.ends_act reached.owned command fresh
  have booked : after.Booked := (reached.step (.command command) trivial fresh).booked
  obtain ⟨later, found⟩ : ∃ later, after.account? id = some later := by
    rcases noted.account id with same | marked
    · exact ⟨holder, same.trans held⟩
    · obtain ⟨later, found, -⟩ := Option.map_eq_some_iff.mp marked
      exact ⟨later, found⟩
  refine ⟨later, found, ?_⟩
  cases flagged : later.changed with
  | true => exact ⟨fun _ => rfl, fun _ _ _ => rfl, fun _ _ _ _ => rfl⟩
  | false =>
    have plain : after.changed? id = some false := by rw [changed?, found, Option.map_some, flagged]
    -- Without a flag the account is the one that it was, and holds the splits that it held.
    obtain rfl : later = holder := by
      rcases noted.account id with same | marked
      · exact Option.some.inj (found.symm.trans (same.trans held))
      · cases marked.symm.trans plain
    have within {split : SplitId} (inside : split ∈ later.register) : after.accountOf? split = some id :=
      account_eq_iff.mp ((booked.mem_iff found).mp inside)
    have same {split : SplitId} (inside : split ∈ later.register) :
        (after.split? split).map Split.bare = (ledger.split? split).map Split.bare :=
      noted.split (Set.notMem_empty _) plain (within inside)
    refine ⟨fun differs => absurd rfl differs, fun split inside differs => ?_,
      fun split parent inside differs => ?_⟩
    · exact absurd (same (or_self_iff.mp inside)) differs
    · have inside : split ∈ later.register ∧ after.parentOf? split = some parent :=
        inside.elim (fun was => ⟨was.1, (parentOf?_of_bare (same was.1)).trans was.2⟩) fun is => is
      exact absurd (noted.transaction (Set.notMem_empty _) (Set.notMem_empty _) plain
        (within inside.1) inside.2) differs

/-- The account into which an amount brings a counterpart is flagged, though its flag had been taken. -/
theorem Reachable.changes_flagged_sideBySide :
    let ledger := sideBySide.clearChanged ⟨.ofNat 0⟩
    ledger.changed? ⟨.ofNat 0⟩ = some false ∧
      ((Command.setAmount ⟨.ofNat 2⟩ 7).run ledger).ledger.changed? ⟨.ofNat 0⟩ = some true := by
  intro ledger
  have reached : Reachable Deed.LeavesRegisters ledger :=
    ((Reachable.start _ _).after _ (by simp [Deed.LeavesRegisters]) (by decide +kernel)).step
      (.clearChanged ⟨.ofNat 0⟩) trivial (by decide +kernel)
  have registers : (ledger.account? ⟨.ofNat 0⟩).map (·.register) = some [⟨.ofNat 2⟩] := by
    decide +kernel
  obtain ⟨holder, held, lists⟩ := Option.map_eq_some_iff.mp registers
  obtain ⟨later, found, listed, -⟩ :=
    Reachable.changes_flagged reached (.setAmount ⟨.ofNat 2⟩ 7) (by decide +kernel) held
  refine ⟨by decide +kernel, ?_⟩
  have grows : (((Command.setAmount ⟨.ofNat 2⟩ 7).run ledger).ledger.account? ⟨.ofNat 0⟩).map
      (·.register) = some [⟨.ofNat 2⟩, ⟨.ofNat 8⟩] := by decide +kernel
  rw [found, Option.map_some] at grows
  rw [changed?, found, Option.map_some, listed (by rw [Option.some.inj grows, lists]; decide)]

end DoubleEntry
