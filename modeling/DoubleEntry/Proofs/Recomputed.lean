import DoubleEntry.Proofs.Destroying

/-! # Which accounts a command leaves fresh

A command recomputes accounts at some point of a longer sequence of changes. What it recomputed is fresh at
its end as well, since later steps that disturb an account recompute it again: what is passed on from step to
step is `Ledger.Kept`. What rebalancing does is measured from the amounts that it began with, those that the
command has set; they are not recomputed for.
-/

namespace DoubleEntry

open DoubleEntry.Action

namespace Ledger

variable {α J : Type} [Scalar α] {ledger start before middle after : Ledger α J} {id split : SplitId}
  {account other : AccountId} {owner : TransactionId} {splits : List SplitId}

/-- Splits and accounts agree, and what was fresh at the start still is. -/
structure Kept (start ledger : Ledger α J) : Prop where
  booked : ledger.Booked
  renews : start.Renews ledger

/-- Where an amount is not the one that was given to a split, the account is fresh. If the giving may have been
refused, this is said only of splits that were given what they had. -/
def Balances (before set : Ledger α J) (succeeds : Prop) (after : Ledger α J) : Prop :=
  ∀ id account, succeeds ∨ set.amount? id = before.amount? id → after.accountOf? id = some account →
    after.amount? id ≠ set.amount? id → after.IsFresh account

/-- Every account that a split of a transaction is in is fresh. -/
def AllFresh (ledger : Ledger α J) (owner : TransactionId) : Prop :=
  ∀ id ∈ ledger.splitsOf owner, ∀ account, ledger.accountOf? id = some account → ledger.IsFresh account

theorem Renews.balances {set : Ledger α J} {succeeds : Prop} (renews : before.Renews after)
    (unset : succeeds → ∀ id, set.amount? id = before.amount? id) : before.Balances set succeeds after := by
  intro id account given within moved
  have same : set.amount? id = before.amount? id := given.elim (unset · id) fun same => same
  exact (renews.settled within).resolve_right fun still => moved (still.2.trans same.symm)

/-- A command that fails before it changes anything. -/
theorem balances_refused {β : Type} {value : β} (set : Ledger α J) (fault : Fault) :
    ledger.Balances set ((.error fault : Except Fault β) = .ok value) ledger :=
  (Renews.refl ledger).balances nofun

theorem Booked.kept (booked : ledger.Booked) : ledger.Kept ledger := ⟨booked, .refl ledger⟩

/-- A step that changes no link between splits and accounts. -/
theorem kept_linked (kept : WhileFresh start.Kept before) (same : after.membership = before.membership)
    (grows : before.minted ≤ after.minted) (renews : before.Renews after) : WhileFresh start.Kept after := by
  intro fresh
  obtain ⟨booked, since⟩ := kept (grows.trans fresh)
  exact ⟨booked.linked same grows, since.trans renews⟩

theorem kept_modifyTransaction {change : Transaction → Transaction} (kept : WhileFresh start.Kept ledger) :
    WhileFresh start.Kept (ledger.modifyTransaction owner change) :=
  kept_linked kept rfl le_rfl renews_modifyTransaction

theorem kept_mark (kept : WhileFresh start.Kept ledger) : WhileFresh start.Kept (ledger.mark split) :=
  kept_linked kept (ledger.mark_alike split).membership (ledger.mark_alike split).minted.ge renews_mark

theorem kept_setParent {parent : Option TransactionId} (kept : WhileFresh start.Kept ledger) :
    WhileFresh start.Kept (ledger.modifySplit split fun s => { s with parent }) :=
  kept_linked kept (membership_modifySplit fun _ => rfl) le_rfl (renews_modifySplit fun _ => rfl)

theorem kept_eraseSplit (kept : WhileFresh start.Kept ledger) :
    WhileFresh start.Kept (ledger.eraseSplit split) := by
  intro fresh
  obtain ⟨booked, since⟩ := kept (minted_eraseSplit.ge.trans fresh)
  exact ⟨booked.eraseSplit split, since.trans (booked.renews_eraseSplit split)⟩

/-- Only the journal and the number of identifiers given out differ. -/
theorem SameEntries.renews (same : before.SameEntries after) : before.Renews after :=
  .of_postings (fun account => by rw [account?, same.accounts, account?])
    fun id => by rw [split?, same.splits, split?]

/-! ## Back in order, and recomputed -/

omit [Scalar α] in
theorem Shelved.restoreOrder (shelved : ledger.Shelved) (splits : List SplitId) :
    (ledger.restoreOrder splits).Shelved := by
  induction splits generalizing ledger with
  | nil => exact shelved
  | cons first rest ih =>
    rw [restoreOrder_eq, List.foldl_cons, ← restoreOrder_eq]
    rcases ledger.returned_eq first with same | ⟨account, within, same⟩
    · rw [same]
      exact ih shelved
    · rw [same]
      exact ih (shelved.registered within)

theorem accounts_recomputeAll : (ledger.recomputeAll splits).accounts = ledger.accounts := by
  unfold recomputeAll
  induction (splits.filterMap ledger.accountOf?).eraseDups generalizing ledger with
  | nil => rfl
  | cons first rest ih => rw [List.foldl_cons, ih, accounts_recompute]

/-- An account is fresh if it was, or if one of the splits is in it whose accounts are recomputed. -/
theorem Shelved.isFresh_recomputeAll (shelved : ledger.Shelved) (held : (ledger.account? account).isSome)
    (fresh : (∃ id ∈ splits, ledger.accountOf? id = some account) ∨ ledger.IsFresh account) :
    (ledger.recomputeAll splits).IsFresh account := by
  obtain ⟨holder, held⟩ := Option.isSome_iff_exists.mp held
  refine ⟨holder, ?_, shelved.isCurrent_recompute_all held ?_⟩
  · rw [account?, accounts_recomputeAll]
    exact held
  · rcases fresh with ⟨id, inside, within⟩ | ⟨again, found, current⟩
    · left
      rw [List.mem_eraseDups, List.mem_filterMap]
      exact ⟨id, inside, within⟩
    · obtain rfl := Option.some.inj (held.symm.trans found)
      exact .inr current

section Returning

variable (booked : ledger.Booked)

include booked

omit [Scalar α] in
theorem Booked.isSome_account?_restoreOrder (within : ledger.accountOf? id = some account) :
    ((ledger.restoreOrder splits).account? account).isSome := by
  have same := congrArg Option.isSome (ledger.register_restoreOrder splits account)
  rw [Option.isSome_map, Option.isSome_map] at same
  exact same.trans (booked.isSome_account? within)

/-- Registers change where splits go back to their places, and there the accounts are recomputed. -/
theorem Booked.renews_returning (splits : List SplitId) :
    ledger.Renews ((ledger.restoreOrder splits).recomputeAll splits) := by
  have shelved := booked.shelved.restoreOrder splits
  have entries := (ledger.entries_restoreOrder splits).1
  have alike := (ledger.restoreOrder splits).recomputeAll_alike splits
  have within (id) : (ledger.restoreOrder splits).accountOf? id = ledger.accountOf? id := by
    rw [accountOf?, split?, entries, accountOf?, split?]
  refine ⟨fun {account} fresh => ?_, fun {id account} named => .inr ⟨?_, ?_⟩⟩
  · have register := ledger.register_restoreOrder splits account
    refine shelved.isFresh_recomputeAll ?_ ?_
    · have same := congrArg Option.isSome register
      rw [Option.isSome_map, Option.isSome_map] at same
      exact same.trans (fresh.elim fun _ held => Option.isSome_of_eq_some held.1)
    · by_cases returns : ∃ id ∈ splits, (ledger.restoreOrder splits).accountOf? id = some account
      · exact .inl returns
      · right
        have none : splits.filter (ledger.accountOf? · = some account) = [] := by
          rw [List.filter_eq_nil_iff]
          intro id inside here
          exact returns ⟨id, inside, (within id).trans (by simpa using here)⟩
        rw [none] at register
        refine fresh.congr register fun id _ => ?_
        rw [split?, entries, split?]
  · exact ((alike.accountOf? id).trans (within id)).symm.trans named
  · refine (alike.map_split? (·.amount) (fun _ => rfl) id).trans ?_
    rw [split?, entries, amount?, split?]

/-- The accounts of these splits are fresh at the end. -/
theorem Booked.isFresh_returning {splits : List SplitId} (inside : id ∈ splits)
    (within : ledger.accountOf? id = some account) :
    ((ledger.restoreOrder splits).recomputeAll splits).IsFresh account := by
  refine (booked.shelved.restoreOrder splits).isFresh_recomputeAll
    (booked.isSome_account?_restoreOrder within) (.inl ⟨id, inside, ?_⟩)
  rw [accountOf?, split?, (ledger.entries_restoreOrder splits).1]
  exact within

end Returning

/-! ## From one account to another -/

/-- A split that was moved is in the one of two accounts that was recomputed last. -/
theorem Booked.isFresh_entered (booked : ledger.Booked) (live : (ledger.split? split).isSome)
    (held : (ledger.account? account).isSome) :
    let entered := ((ledger.leaveAccount split).modifySplit split
      fun s => { s with account := some account }).registered account split
    (entered.recompute account).IsFresh account ∧
      ∀ other, ledger.accountOf? split = some other → (entered.recompute account).IsFresh other := by
  intro entered
  let left := ledger.leaveAccount split
  have unregistered : ¬left.IsRegistered split := booked.shelved.not_registered_leaveAccount
  have named : (left.modifySplit split fun s => { s with account := some account }).Shelved :=
    booked.shelved.leaveAccount.still (still_modifySplit fun registered => absurd registered unregistered)
  have within : (left.modifySplit split fun s => { s with account := some account }).accountOf? split =
      some account := by
    obtain ⟨entry, isSplit⟩ := Option.isSome_iff_exists.mp
      ((isSome_leaveAccount ledger split split).trans live)
    rw [accountOf?, split?_modifySplit, if_pos rfl, isSplit]
    rfl
  have shelved : entered.Shelved := named.registered within
  have known : (entered.account? account).isSome := by
    have same := congrArg Option.isSome (booked.shelved.register_leaveAccount split account)
    rw [Option.isSome_map, Option.isSome_map] at same
    rw [account?_registered, if_pos rfl, Option.isSome_map]
    exact same.trans held
  refine ⟨shelved.isFresh_recompute known, fun other was => ?_⟩
  by_cases here : other = account
  · rw [here]
    exact shelved.isFresh_recompute known
  · have fresh : left.IsFresh other := booked.isFresh_leaveAccount was
    refine IsFresh.recompute (fresh.congr ?_ fun id listed => ?_) shelved account
    · rw [account?_registered, if_neg here]
      rfl
    · change ((left.modifySplit split _).split? id).map _ = _
      rw [split?_modifySplit, if_neg]
      rintro rfl
      exact unregistered ⟨other, listed⟩

end Ledger

open Ledger

namespace Recomputed

variable {α J : Type} [Scalar α] [ZeroPriced α] {start ledger : Ledger α J} {owner : TransactionId}
  {split : SplitId}

/-! ## Rebalancing -/

theorem keeps_rebalanceSplit [Journal J α] (edited : SplitId) :
    Keeps (WhileFresh start.Kept) (rebalanceSplit (α := α) (J := J) edited) := by
  intro ledger kept
  have booked : WhileFresh Booked ledger := fun fresh => (kept fresh).booked
  have grows : (rebalanceSplit edited).Ends ledger fun _ after => ledger.minted ≤ after.minted :=
    ends_rebalanceSplit_minted edited
  refine ends_whileFresh grows fun small => ?_
  refine (Ends.and (Membership.keeps_commands.rebalanceSplit edited ledger booked)
    (ends_rebalanceSplit_renews booked edited)).imp fun result after ⟨sound, renews⟩ fresh => ?_
  exact ⟨sound fresh, (kept small).renews.trans (renews fresh)⟩

theorem keeps_rebalanceTransaction [Journal J α] (owner : TransactionId) :
    Keeps (WhileFresh start.Kept) (rebalanceTransaction (α := α) (J := J) owner) :=
  Action.keeps_rebalanceTransaction keeps_rebalanceSplit owner

theorem keeps_adopt [Journal J α] (owner : TransactionId) (split : SplitId) :
    Keeps (WhileFresh start.Kept) (adopt (α := α) (J := J) rebalanceSplit owner split) :=
  keeps_adopt_of (fun _ kept => kept_mark (kept_modifyTransaction (kept_setParent kept)))
    keeps_rebalanceSplit

theorem keeps_release [Journal J α] (owner : TransactionId) (split : SplitId) :
    Keeps (WhileFresh start.Kept) (release (α := α) (J := J) owner split) := by
  refine keeps_release_of (fun _ kept => kept_setParent (kept_modifyTransaction kept))
    (fun ledger place kept => ?_) keeps_rebalanceSplit
  cases place with
  | none => exact kept
  | some _ => exact kept_setParent (kept_modifyTransaction kept)

theorem keeps_appendSplit [Journal J α] (owner : TransactionId) (split : SplitId) :
    Keeps (WhileFresh start.Kept) (appendSplit (α := α) (J := J) owner split) :=
  keeps_appendSplit_of (fun _ => kept_modifyTransaction) (fun former => keeps_release former split)
    (keeps_adopt owner split)

/-- A number is set, and the rest is balanced against it. -/
theorem ends_editNumbers [Journal J α] {change : Split α → Split α} {set : Ledger α J}
    (stays : ∀ entry, (change entry).account = entry.account) (edited : SplitId)
    (isSet : ∀ id, set.amount? id = (ledger.modifySplit edited change).amount? id) (booked : ledger.Booked) :
    (editNumbers edited change).Ends ledger fun result after =>
      WhileFresh (ledger.Balances set (result = .ok ())) after := by
  rw [editNumbers, ensureEditable_eq, ends_bind, ends_ask]
  cases ledger.checkEditable edited with
  | error fault => exact fun _ => balances_refused set fault
  | ok _ =>
    simp only [ends_bind, ends_update]
    have membership : ((ledger.mark edited).modifySplit edited change).membership = ledger.membership :=
      (membership_modifySplit stays).trans (ledger.mark_alike edited).membership
    have start := (booked.linked membership (ledger.mark_alike edited).minted.ge).kept
    refine (keeps_rebalanceSplit edited _ fun _ => start).imp fun result after kept fresh => ?_
    intro id account _ within moved
    rcases (kept fresh).renews.settled within with fresh | ⟨-, same⟩
    · exact fresh
    · refine absurd (same.trans ?_) moved
      rw [isSet]
      simp only [amount?, split?_modifySplit, split?_mark]

/-! ## Sessions -/

section Sessions

variable [Journal J α]

omit [Scalar α] [ZeroPriced α] in
theorem ends_writeRecord_sameEntries (kind : EventKind) (owner : TransactionId) :
    (writeRecord kind owner).Ends ledger fun _ after => ledger.SameEntries after := by
  have keeps : Keeps ledger.SameEntries (writeRecord kind owner) := by
    refine keeps_ask.bind fun _ => keeps_read.bind fun _ => Keeps.bind (fun _ same => ?_) fun _ => ?_
    · exact ends_mint.mpr ⟨same.splits, same.transactions, same.accounts⟩
    · exact fun _ same => ends_toJournal.mpr ⟨same.splits, same.transactions, same.accounts⟩
  exact keeps ledger ⟨rfl, rfl, rfl⟩

omit [ZeroPriced α] in
theorem keeps_writeRecord (kind : EventKind) (owner : TransactionId) :
    Keeps (WhileFresh start.Kept) (writeRecord kind owner) := by
  intro ledger kept
  have grows : (writeRecord kind owner).Ends ledger fun _ after => ledger.minted ≤ after.minted :=
    (OfLinks.minted_ge ledger.minted).writeRecord kind owner ledger le_rfl
  refine ((ends_writeRecord_sameEntries kind owner).and grows).imp fun _ after ⟨same, grows⟩ => ?_
  exact kept_linked kept (by simp only [membership, split?, account?, same.splits, same.accounts]) grows
    same.renews

omit [ZeroPriced α] in
theorem keeps_discardTransaction (owner : TransactionId) :
    Keeps (WhileFresh start.Kept) (discardTransaction (α := α) (J := J) owner) := by
  refine (keeps_writeRecord .destroyed owner).bind fun _ => keeps_ask.bind fun transaction =>
    (keeps_update fun ledger kept => ?_).bind fun _ => keeps_update fun ledger kept => ?_
  · induction transaction.splits generalizing ledger with
    | nil => exact kept
    | cons first rest ih => exact ih _ (kept_eraseSplit (kept_mark kept))
  · exact kept_linked kept rfl le_rfl (.of_postings (fun _ => rfl) fun _ => rfl)

omit [ZeroPriced α] [Journal J α] in
theorem kept_without (kept : WhileFresh start.Kept ledger) :
    WhileFresh start.Kept (ledger.without owner split) :=
  kept_eraseSplit (kept_modifyTransaction (kept_mark kept))

theorem ends_destroySplit (kept : WhileFresh start.Kept ledger) (split : SplitId) :
    (destroySplit split).Ends ledger fun _ after => WhileFresh start.Kept after :=
  ends_destroySplit_of kept (fun owner _ _ => keeps_discardTransaction owner ledger kept)
    fun owner _ _ _ => keeps_rebalanceTransaction owner _ (kept_without kept)

/-- A split of a larger transaction goes before the rest is balanced, and its account stays fresh. -/
theorem ends_destroySplit_of_several {account : AccountId} {transaction : Transaction}
    (owned : ledger.Owned) (booked : ledger.Booked) (parent : ledger.parentOf? split = some owner)
    (found : ledger.transaction? owner = some transaction) (several : ¬transaction.splits.length ≤ 2)
    (within : ledger.accountOf? split = some account) :
    (destroySplit split).Ends ledger fun result after =>
      result = .ok () → WhileFresh (Ledger.IsFresh · account) after := by
  have named := parentOf?_eq_some_iff.mp parent
  rw [Ends, destroySplit_eq parent found ((owned.mem_iff found).mpr named), if_neg several]
  split
  · have left : ((ledger.mark split).modifyTransaction owner (·.drop split)).Booked :=
      (booked.mark split).linked rfl le_rfl
    have start : WhileFresh (ledger.without owner split).Kept (ledger.without owner split) :=
      fun _ => (left.eraseSplit split).kept
    have shed := (booked.parts_without owner split).fresh split (List.mem_singleton_self split)
    have balanced := keeps_rebalanceTransaction (J := J) owner (ledger.without owner split) start
    exact balanced.imp fun _ _ kept _ fresh => (kept fresh).renews.keeps (shed account within)
  · rintro ⟨⟩

omit [ZeroPriced α] in
/-- Once a transaction is balanced, the accounts of all its splits are recomputed. -/
theorem ends_closeEdit (booked : ledger.Booked) (owner : TransactionId) :
    (closeEdit owner).Ends ledger fun _ after => ledger.Renews after ∧ after.AllFresh owner := by
  rw [closeEdit, ends_bind, ends_ask]
  cases found : ledger.transaction? owner with
  | none =>
    have missing : ledger.transaction owner = .error (.missing (.transaction owner)) := by
      rw [Ledger.transaction, found]
    rw [missing]
    refine ⟨.refl ledger, fun id inside => ?_⟩
    simp [splitsOf, found] at inside
  | some transaction =>
    rw [transaction_eq_ok_iff.mpr found]
    simp only [ends_bind, ends_update, setEditState]
    have renews := booked.renews_returning transaction.splits
    have fresh {id account} (inside : id ∈ transaction.splits) (within : ledger.accountOf? id = some account) :
        ((ledger.restoreOrder transaction.splits).recomputeAll transaction.splits).IsFresh account :=
      booked.isFresh_returning inside within
    have alike := (ledger.restoreOrder transaction.splits).recomputeAll_alike transaction.splits
    have entries := ledger.entries_restoreOrder transaction.splits
    generalize (ledger.restoreOrder transaction.splits).recomputeAll transaction.splits = settled
      at renews fresh alike ⊢
    refine (ends_writeRecord_sameEntries .committed owner).imp fun result after same => ?_
    have closes : settled.Renews after := renews_modifyTransaction.trans same.renews
    have still : settled.transaction? owner = some transaction := by
      rw [transaction?, alike.transactions, entries.2]
      exact found
    have closed : after.transaction? owner = some { transaction with edit := .closed } := by
      rw [transaction?, same.transactions, ← transaction?, transaction?_modifyTransaction, if_pos rfl, still]
      rfl
    have lists : after.splitsOf owner = transaction.splits := by rw [splitsOf_eq closed]
    refine ⟨renews.trans closes, fun id inside account within => ?_⟩
    rw [lists] at inside
    refine closes.keeps (fresh inside ?_)
    rw [accountOf?, split?, same.splits] at within
    have named : settled.accountOf? id = some account := within
    rw [alike.accountOf?, accountOf?, split?, entries.1] at named
    exact named

theorem ends_commitEdit (booked : ledger.Booked) (owner : TransactionId) :
    (commitEdit owner).Ends ledger fun result after =>
      WhileFresh (fun after => ledger.Renews after ∧ (result = .ok () → after.AllFresh owner)) after := by
  have refused (fault : Fault) : WhileFresh (fun after => ledger.Renews after ∧
      ((.error fault : Except Fault Unit) = .ok () → after.AllFresh owner)) ledger :=
    fun _ => ⟨.refl ledger, by rintro ⟨⟩⟩
  rw [commitEdit_eq, ensureOpen_eq, ends_bind, ends_ask]
  cases ledger.checkOpen owner with
  | error fault => exact refused fault
  | ok _ =>
    simp only [ends_bind, ends_update, setEditState]
    have opened : WhileFresh ledger.Kept (ledger.modifyTransaction owner fun t =>
        { t with edit := .editing false }) := kept_modifyTransaction fun _ => booked.kept
    refine (keeps_rebalanceTransaction owner _ opened).imp fun result settled kept => ?_
    cases result with
    | error _ => exact fun fresh => ⟨(kept fresh).renews, by rintro ⟨⟩⟩
    | ok _ =>
      have grows : (closeEdit owner).Ends settled fun _ after => settled.minted ≤ after.minted :=
        (OfLinks.minted_ge settled.minted).closeEdit owner settled le_rfl
      intro fresh
      obtain ⟨booked, since⟩ := kept (grows.trans fresh)
      have closes : (closeEdit owner).Ends settled fun _ after =>
        settled.Renews after ∧ after.AllFresh owner := ends_closeEdit booked owner
      exact ⟨since.trans closes.1, fun _ => closes.2⟩

end Sessions

/-! ## Entering and leaving -/

section Moving

variable {account other : AccountId}

omit [ZeroPriced α] in
theorem ends_setReconcile (booked : ledger.Booked) (state : Reconcile)
    (within : ledger.accountOf? split = some account) :
    (setReconcile split state).Ends ledger fun result after => result = .ok () → after.IsFresh account := by
  simp only [Action.setReconcile, editSplit, ensureEditable_eq, ends_bind, ends_ask]
  cases ledger.checkEditable split with
  | error _ => rintro ⟨⟩
  | ok _ =>
    simp only [ends_update]
    let flagged := ledger.modifySplit split fun s => { s with reconcile := state }
    have alike := flagged.mark_alike split
    have membership : (flagged.mark split).membership = ledger.membership :=
      alike.membership.trans (membership_modifySplit fun _ => rfl)
    have sound : (flagged.mark split).Booked := booked.linked membership alike.minted.ge
    have still : (flagged.mark split).accountOf? split = some account := by
      rw [← account_eq_iff, membership, account_eq_iff]
      exact within
    obtain ⟨entry, isSplit, isAccount⟩ := Option.bind_eq_some_iff.mp still
    rw [split_eq_ok_iff.mpr isSplit]
    dsimp only
    rw [isAccount]
    exact fun _ => sound.shelved.isFresh_recompute (sound.isSome_account? still)

omit [ZeroPriced α] in
theorem ends_leaveAccount (booked : ledger.Booked) (within : ledger.accountOf? split = some account) :
    (Action.leaveAccount split).Ends ledger fun result after =>
      result = .ok () → after.IsFresh account := by
  simp only [Action.leaveAccount, ensureEditable_eq, ends_bind, ends_ask]
  cases ledger.checkEditable split with
  | error _ => rintro ⟨⟩
  | ok _ =>
    simp only [ends_update]
    refine fun _ => (booked.isFresh_leaveAccount within).congr rfl fun id listed => ?_
    obtain ⟨holder, held, inside⟩ := listed
    rw [split?_modifySplit, if_neg (booked.shelved.mem_leaveAccount held inside).1]

omit [ZeroPriced α] in
/-- The account that a split goes to is recomputed when the one that it left already is. -/
theorem ends_enterAccount (booked : ledger.Booked) :
    (enterAccount account split).Ends ledger fun result after => result = .ok () →
      after.IsFresh account ∧ ∀ other, ledger.accountOf? split = some other → after.IsFresh other := by
  simp only [enterAccount, ensureEditable_eq, ends_bind, ends_ask]
  cases isAccount : ledger.account account with
  | error _ => rintro ⟨⟩
  | ok holder =>
    dsimp only
    cases editable : ledger.checkEditable split with
    | error _ => rintro ⟨⟩
    | ok _ =>
      obtain ⟨entry, isSplit, -⟩ := bind_eq_ok_iff.mp editable
      simp only [ends_enterRegister, ends_update]
      refine fun _ => booked.isFresh_entered ?_ ?_
      · simp [split_eq_ok_iff.mp isSplit]
      · simp [account_eq_ok_iff.mp isAccount]

end Moving

end Recomputed

/-! ## Commands -/

section Commands

variable {α J : Type}

/-- The ledger with the numbers that a command sets before it rebalances. -/
def Command.setNumbers [Scalar α] (ledger : Ledger α J) : Command α → Ledger α J
  | .setPriceAndAmount split price amount => ledger.modifySplit split fun s => { s with price, amount }
  | .setPrice split price => ledger.modifySplit split fun s => { s with price }
  | .setAmount split amount => ledger.modifySplit split fun s => { s with amount }
  | .setValue split value => ledger.modifySplit split fun s => { s with amount := value / s.price }
  | _ => ledger

/-- Whether a command may rebalance a transaction. -/
def Command.mayRebalance : Command α → Bool
  | .setPriceAndAmount _ _ _ | .setPrice _ _ | .setAmount _ _ | .setValue _ _ | .appendSplit _ _
  | .commitEdit _ | .destroySplit _ | .rebalanceSplit _ | .rebalanceTransaction _ => true
  | _ => false

/-- The splits that a command removes from the ledger unless it fails. -/
def Command.removes (ledger : Ledger α J) : Command α → List SplitId
  | .discardSplit split => [split]
  | .destroyTransaction transaction => ledger.splitsOf transaction
  | .destroySplit split =>
    match ledger.parentOf? split with
    | none => []
    | some owner => if (ledger.splitsOf owner).length ≤ 2 then ledger.splitsOf owner else [split]
  | _ => []

/-- The accounts that a command is to leave fresh: those of a committed transaction, of a split that is
reconciled, enters or leaves, or is removed, and those in which rebalancing changed an amount. The last ones
are fresh also if the command fails after that. -/
inductive Command.Refreshes [Scalar α] (before after : Ledger α J) (result : Except Fault (Reply α))
    (account : AccountId) : Command α → Prop
  | committed {transaction : TransactionId} {id : SplitId} (succeeds : result = .ok .done)
    (inside : id ∈ after.splitsOf transaction) (within : after.accountOf? id = some account) :
    Refreshes before after result account (.commitEdit transaction)
  | reconciled {split : SplitId} {state : Reconcile} (succeeds : result = .ok .done)
    (within : before.accountOf? split = some account) :
    Refreshes before after result account (.setReconcile split state)
  | entered {split : SplitId} (succeeds : result = .ok .done) :
    Refreshes before after result account (.enterAccount account split)
  | exchanged {split : SplitId} {other : AccountId} (succeeds : result = .ok .done)
    (within : before.accountOf? split = some account) :
    Refreshes before after result account (.enterAccount other split)
  | left {split : SplitId} (succeeds : result = .ok .done)
    (within : before.accountOf? split = some account) :
    Refreshes before after result account (.leaveAccount split)
  | removed {command : Command α} {id : SplitId} (succeeds : result = .ok .done)
    (inside : id ∈ command.removes before) (within : before.accountOf? id = some account) :
    Refreshes before after result account command
  | balanced {command : Command α} {id : SplitId} (rebalances : command.mayRebalance = true)
    (given : result = .ok .done ∨ (command.setNumbers before).amount? id = before.amount? id)
    (within : after.accountOf? id = some account)
    (moved : after.amount? id ≠ (command.setNumbers before).amount? id) :
    Refreshes before after result account command

variable [Scalar α] [Journal J α] [ZeroPriced α] {ledger : Ledger α J}

/-- Rebalancing leaves the accounts fresh in which it changed an amount, whatever else the command does. -/
theorem Command.ends_balances (booked : ledger.Booked) {command : Command α}
    (rebalances : command.mayRebalance = true) :
    (command.act (J := J)).Ends ledger fun result after =>
      WhileFresh (ledger.Balances (command.setNumbers ledger) (result = .ok .done)) after := by
  have start : WhileFresh ledger.Kept ledger := fun _ => booked.kept
  have done {action : Action α J Unit}
      (ends : action.Ends ledger fun _ after => WhileFresh ledger.Renews after) :
      (Command.act.done action : Action α J (Reply α)).Ends ledger fun result after =>
        WhileFresh (ledger.Balances ledger (result = .ok .done)) after :=
    Command.ends_done.mpr (ends.imp fun _ _ renews fresh => (renews fresh).balances fun _ _ => rfl)
  have kept {action : Action α J Unit} (keeps : Keeps (WhileFresh ledger.Kept) action) :
      (Command.act.done action : Action α J (Reply α)).Ends ledger fun result after =>
        WhileFresh (ledger.Balances ledger (result = .ok .done)) after :=
    done ((keeps ledger start).imp fun _ _ kept fresh => (kept fresh).renews)
  have sets {action : Action α J Unit} {set : Ledger α J}
      (ends : action.Ends ledger fun result after =>
        WhileFresh (ledger.Balances set (result = .ok ())) after) :
      (Command.act.done action : Action α J (Reply α)).Ends ledger fun result after =>
        WhileFresh (ledger.Balances set (result = .ok .done)) after := by
    refine Command.ends_done.mpr (ends.imp fun result after balances => ?_)
    rw [Command.map_done_eq_ok_iff]
    exact balances
  have refused {set : Ledger α J} (fault : Fault) :
      WhileFresh (ledger.Balances set ((.error fault : Except Fault Unit) = .ok ())) ledger :=
    fun _ => balances_refused set fault
  cases command with
  | setPriceAndAmount split _ _ =>
    exact sets (ends_finite_or refused (ends_finite_or refused
      (Recomputed.ends_editNumbers (by exact fun _ => rfl) split (fun _ => rfl) booked)))
  | setPrice split _ | setAmount split _ =>
    exact sets (ends_finite_or refused
      (Recomputed.ends_editNumbers (by exact fun _ => rfl) split (fun _ => rfl) booked))
  | setValue split value =>
    refine sets (ends_finite_or refused ?_)
    rw [ensureEditable_eq]
    refine ends_ask_or refused fun _ _ => ends_ask_or refused fun entry isSplit => ?_
    rw [ends_ite]
    split_ifs with free
    · exact refused _
    · refine Recomputed.ends_editNumbers (by exact fun _ => rfl) split (fun id => ?_) booked
      rw [Command.setNumbers, amount?, amount?, split?_modifySplit, split?_modifySplit]
      split
      · subst_vars
        rw [split_eq_ok_iff.mp isSplit]
        rfl
      · rfl
  | appendSplit transaction split => exact kept (Recomputed.keeps_appendSplit transaction split)
  | commitEdit transaction =>
    exact done ((Recomputed.ends_commitEdit booked transaction).imp fun _ _ ends fresh => (ends fresh).1)
  | destroySplit split =>
    exact done ((Recomputed.ends_destroySplit start split).imp fun _ _ kept fresh => (kept fresh).renews)
  | rebalanceSplit split => exact kept (Recomputed.keeps_rebalanceSplit split)
  | rebalanceTransaction transaction => exact kept (Recomputed.keeps_rebalanceTransaction transaction)
  | _ => cases rebalances

/-- What a command removed leaves its account fresh, also when the rest is balanced after it. -/
theorem Command.ends_removes (owned : ledger.Owned) (booked : ledger.Booked) {command : Command α}
    {id : SplitId} {account : AccountId} (inside : id ∈ command.removes ledger)
    (within : ledger.accountOf? id = some account) :
    (command.act (J := J)).Ends ledger fun result after =>
      after.minted ≤ 2 ^ 128 → result = .ok .done → after.IsFresh account := by
  cases command with
  | discardSplit split =>
    obtain rfl := List.mem_singleton.mp inside
    refine (Command.ends_done_of_ok ?_).imp fun _ _ fresh _ => fresh
    obtain ⟨entry, isSplit, -⟩ := Option.bind_eq_some_iff.mp within
    rw [Action.discardSplit, ends_bind, ends_ask, split_eq_ok_iff.mpr isSplit]
    dsimp only
    split
    · rintro ⟨⟩
    · exact fun _ => booked.isFresh_eraseSplit within
  | destroyTransaction transaction =>
    refine (Command.Destroys.whole.ends owned booked).imp fun result after whole _ succeeds => ?_
    exact (whole.goes .done succeeds).fresh id inside account within
  | destroySplit split =>
    cases parent : ledger.parentOf? split with
    | none =>
      rw [Command.removes, parent] at inside
      cases inside
    | some owner =>
      obtain ⟨transaction, found⟩ := owned.known (parentOf?_eq_some_iff.mp parent)
      rw [Command.removes, parent] at inside
      dsimp only at inside
      split_ifs at inside with few
      · refine ((Command.Destroys.last parent few).ends owned booked).imp
          fun result after whole _ succeeds => ?_
        exact (whole.goes .done succeeds).fresh id inside account within
      · obtain rfl := List.mem_singleton.mp inside
        rw [splitsOf_eq found] at few
        have shed := Recomputed.ends_destroySplit_of_several owned booked parent found few within
        exact (Command.ends_done_of_ok shed).imp fun _ _ held fresh succeeds => held succeeds fresh
  | _ => cases inside

/-- The accounts that a command is to leave fresh are fresh, in any ledger that can be reached while its
registers are left to it, with any journal and any numbers. Fresh means that every running balance is the sum,
from the first entry on and in the order of the register, over all entries up to its own.

This holds while the ledger does not run out of identifiers. -/
theorem Reachable.refreshed (reached : Reachable Deed.LeavesRegisters ledger) (request : Command α)
    (fresh : (request.run ledger).ledger.minted ≤ 2 ^ 128) (account : AccountId)
    (refreshes : request.Refreshes ledger (request.run ledger).ledger (request.run ledger).result account) :
    (request.run ledger).ledger.IsFresh account := by
  have owned := reached.owned
  have booked := reached.booked
  have replies {action : Action α J Unit} {holds : Ledger α J → Prop}
      (ends : action.Ends ledger fun result after => result = .ok () → holds after) :
      (Command.act.done action).Ends ledger fun result after => result = .ok .done → holds after :=
    Command.ends_done_of_ok ends
  cases refreshes with
  | @committed transaction id succeeds inside within =>
    have ends := (Recomputed.ends_commitEdit booked transaction).imp fun _ _ held succeeds fresh =>
      (held fresh).2 succeeds
    exact replies ends succeeds fresh id inside account within
  | @reconciled split state succeeds within =>
    exact replies (Recomputed.ends_setReconcile booked state within) succeeds
  | @entered split succeeds =>
    exact (replies (Recomputed.ends_enterAccount booked) succeeds).1
  | @exchanged split other succeeds within =>
    exact (replies (Recomputed.ends_enterAccount booked) succeeds).2 account within
  | @left split succeeds within =>
    exact replies (Recomputed.ends_leaveAccount booked within) succeeds
  | removed succeeds inside within =>
    exact Command.ends_removes owned booked inside within fresh succeeds
  | @balanced _ id rebalances given within moved =>
    exact Command.ends_balances booked rebalances fresh id account given within moved

omit [Scalar α] [Journal J α] [ZeroPriced α] in
/-- Transaction 2 is committed; and split 1 of it answers an amount that split 5 is given. -/
theorem Reachable.refreshed_threefold :
    ((Command.commitEdit ⟨.ofNat 2⟩).run threefold).ledger.IsFresh ⟨.ofNat 0⟩ ∧
    ((Command.setAmount ⟨.ofNat 5⟩ 20).run threefold).ledger.IsFresh ⟨.ofNat 0⟩ := by
  constructor
  · exact Reachable.refreshed reachable_threefold _ (by decide +kernel) _ (.committed (by decide +kernel)
      (show (⟨.ofNat 5⟩ : SplitId) ∈ _ by decide +kernel) (by decide +kernel))
  · exact Reachable.refreshed reachable_threefold _ (by decide +kernel) _
      (.balanced rfl (.inl (by decide +kernel))
        (show accountOf? _ (⟨.ofNat 1⟩ : SplitId) = _ by decide +kernel) (by decide +kernel))

end Commands

end DoubleEntry
