import DoubleEntry.Proofs.Chronicle
import DoubleEntry.Proofs.Freshness

/-! # Destroying

A transaction that is destroyed goes with all its splits, and only once the journal has taken the record of
it: whatever fails before leaves splits, transactions and accounts as they were. A split that is destroyed
takes its transaction along if that has at most two splits; otherwise it goes alone, unrecorded, and what
is left is rebalanced.
-/

namespace DoubleEntry

open DoubleEntry.Action

namespace Ledger

variable {α J : Type} [Scalar α] {ledger before middle after : Ledger α J} {id split first : SplitId}
  {account : AccountId} {owner : TransactionId} {transaction : Transaction} {splits gone : List SplitId}

/-- What is left once splits were removed: the others as they were but for running balances, registers
without them, and the accounts that they were in recomputed. -/
structure Sheds (before after : Ledger α J) (gone : List SplitId) : Prop where
  absent : ∀ id ∈ gone, after.split? id = none
  others : ∀ id ∉ gone, (after.split? id).map Split.bare = (before.split? id).map Split.bare
  registers : ∀ account, (after.account? account).map (·.register) =
    (before.account? account).map fun holder => holder.register.filter (· ∉ gone)
  fresh : ∀ id ∈ gone, ∀ account, before.accountOf? id = some account → after.IsFresh account

/-- The ledger once splits are removed one after another. -/
def erased (splits : List SplitId) (ledger : Ledger α J) : Ledger α J :=
  splits.foldl (fun ledger split => (ledger.mark split).eraseSplit split) ledger

/-- The ledger once a transaction is gone with all its splits. -/
def dissolved (owner : TransactionId) (ledger : Ledger α J) : Ledger α J :=
  let left := ledger.erased (ledger.splitsOf owner)
  { left with transactions := left.transactions.erase owner }

/-! ## Splits go -/

theorem settings_leaveAccount : (ledger.leaveAccount split).settings = ledger.settings := by
  unfold leaveAccount
  split
  · exact (recompute_alike _ _).settings
  · rfl

theorem Booked.mark (booked : ledger.Booked) (split : SplitId) : (ledger.mark split).Booked :=
  booked.linked (ledger.mark_alike split).membership (ledger.mark_alike split).minted.ge

/-- One split goes. -/
theorem Booked.sheds_eraseSplit (booked : ledger.Booked) (split : SplitId) :
    ledger.Sheds (ledger.eraseSplit split) [split] where
  absent id inside := by
    obtain rfl := List.mem_singleton.mp inside
    rw [split?_eraseSplit, if_pos rfl]
  others id outside := by
    rw [split?_eraseSplit, if_neg (by simpa using outside), bare_leaveAccount]
  registers account := by
    refine (booked.shelved.register_leaveAccount split account).trans ?_
    simp only [List.mem_singleton]
  fresh id inside account within := by
    obtain rfl := List.mem_singleton.mp inside
    exact booked.isFresh_eraseSplit within

/-- The accounts of splits that are gone stay fresh while more of them go. -/
theorem Sheds.cons (sheds : before.Sheds middle [first]) (onward : middle.Sheds after splits)
    (renews : middle.Renews after) : before.Sheds after (first :: splits) where
  absent id inside := by
    by_cases later : id ∈ splits
    · exact onward.absent id later
    · obtain rfl := (List.mem_cons.mp inside).resolve_right later
      have gone := onward.others id later
      rw [sheds.absent id (by simp), Option.map_none] at gone
      exact Option.map_eq_none_iff.mp gone
  others id outside := by
    rw [List.mem_cons, not_or] at outside
    exact (onward.others id outside.2).trans (sheds.others id (by simpa using outside.1))
  registers account := by
    have onward := onward.registers account
    have first := congrArg (Option.map (List.filter (· ∉ splits))) (sheds.registers account)
    rw [Option.map_map, Option.map_map] at first
    refine onward.trans (first.trans (congrArg (Option.map · _) (funext fun holder => ?_)))
    simp only [Function.comp_apply, List.filter_filter, List.mem_cons, List.not_mem_nil, or_false,
      not_or, Bool.decide_and, Bool.and_comm]
  fresh id inside account within := by
    by_cases here : id = first
    · exact renews.keeps (sheds.fresh id (by simp [here]) account within)
    · refine onward.fresh id ((List.mem_cons.mp inside).resolve_left here) account ?_
      have kept := congrArg (Option.map (·.account)) (sheds.others id (by simpa using here))
      rw [Option.map_map, Option.map_map] at kept
      exact (accountOf?_congr kept).trans within

theorem Sheds.since (sheds : middle.Sheds after gone)
    (splits : ∀ id, middle.split? id = before.split? id)
    (registers : ∀ account,
      (middle.account? account).map (·.register) = (before.account? account).map (·.register)) :
    before.Sheds after gone where
  absent := sheds.absent
  others id outside := (sheds.others id outside).trans (by rw [splits])
  registers account := by
    have kept := congrArg (Option.map (List.filter (· ∉ gone))) (registers account)
    rw [Option.map_map, Option.map_map] at kept
    exact (sheds.registers account).trans kept
  fresh id inside account within := by
    rw [accountOf?, ← splits, ← accountOf?] at within
    exact sheds.fresh id inside account within

theorem Sheds.of_mark (sheds : (ledger.mark split).Sheds after gone) : ledger.Sheds after gone :=
  sheds.since (split?_mark split) (ledger.mark_alike split).still.registers

/-- Splits go one after another, and each account is recomputed once for each of them. -/
theorem Booked.erased (booked : ledger.Booked) (splits : List SplitId) :
    (ledger.erased splits).Booked ∧ ledger.Renews (ledger.erased splits) ∧
      ledger.Sheds (ledger.erased splits) splits := by
  induction splits generalizing ledger with
  | nil =>
    refine ⟨booked, .refl ledger, nofun, fun _ _ => rfl, fun account => ?_, nofun⟩
    simp [Ledger.erased]
  | cons first rest ih =>
    have marked := booked.mark first
    obtain ⟨sound, renews, sheds⟩ := ih (marked.eraseSplit first)
    have gone : ledger.Sheds ((ledger.mark first).eraseSplit first) [first] :=
      (marked.sheds_eraseSplit first).of_mark
    exact ⟨sound, (renews_mark.trans (marked.renews_eraseSplit first)).trans renews,
      gone.cons sheds renews⟩

/-! ## A transaction goes -/

omit [Scalar α] in
/-- A record of a transaction holds every split of it. -/
theorem Owned.snapshot_splits (owned : ledger.Owned) {snapshot : TransactionSnapshot α}
    (isSnapshot : ledger.snapshot owner = .ok snapshot) :
    snapshot.splits.map (·.split) = ledger.splitsOf owner := by
  obtain ⟨transaction, found, isSnapshot⟩ := bind_eq_ok_iff.mp isSnapshot
  rw [transaction_eq_ok_iff] at found
  obtain rfl := Except.ok.inj isSnapshot
  rw [splitsOf_eq found, List.map_filterMap]
  refine (List.filterMap_congr fun id inside => ?_).trans List.filterMap_some
  obtain ⟨entry, isSplit, -⟩ := parent_eq_iff.mp ((owned.mem_iff found).mp inside)
  simp [isSplit]

end Ledger

namespace Action

open Ledger

variable {α J : Type} [Scalar α] [Journal J α] {ledger : Ledger α J} {owner : TransactionId}
  {transaction : Transaction} {split : SplitId}

/-- All that can fail is the record, which comes first. -/
theorem ends_discardTransaction_iff {snapshot : TransactionSnapshot α}
    {property : Except Fault Unit → Ledger α J → Prop}
    (isSnapshot : ledger.snapshot owner = .ok snapshot) :
    (discardTransaction owner).Ends ledger property ↔
      match Journal.append (Ident.ofNat ledger.minted) ⟨.destroyed, snapshot, ledger.now⟩ ledger.journal with
      | (.ok (), journal) =>
        property (.ok ()) ({ ledger with journal, minted := ledger.minted + 1 }.dissolved owner)
      | (.error fault, journal) =>
        property (.error fault.toFault) { ledger with journal, minted := ledger.minted + 1 } := by
  obtain ⟨transaction, found, -⟩ := bind_eq_ok_iff.mp isSnapshot
  rw [transaction_eq_ok_iff] at found
  simp only [discardTransaction, writeRecord, ends_bind, ends_ask, isSnapshot, ends_read, ends_mint,
    ends_toJournal]
  rcases Journal.append (Ident.ofNat ledger.minted) ⟨.destroyed, snapshot, ledger.now⟩ ledger.journal with
    ⟨_ | _, journal⟩
  · exact .rfl
  · have still : Ledger.transaction { ledger with journal, minted := ledger.minted + 1 } owner =
        .ok transaction := transaction_eq_ok_iff.mpr found
    have lists : Ledger.splitsOf { ledger with journal, minted := ledger.minted + 1 } owner =
        transaction.splits := splitsOf_eq found
    simp only [Except.mapError, still, dissolved, lists]
    exact .rfl

/-- A listed split of an open transaction takes that along, or goes alone and leaves the rest to be balanced. -/
theorem destroySplit_eq (parent : ledger.parentOf? split = some owner)
    (found : ledger.transaction? owner = some transaction) (inside : split ∈ transaction.splits) :
    destroySplit split ledger =
      if transaction.edit.isOpen then
        if transaction.splits.length ≤ 2 then discardTransaction owner ledger
        else rebalanceTransaction owner (ledger.without owner split)
      else raise (.notOpen owner) ledger := by
  obtain ⟨entry, isSplit, isParent⟩ := Option.bind_eq_some_iff.mp parent
  have isOwner := transaction_eq_ok_iff.mpr found
  have listed : (!transaction.splits.contains split) = false := by simpa using inside
  simp only [destroySplit, ask_bind, split_eq_ok_iff.mpr isSplit, isParent, ensureOpen_eq, checkOpen,
    isOwner, ok_bind]
  cases transaction.edit.isOpen with
  | false => rfl
  | true =>
    simp only [if_true, listed, Bool.false_eq_true, if_false]
    split <;> rfl

omit [Journal J α] in
/-- No split is added to a transaction that has several. -/
theorem ends_rebalanceTransaction_of_several (owned : ledger.Owned)
    (found : ledger.transaction? owner = some transaction) (several : 1 < transaction.splits.length) :
    (rebalanceTransaction owner).Ends ledger fun _ after => after.transactions = ledger.transactions := by
  rw [rebalanceTransaction, ends_bind, ends_ask, transaction_eq_ok_iff.mpr found]
  dsimp only
  cases isSource : transaction.source? with
  | none => rfl
  | some source =>
    dsimp only
    rw [rebalanceSplit, ends_settle]
    rcases decided : ledger.settlement source with _ | _ | ⟨parent, target, base⟩ | ⟨parent, other⟩
    · rfl
    · rfl
    · dsimp only
      cases ledger.absorption parent target base with
      | error _ => rfl
      | ok _ => exact Upkeep.transactions_absorbed
    · obtain ⟨-, entry, lone, -, active, alone, -⟩ := settlement_eq_pair decided
      obtain ⟨again, isSplit, isParent⟩ :=
        parent_eq_iff.mp ((owned.mem_iff found).mp (List.mem_of_mem_head? isSource))
      obtain rfl := Option.some.inj (isSplit.symm.trans active.isSplit)
      obtain rfl := Option.some.inj (isParent.symm.trans active.parent)
      obtain rfl := Option.some.inj (found.symm.trans active.isOwner)
      simp [alone] at several

end Action

/-! ## Commands that destroy -/

section Destroying

open Ledger

variable {α J : Type} [Scalar α] [Journal J α] {ledger before after : Ledger α J} {owner : TransactionId}
  {transaction : Transaction} {split : SplitId}

/-- The commands that destroy a transaction as a whole. -/
inductive Command.Destroys (ledger : Ledger α J) (owner : TransactionId) : Command α → Prop
  | whole : Destroys ledger owner (.destroyTransaction owner)
  | last {split : SplitId} (parent : ledger.parentOf? split = some owner)
    (few : (ledger.splitsOf owner).length ≤ 2) : Destroys ledger owner (.destroySplit split)

/-- Splits, transactions and accounts are the same. -/
structure Ledger.SameEntries (before after : Ledger α J) : Prop where
  splits : after.splits = before.splits
  transactions : after.transactions = before.transactions
  accounts : after.accounts = before.accounts

/-- A transaction is gone with all its splits, and the journal took one record of it as it was. -/
structure Ledger.Dissolves (before after : Ledger α J) (owner : TransactionId) : Prop
    extends before.Sheds after (before.splitsOf owner) where
  recorded : ∃ event snapshot, before.snapshot owner = .ok snapshot ∧
    snapshot.splits.map (·.split) = before.splitsOf owner ∧
    Journal.append event ⟨.destroyed, snapshot, before.now⟩ before.journal = (.ok (), after.journal)
  gone : after.transaction? owner = none
  unlisted : ∀ id ∈ before.splitsOf owner, ∀ account holder, after.account? account = some holder →
    id ∉ holder.register

/-- A split is gone, and its transaction lists the others in their order. -/
structure Ledger.Parts (before after : Ledger α J) (owner : TransactionId) (split : SplitId) : Prop
    extends before.Sheds after [split] where
  transactions : ∀ id, after.transaction? id =
    if id = owner then (before.transaction? id).map fun transaction =>
      { transaction with splits := transaction.splits.filter (· ≠ split) }
    else before.transaction? id
  settings : after.settings = before.settings
  journal : after.journal = before.journal
  minted : after.minted = before.minted

/-- A transaction goes as a whole, or nothing goes. -/
structure Ledger.WholeOrNot {β : Type} (before : Ledger α J) (owner : TransactionId)
    (result : Except Fault β) (after : Ledger α J) : Prop where
  stays : ∀ fault, result = .error fault → before.SameEntries after
  goes : ∀ value, result = .ok value → before.Dissolves after owner

theorem Ledger.WholeOrNot.refused {β : Type} (fault : Fault) :
    ledger.WholeOrNot owner (.error fault : Except Fault β) ledger :=
  ⟨fun _ _ => ⟨rfl, rfl, rfl⟩, nofun⟩

omit [Journal J α] in
theorem Ledger.Sheds.unlisted {gone : List SplitId} {id : SplitId} (sheds : before.Sheds after gone)
    (inside : id ∈ gone) {account : AccountId} {holder : Account}
    (held : after.account? account = some holder) : id ∉ holder.register := by
  have register := sheds.registers account
  rw [held, Option.map_some] at register
  obtain ⟨former, -, same⟩ := Option.map_eq_some_iff.mp register.symm
  simp [← same, inside]

omit [Journal J α] in
theorem Ledger.Booked.parts_without (booked : ledger.Booked) (owner : TransactionId) (split : SplitId) :
    ledger.Parts (ledger.without owner split) owner split := by
  have left : ((ledger.mark split).modifyTransaction owner (·.drop split)).Booked :=
    (booked.mark split).linked rfl le_rfl
  have drops : (ledger.mark split).Unrecorded
      ((ledger.mark split).modifyTransaction owner (·.drop split)) :=
    Unrecorded.modifyTransaction (by exact fun _ => rfl) owner _
  have quiet := (Unrecorded.mark split ledger).trans (drops.trans (Unrecorded.eraseSplit split _))
  have sheds : (ledger.mark split).Sheds (ledger.without owner split) [split] :=
    (left.sheds_eraseSplit split).since (fun _ => rfl) fun _ => rfl
  refine ⟨sheds.of_mark, fun id => ?_, ?_, quiet.journal, minted_without⟩
  · rw [without, transaction?, transactions_eraseSplit]
    change ((ledger.mark split).modifyTransaction owner (·.drop split)).transaction? id = _
    rw [transaction?_modifyTransaction, transaction?_mark]
    split
    · subst_vars
      rfl
    · rw [transaction?_mark]
  · exact settings_leaveAccount.trans (ledger.mark_alike split).settings

/-- A transaction of the ledger goes once that is recorded, and stays if it is not. -/
theorem Action.ends_discardTransaction_whole (owned : ledger.Owned) (booked : ledger.Booked)
    (found : ledger.transaction? owner = some transaction) :
    (discardTransaction owner).Ends ledger (ledger.WholeOrNot owner) := by
  have live : (ledger.transaction? owner).isSome := by simp [found]
  obtain ⟨snapshot, isSnapshot, -⟩ := snapshot_of_live live
  rw [ends_discardTransaction_iff isSnapshot]
  rcases answer : Journal.append (Ident.ofNat ledger.minted) ⟨.destroyed, snapshot, ledger.now⟩
    ledger.journal with ⟨_ | _, journal⟩
  · exact ⟨fun _ _ => ⟨rfl, rfl, rfl⟩, nofun⟩
  · dsimp only
    let told : Ledger α J := { ledger with journal, minted := ledger.minted + 1 }
    have sound : told.Booked := booked.linked rfl (Nat.le_succ _)
    have sheds : told.Sheds (told.dissolved owner) (ledger.splitsOf owner) := by
      obtain ⟨absent, others, registers, fresh⟩ := (sound.erased (ledger.splitsOf owner)).2.2
      exact ⟨absent, others, registers, fresh⟩
    have sheds : ledger.Sheds (told.dissolved owner) (ledger.splitsOf owner) :=
      sheds.since (fun _ => rfl) fun _ => rfl
    have quiet : told.Unrecorded (told.erased (ledger.splitsOf owner)) :=
      Unrecorded.eraseSplits (ledger.splitsOf owner) told
    refine ⟨nofun, fun _ _ => ⟨sheds, ⟨Ident.ofNat ledger.minted, snapshot, isSnapshot,
      owned.snapshot_splits isSnapshot, ?_⟩, ?_, fun id inside account holder => sheds.unlisted inside⟩⟩
    · exact answer.trans (congrArg (Prod.mk _) quiet.journal.symm)
    · exact (Table.get?_erase ..).trans (if_pos rfl)

omit [Scalar α] [Journal J α] in
theorem Command.done_congr {one other : Action α J Unit} {ledger again : Ledger α J}
    (same : one ledger = other again) :
    (Command.act.done one : Action α J (Reply α)) ledger = Command.act.done other again := by
  change andThen one _ ledger = andThen other _ again
  rw [andThen, andThen, same]

omit [Scalar α] [Journal J α] in
theorem Command.ledger_done {action : Action α J Unit} {ledger : Ledger α J} :
    ((Command.act.done action : Action α J (Reply α)) ledger).ledger = (action ledger).ledger := by
  change (andThen action _ ledger).ledger = _
  rw [andThen]
  cases (action ledger).result <;> rfl

omit [Scalar α] [Journal J α] in
theorem Command.ends_done {action : Action α J Unit}
    {property : Except Fault (Reply α) → Ledger α J → Prop} :
    (Command.act.done action).Ends ledger property ↔
      action.Ends ledger fun result after => property (result.map fun _ => .done) after := by
  rw [Command.act.done, ends_bind]
  refine iff_of_eq (congrArg _ (funext fun result => funext fun after => ?_))
  cases result <;> rfl

omit [Scalar α] [Journal J α] in
theorem Command.map_done_eq_ok_iff {result : Except Fault Unit} :
    (result.map fun _ => (.done : Reply α)) = .ok .done ↔ result = .ok () := by
  cases result <;> simp [Except.map]

omit [Scalar α] [Journal J α] in
/-- What holds of an action that does not fail holds of the command. -/
theorem Command.ends_done_of_ok {action : Action α J Unit} {holds : Ledger α J → Prop}
    (ends : action.Ends ledger fun result after => result = .ok () → holds after) :
    (Command.act.done action : Action α J (Reply α)).Ends ledger fun result after =>
      result = .ok .done → holds after := by
  rw [Command.ends_done]
  exact ends.imp fun result after held succeeds => held (Command.map_done_eq_ok_iff.mp succeeds)

/-- What a command that destroys a transaction does, whether or not it fails. -/
theorem Command.Destroys.ends {request : Command α} (destroys : request.Destroys ledger owner)
    (owned : ledger.Owned) (booked : ledger.Booked) :
    (request.act (J := J)).Ends ledger (ledger.WholeOrNot owner) := by
  have replies {action : Action α J Unit} (ends : action.Ends ledger (ledger.WholeOrNot owner)) :
      (Command.act.done action).Ends ledger (ledger.WholeOrNot owner) := by
    refine Command.ends_done.mpr (ends.imp fun result after held => ?_)
    cases result with
    | error fault => exact ⟨fun _ _ => held.stays fault rfl, nofun⟩
    | ok _ => exact ⟨nofun, fun _ _ => held.goes () rfl⟩
  cases destroys with
  | whole =>
    refine replies ?_
    rw [Action.destroyTransaction, ensureOpen_eq, ends_bind, ends_ask]
    cases isOpen : ledger.checkOpen owner with
    | error fault => exact .refused fault
    | ok _ =>
      obtain ⟨transaction, found, -⟩ := checkOpen_eq_ok_iff.mp isOpen
      exact ends_discardTransaction_whole owned booked found
  | @last split parent few =>
    refine replies ?_
    have named := parentOf?_eq_some_iff.mp parent
    obtain ⟨transaction, found⟩ := owned.known named
    rw [splitsOf_eq found] at few
    rw [Ends, destroySplit_eq parent found ((owned.mem_iff found).mpr named), if_pos few]
    split
    · exact ends_discardTransaction_whole owned booked found
    · exact .refused _

omit [Journal J α] in
/-- Balancing what a split left behind writes nothing and adds no split. -/
theorem Action.ends_rebalanceTransaction_without (owned : ledger.Owned) (booked : ledger.Booked)
    (parent : ledger.parentOf? split = some owner) (found : ledger.transaction? owner = some transaction)
    (several : 2 < transaction.splits.length) :
    (rebalanceTransaction owner).Ends (ledger.without owner split) fun _ after =>
      after.journal = ledger.journal ∧ after.splitsOf owner = transaction.splits.filter (· ≠ split) := by
  have named := parentOf?_eq_some_iff.mp parent
  have rest : (ledger.without owner split).transaction? owner = some (transaction.drop split) :=
    transaction?_without found
  have left : 1 < (transaction.drop split).splits.length := by
    have drops := List.length_erase_of_mem ((owned.mem_iff found).mpr named)
    have same : (transaction.drop split).splits = transaction.splits.erase split := by
      rw [(owned.nodup found).erase_eq_filter]
      exact List.filter_congr fun id _ => by simp [bne, beq_eq_decide]
    rw [same]
    omega
  have adds := ends_rebalanceTransaction_of_several
    (Ownership.owned_without owned named found (by omega)) rest left
  have quiet : (rebalanceTransaction owner).Ends (ledger.without owner split)
      fun _ after => (ledger.without owner split).Unrecorded after :=
    keeps_rebalanceTransaction Unrecorded.keeps_rebalanceSplit owner _ (Unrecorded.refl _)
  refine (Ends.and adds quiet).imp fun result after ⟨transactions, quiet⟩ => ⟨?_, ?_⟩
  · exact quiet.journal.trans (booked.parts_without owner split).journal
  · rw [splitsOf, transaction?, transactions, ← transaction?, rest]
    rfl

variable [ZeroPriced α]

/-- Destroying, in any ledger that can be reached while its registers are left to it, and with any journal.

A command that destroys a transaction as a whole is written ahead: if it fails, for whatever reason, splits,
transactions and accounts are the same. Otherwise the journal took one record with all that the transaction
was; the transaction is gone, and so are its splits, from the ledger and from all registers, in which the
others keep their order; and the accounts that these splits were in are fresh.

A split of a larger transaction is refused if that is closed. Otherwise it goes alone, without a record, from
the list of its transaction, in which the others keep their order, and from its register; and the outcome is
that of rebalancing the transaction on what is left, which adds no split to it. -/
theorem Reachable.destruction_complete (reached : Reachable Deed.LeavesRegisters ledger) :
    (∀ (request : Command α) owner, request.Destroys ledger owner →
      ledger.WholeOrNot owner (request.run ledger).result (request.run ledger).ledger) ∧
    ∀ split owner transaction, ledger.parentOf? split = some owner →
      ledger.transaction? owner = some transaction → 2 < transaction.splits.length →
        if transaction.edit.isOpen then
          ∃ remainder, ledger.Parts remainder owner split ∧
            (Command.destroySplit split).run ledger = (Command.rebalanceTransaction owner).run remainder ∧
            ((Command.destroySplit split).run ledger).ledger.journal = ledger.journal ∧
            ((Command.destroySplit split).run ledger).ledger.splitsOf owner =
              transaction.splits.filter (· ≠ split)
        else (Command.destroySplit split).run ledger =
          ⟨.error (.notOpen owner), ledger, [.notOpen]⟩ := by
  have owned := reached.owned
  have booked := reached.booked
  refine ⟨fun request owner destroys => destroys.ends owned booked,
    fun split owner transaction parent found several => ?_⟩
  have listed := (owned.mem_iff found).mpr (parentOf?_eq_some_iff.mp parent)
  have goes := destroySplit_eq parent found listed
  rw [if_neg (by omega : ¬transaction.splits.length ≤ 2)] at goes
  cases isOpen : transaction.edit.isOpen with
  | false =>
    rw [isOpen, if_neg Bool.false_ne_true] at goes
    have refused : (Command.act.done (Action.destroySplit split) : Action α J (Reply α)) ledger =
        Command.act.done (raise (.notOpen owner)) ledger := Command.done_congr goes
    exact refused
  | true =>
    rw [isOpen, if_pos rfl] at goes
    rw [if_pos rfl]
    refine ⟨ledger.without owner split, booked.parts_without owner split, Command.done_congr goes, ?_⟩
    rw [Command.run, Command.act, Command.ledger_done, goes]
    exact ends_rebalanceTransaction_without owned booked parent found several

/-- Transaction 2 with the splits 1, 4 and 5 in one account, and an amount on the last one. -/
def Ledger.threefold : Ledger Float (MemoryLog Float) :=
  (oneSided 0 1 false).after ([.createSplit, .enterAccount ⟨.ofNat 0⟩ ⟨.ofNat 4⟩,
    .appendSplit ⟨.ofNat 2⟩ ⟨.ofNat 4⟩, .createSplit, .enterAccount ⟨.ofNat 0⟩ ⟨.ofNat 5⟩,
    .appendSplit ⟨.ofNat 2⟩ ⟨.ofNat 5⟩, .setAmount ⟨.ofNat 5⟩ 10].map Deed.command)

omit [Scalar α] [Journal J α] [ZeroPriced α] in
theorem Ledger.reachable_threefold : Reachable Deed.LeavesRegisters threefold :=
  ((Reachable.start _ _).after _ (by decide +kernel) (by decide +kernel)).after _ (by decide +kernel)
    (by decide +kernel)

omit [Scalar α] [Journal J α] [ZeroPriced α] in
/-- Transaction 2 is destroyed as a whole, and split 5 of it alone. -/
theorem Reachable.destruction_complete_threefold :
    threefold.Dissolves ((Command.destroyTransaction ⟨.ofNat 2⟩).run threefold).ledger ⟨.ofNat 2⟩ ∧
    ((Command.destroySplit ⟨.ofNat 5⟩).run threefold).ledger.splitsOf ⟨.ofNat 2⟩ =
      [⟨.ofNat 1⟩, ⟨.ofNat 4⟩] := by
  have lists : (threefold.transaction? ⟨.ofNat 2⟩).map
      (fun transaction => (transaction.splits, transaction.edit.isOpen)) =
        some ([⟨.ofNat 1⟩, ⟨.ofNat 4⟩, ⟨.ofNat 5⟩], true) := by decide +kernel
  obtain ⟨transaction, found, shape⟩ := Option.map_eq_some_iff.mp lists
  rw [Prod.mk.injEq] at shape
  have complete := Reachable.destruction_complete reachable_threefold
  constructor
  · have whole := complete.1 (.destroyTransaction ⟨.ofNat 2⟩) ⟨.ofNat 2⟩ .whole
    exact whole.goes .done (by decide +kernel)
  · have alone := complete.2 ⟨.ofNat 5⟩ ⟨.ofNat 2⟩ transaction (by decide +kernel) found (by simp [shape.1])
    rw [shape.2, if_pos rfl] at alone
    obtain ⟨remainder, -, -, -, lists⟩ := alone
    rw [lists, shape.1]
    decide +kernel

end Destroying

end DoubleEntry
