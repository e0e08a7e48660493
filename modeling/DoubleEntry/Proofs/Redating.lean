import DoubleEntry.Proofs.AtRest
import DoubleEntry.Proofs.Recomputed

/-! # Registers and new dates

A new date gives all splits of a transaction another place at once, but they go there one after another,
each by halving a register in which the others still are where they were. That register is in order but for
pairs with a split that has still to move. The search is not led astray by these if they all give the same
answer as their neighbours on the side that they come from: on the way to a later date, if none of them
belongs behind the split that moves, and on the way to an earlier one, if all of them do.
-/

namespace DoubleEntry

open Std DoubleEntry.Action

namespace Register

variable {κ : Type} [DecidableEq κ] {order : κ → κ → Ordering} {entry : κ} {entries moving rest : List κ}

/-- Entries go to their places one after another. -/
def movedAll (order : κ → κ → Ordering) (moving entries : List κ) : List κ :=
  moving.foldl (fun entries entry => Register.insert order entry entries) entries

theorem perm_insert (distinct : entries.Nodup) (inside : entry ∈ entries) :
    (Register.insert order entry entries).Perm entries := by
  have others : entries.filter (· ≠ entry) = entries.erase entry := by
    rw [distinct.erase_eq_filter]
    exact List.filter_congr fun other _ => by simp [bne, beq_eq_decide]
  rw [← Multiset.coe_eq_coe, coe_insert, Multiset.filter_coe, Multiset.cons_coe, Multiset.coe_eq_coe, others]
  exact (List.perm_cons_erase inside).symm

theorem perm_movedAll (distinct : entries.Nodup) (inside : ∀ entry ∈ moving, entry ∈ entries) :
    (movedAll order moving entries).Perm entries := by
  induction moving generalizing entries with
  | nil => rfl
  | cons first rest ih =>
    have moved : (Register.insert order first entries).Perm entries :=
      perm_insert distinct (inside first List.mem_cons_self)
    refine (ih (moved.nodup_iff.mpr distinct) fun entry later => ?_).trans moved
    exact moved.mem_iff.mpr (inside entry (List.mem_cons_of_mem first later))

variable [TransCmp order]

theorem InOrder.movedAll (sorted : InOrder order entries) :
    InOrder order (Register.movedAll order moving entries) := by
  induction moving generalizing entries with
  | nil => exact sorted
  | cons first rest ih => exact ih (InOrder.insert (List.Pairwise.filter _ sorted))

/-! ## Entries that have still to move -/

/-- Where entries move to. -/
inductive Course where
  | later
  | earlier

/-- An entry that has still to move may come before one that it belongs behind, if it is to move to a later
place, or after one that it belongs in front of. -/
def Course.Excuses (course : Course) (moving : List κ) (a b : κ) : Prop :=
  match course with
  | .later => a ∈ moving
  | .earlier => b ∈ moving

/-- Whether the search for the place of an entry is not led astray by another that has still to move. -/
def Course.Clears (course : Course) (order : κ → κ → Ordering) (entry other : κ) : Prop :=
  match course with
  | .later => order other entry ≠ .gt
  | .earlier => order other entry = .gt

/-- A register in order but for entries that have still to move. -/
def Settles (course : Course) (order : κ → κ → Ordering) (moving entries : List κ) : Prop :=
  entries.Pairwise fun a b => order a b ≠ .gt ∨ course.Excuses moving a b

variable {course : Course}

omit [DecidableEq κ] in
theorem Settles.falls (settles : Settles course order moving entries)
    (clears : ∀ other ∈ moving, course.Clears order entry other) :
    Falls (fun other => order other entry != .gt) entries := by
  refine settles.imp fun {a b} placed stays => ?_
  rw [bne_iff_ne] at stays ⊢
  rcases placed with before | excused
  · exact TransCmp.le_trans before stays
  · cases course with
    | later => exact clears a excused
    | earlier => exact absurd (clears b excused) stays

theorem Settles.insert (settles : Settles course order (entry :: rest) entries)
    (clears : ∀ other ∈ rest, course.Clears order entry other) :
    Settles course order rest (Register.insert order entry entries) := by
  have others : Settles course order rest (entries.filter (· ≠ entry)) := by
    refine (List.Pairwise.filter _ settles).imp_of_mem fun {a b} first second placed => ?_
    refine placed.imp_right fun excused => ?_
    have other {c : κ} (inside : c ∈ entries.filter (· ≠ entry)) (moves : c ∈ entry :: rest) : c ∈ rest :=
      (List.mem_cons.mp moves).resolve_left (by simpa using (List.mem_filter.mp inside).2)
    cases course with
    | later => exact other first excused
    | earlier => exact other second excused
  exact pairwise_insert .inl others (others.falls clears)

/-- Entries that go one after another, none of them astray, put a register in order. -/
theorem Settles.movedAll (settles : Settles course order moving entries)
    (clears : moving.Pairwise (course.Clears order)) :
    InOrder order (Register.movedAll order moving entries) := by
  induction moving generalizing entries with
  | nil =>
    refine settles.imp fun placed => placed.resolve_right fun excused => ?_
    cases course <;> cases excused
  | cons first rest ih =>
    obtain ⟨here, later⟩ := List.pairwise_cons.mp clears
    exact ih (settles.insert here) later

omit [TransCmp order] in
/-- An entry that is put in its place leaves the one that it has by itself. -/
theorem insert_filter : Register.insert order entry (entries.filter (· ≠ entry)) =
    Register.insert order entry entries := by
  simp only [Register.insert, List.filter_filter, Bool.and_self]

end Register

/-! ## Dates of transactions -/

/-- At another date, a split is placed as the dates are. -/
theorem splitOrder_redated {former dated : Transaction} {memo action : String}
    (same : (dated.num, dated.description) = (former.num, former.description)) :
    splitOrder (some ⟨some former, memo, action⟩) (some ⟨some dated, memo, action⟩) =
      former.posted.order dated.posted := by
  have level (text : String) : textOrder (some text) (some text) = .eq := ReflOrd.compare_self
  rw [Prod.mk.injEq] at same
  change (((former.order dated).then _).then _) = _
  simp only [Transaction.order, same, level, Ordering.then_eq]

/-- Splits of one transaction are placed by their texts, whatever its date is. -/
theorem splitOrder_level {former dated : Transaction} {memo action memo' action' : String} :
    splitOrder (some ⟨some dated, memo, action⟩) (some ⟨some dated, memo', action'⟩) =
      splitOrder (some ⟨some former, memo, action⟩) (some ⟨some former, memo', action'⟩) := by
  have isOrder := transCmp_transaction
  have level (transaction : Transaction) : transactionOrder (some transaction) (some transaction) = .eq :=
    ReflCmp.compare_self
  simp only [splitOrder, presentFirst, Position.order, level]

/-- Whether a date is on the way from another one. -/
def Register.Course.Reaches (course : Register.Course) (former date : Instant) : Prop :=
  match course with
  | .later => former.order date ≠ .gt
  | .earlier => date.order former ≠ .gt

namespace Ledger

variable {α J : Type} {ledger before after : Ledger α J} {owner : TransactionId} {date : Instant}
  {account : AccountId}

/-- The splits of a transaction in one account, in the order of the transaction. -/
def movers (ledger : Ledger α J) (owner : TransactionId) (account : AccountId) : List SplitId :=
  (ledger.splitsOf owner).filter (ledger.accountOf? · = some account)

/-- Only the date of a transaction is another one, and its splits went to their new places one after
another. -/
structure Redates (before after : Ledger α J) (owner : TransactionId) (date : Instant) : Prop where
  splits : after.splits = before.splits
  others : ∀ id, id ≠ owner → after.transaction? id = before.transaction? id
  dated : ∃ former dated, before.transaction? owner = some former ∧
    after.transaction? owner = some dated ∧ dated.heading = (date, former.num, former.description)
  registers : ∀ account, (after.account? account).map (·.register) =
    (before.account? account).map fun holder =>
      Register.movedAll after.postings.compare (before.movers owner account) holder.register

theorem postings_markTransaction : (ledger.markTransaction owner).postings = ledger.postings := by
  rw [markTransaction]
  induction ledger.splitsOf owner generalizing ledger with
  | nil => rfl
  | cons first rest ih =>
    refine ih.trans ?_
    change (ledger.mark first).postings = ledger.postings
    unfold mark
    split <;> rfl

/-- The splits of a transaction in an account can go to their places at another date one after another:
there is at most one; or the date is no earlier, and none of them belongs behind one that goes before it; or
the date is no later, and each of them belongs behind those that go before it. -/
inductive MovesClear (ledger : Ledger α J) (owner : TransactionId) (account : AccountId) (date : Instant) :
    Prop
  | alone (few : (ledger.movers owner account).length ≤ 1)
  | oneWay {transaction : Transaction} (course : Register.Course)
    (found : ledger.transaction? owner = some transaction) (reaches : course.Reaches transaction.posted date)
    (clears : (ledger.movers owner account).Pairwise (course.Clears ledger.postings.compare))

theorem parentOf?_of_mem_movers (owned : ledger.Owned) {id : SplitId}
    (inside : id ∈ ledger.movers owner account) : ledger.parentOf? id = some owner := by
  obtain ⟨listed, -⟩ := List.mem_filter.mp inside
  obtain ⟨transaction, found, listed⟩ : ∃ transaction, ledger.transaction? owner = some transaction ∧
      id ∈ transaction.splits := by
    cases found : ledger.transaction? owner with
    | none => simp [splitsOf, found] at listed
    | some transaction => exact ⟨transaction, rfl, splitsOf_eq found ▸ listed⟩
  exact parentOf?_eq_some_iff.mpr ((owned.mem_iff found).mp listed)

theorem mem_movers (owned : ledger.Owned) {id : SplitId} (parent : ledger.parentOf? id = some owner)
    (within : ledger.accountOf? id = some account) : id ∈ ledger.movers owner account := by
  have named := parentOf?_eq_some_iff.mp parent
  obtain ⟨transaction, found⟩ := owned.known named
  refine List.mem_filter.mpr ⟨?_, by simpa using within⟩
  rw [splitsOf_eq found]
  exact (owned.mem_iff found).mpr named

/-- A date is later or not, and one split waits for no other. -/
theorem MovesClear.course (clear : before.MovesClear owner account date)
    (redates : before.Redates after owner date) : ∃ former course,
      before.transaction? owner = some former ∧ Register.Course.Reaches course former.posted date ∧
      (before.movers owner account).Pairwise (course.Clears before.postings.compare) := by
  cases clear with
  | @oneWay former course found reaches clears => exact ⟨former, course, found, reaches, clears⟩
  | alone few =>
    obtain ⟨former, _, found, -⟩ := redates.dated
    have trivial (relation : SplitId → SplitId → Prop) :
        (before.movers owner account).Pairwise relation := by
      rcases shape : before.movers owner account with _ | ⟨only, _ | ⟨second, rest⟩⟩
      · exact .nil
      · exact List.pairwise_singleton ..
      · simp [shape] at few
    by_cases late : former.posted.order date = .gt
    · have isOrder := transCmp_instant
      have early : date.order former.posted = .lt := OrientedCmp.lt_of_gt late
      exact ⟨former, .earlier, found, by simp [Register.Course.Reaches, early], trivial _⟩
    · exact ⟨former, .later, found, late, trivial _⟩

namespace Redates

variable (redates : before.Redates after owner date) {a b id : SplitId} {former : Transaction}

include redates

theorem position?_of_ne (elsewhere : before.parentOf? id ≠ some owner) :
    after.postings.position? id = before.postings.position? id := by
  change (after.split? id).map _ = (before.split? id).map _
  rw [split?, redates.splits, ← split?]
  cases isSplit : before.split? id with
  | none => rfl
  | some split =>
    have parent : split.parent.bind after.transaction? = split.parent.bind before.transaction? := by
      cases isParent : split.parent with
      | none => rfl
      | some other =>
        refine redates.others other fun same => elsewhere ?_
        rw [parentOf?, isSplit, Option.bind_some, isParent, same]
    exact congrArg (fun parent => some (⟨parent, split.memo, split.action⟩ : Position)) parent

/-- What is placed by the old date and by the new one. -/
theorem position?_of_eq (inside : before.parentOf? id = some owner)
    (found : before.transaction? owner = some former) : ∃ dated memo action,
      dated.heading = (date, former.num, former.description) ∧
      after.transaction? owner = some dated ∧
      before.postings.position? id = some ⟨some former, memo, action⟩ ∧
      after.postings.position? id = some ⟨some dated, memo, action⟩ := by
  obtain ⟨again, dated, isFormer, isDated, heading⟩ := redates.dated
  obtain rfl := Option.some.inj (found.symm.trans isFormer)
  obtain ⟨split, isSplit, parent⟩ := Option.bind_eq_some_iff.mp inside
  refine ⟨dated, split.memo, split.action, heading, isDated, ?_, ?_⟩
  · change (before.split? id).map _ = _
    rw [isSplit, Option.map_some, parent]
    exact congrArg (fun parent => some (⟨parent, split.memo, split.action⟩ : Position)) found
  · change (after.split? id).map _ = _
    rw [split?, redates.splits, ← split?, isSplit, Option.map_some, parent]
    exact congrArg (fun parent => some (⟨parent, split.memo, split.action⟩ : Position)) isDated

/-- Two splits of the transaction, or two others, stand to each other as before. -/
theorem compare_eq (same : before.parentOf? a = some owner ↔ before.parentOf? b = some owner) :
    after.postings.compare a b = before.postings.compare a b := by
  by_cases inside : before.parentOf? a = some owner
  · obtain ⟨former, _, found, -⟩ := redates.dated
    obtain ⟨dated, memo, action, -, isDated, was, is⟩ := redates.position?_of_eq inside found
    obtain ⟨again, memo', action', -, isAgain, was', is'⟩ := redates.position?_of_eq (same.mp inside) found
    obtain rfl := Option.some.inj (isDated.symm.trans isAgain)
    rw [Postings.compare, Postings.compare, was, was', is, is']
    exact splitOrder_level
  · rw [Postings.compare, Postings.compare, redates.position?_of_ne inside,
      redates.position?_of_ne (mt same.mpr inside)]

/-- The transaction is on its way, and so are its splits. -/
theorem reaches {course : Register.Course} (found : before.transaction? owner = some former)
    (reaches : course.Reaches former.posted date) (inside : before.parentOf? id = some owner) :
    match course with
    | .later => splitOrder (before.postings.position? id) (after.postings.position? id) ≠ .gt
    | .earlier => splitOrder (after.postings.position? id) (before.postings.position? id) ≠ .gt := by
  obtain ⟨dated, memo, action, heading, -, was, is⟩ := redates.position?_of_eq inside found
  have posted : dated.posted = date := congrArg (·.1) heading
  have texts : (dated.num, dated.description) = (former.num, former.description) := congrArg (·.2) heading
  rw [was, is]
  cases course with
  | later => exact (splitOrder_redated texts).trans_ne (posted ▸ reaches)
  | earlier => exact (splitOrder_redated texts.symm).trans_ne (posted ▸ reaches)

/-- A register in order is in order at the other date but for splits that have still to move. -/
theorem settles (owned : before.Owned) {course : Register.Course} {register : List SplitId}
    (found : before.transaction? owner = some former) (reaches : course.Reaches former.posted date)
    (sorted : Register.InOrder before.postings.compare register)
    (held : ∀ id ∈ register, before.accountOf? id = some account) :
    Register.Settles course after.postings.compare (before.movers owner account) register := by
  have isOrder := transCmp_split
  have moves {id : SplitId} (inside : id ∈ register) (parent : before.parentOf? id = some owner) :
      id ∈ before.movers owner account := mem_movers owned parent (held id inside)
  refine sorted.imp_of_mem fun {a b} first second placed => ?_
  by_cases same : before.parentOf? a = some owner ↔ before.parentOf? b = some owner
  · exact .inl (redates.compare_eq same ▸ placed)
  -- One of the two moves, and stands on the wrong side only if it comes from there.
  by_cases moving : before.parentOf? a = some owner
  · have stays : before.parentOf? b ≠ some owner := fun also => same ⟨fun _ => also, fun _ => moving⟩
    cases course with
    | later => exact .inr (moves first moving)
    | earlier =>
      left
      rw [Postings.compare, redates.position?_of_ne stays]
      exact TransCmp.le_trans (redates.reaches found reaches moving) placed
  · have goes : before.parentOf? b = some owner := by
      by_contra stays
      exact same ⟨fun also => absurd also moving, fun also => absurd also stays⟩
    cases course with
    | later =>
      left
      rw [Postings.compare, redates.position?_of_ne moving]
      exact TransCmp.le_trans placed (redates.reaches found reaches goes)
    | earlier => exact .inr (moves second goes)

/-- Splits that can go one after another leave their register in order. -/
theorem inOrder (owned : before.Owned) (clear : before.MovesClear owner account date) {register : List SplitId}
    (sorted : Register.InOrder before.postings.compare register)
    (held : ∀ id ∈ register, before.accountOf? id = some account) :
    Register.InOrder after.postings.compare
      (Register.movedAll after.postings.compare (before.movers owner account) register) := by
  obtain ⟨former, course, found, reaches, clears⟩ := clear.course redates
  refine (redates.settles owned found reaches sorted held).movedAll ?_
  refine clears.imp_of_mem fun {a b} first second clears => ?_
  have same := redates.compare_eq (iff_of_true (parentOf?_of_mem_movers owned second)
    (parentOf?_of_mem_movers owned first))
  cases course with
  | later => exact same.trans_ne clears
  | earlier => exact same.trans clears

end Redates

end Ledger

namespace Action

open Ledger

variable {α J : Type} {ledger : Ledger α J} {owner : TransactionId} {date : Instant}

/-- Splits are taken out of their registers and put in again, one after another. -/
theorem ends_repositions_registers (ledger : Ledger α J) (splits : List SplitId) :
    (splits.forM reposition).Ends ledger fun result after => result = .ok () ∧
      after.postings = ledger.postings ∧ ∀ account, (after.account? account).map (·.register) =
        (ledger.account? account).map fun holder => Register.movedAll ledger.postings.compare
          (splits.filter (ledger.accountOf? · = some account)) holder.register := by
  induction splits generalizing ledger with
  | nil => exact ⟨rfl, rfl, fun account => rfl⟩
  | cons first rest ih =>
    change (reposition first >>= fun _ => rest.forM reposition).Ends ledger _
    simp only [reposition, ends_bind, ends_read]
    cases within : ledger.accountOf? first with
    | none =>
      dsimp only
      rw [ends_pure]
      refine (ih _).imp fun result after ends => ?_
      obtain ⟨succeeds, same, registers⟩ := ends
      refine ⟨succeeds, same, fun account => ?_⟩
      rw [registers, List.filter_cons_of_neg (by simp [within])]
    | some home =>
      dsimp only
      rw [ends_bind, ends_update, ends_enterRegister]
      refine (ih _).imp fun result after ends => ?_
      obtain ⟨succeeds, same, registers⟩ := ends
      refine ⟨succeeds, same, fun account => ?_⟩
      refine (registers account).trans ?_
      change ((((ledger.leaveRegister home first).registered home first).account? account).map fun holder =>
        Register.movedAll ledger.postings.compare
          (rest.filter (ledger.accountOf? · = some account)) holder.register) = _
      rw [account?_registered]
      by_cases here : account = home
      · subst here
        rw [if_pos rfl, account?_leaveRegister, if_pos rfl, Option.map_map, Option.map_map,
          List.filter_cons_of_pos (by simpa using within)]
        refine congrArg (Option.map · (ledger.account? account)) (funext fun holder => ?_)
        exact congrArg (Register.movedAll _ _) Register.insert_filter
      · rw [if_neg here, account?_leaveRegister, if_neg here, List.filter_cons_of_neg]
        simpa [within] using Ne.symm here

theorem ends_setPosted_redates [Scalar α] (ledger : Ledger α J) (owner : TransactionId) (date : Instant) :
    (setPosted owner date).Ends ledger fun result after =>
      result = .ok () → ledger.Redates after owner date := by
  simp only [setPosted, ensureOpen_eq, ends_bind, ends_ask, ends_update, ends_read]
  cases isOpen : ledger.checkOpen owner with
  | error _ => rintro ⟨⟩
  | ok _ =>
    obtain ⟨transaction, found, -⟩ := checkOpen_eq_ok_iff.mp isOpen
    let dated := ledger.modifyTransaction owner fun t => { t with posted := date }
    have now : dated.transaction? owner = some { transaction with posted := date } := by
      rw [transaction?_modifyTransaction, if_pos rfl, found]
      rfl
    have lists : dated.splitsOf owner = ledger.splitsOf owner := by
      rw [splitsOf_eq now, splitsOf_eq found]
    refine (ends_repositions_registers dated (dated.splitsOf owner)).imp fun result moved ends => ?_
    obtain ⟨rfl, postings, registers⟩ := ends
    intro _
    have alike := moved.markTransaction_alike owner
    have same : (moved.markTransaction owner).postings = dated.postings :=
      postings_markTransaction.trans postings
    have after (id) : (moved.markTransaction owner).transaction? id = dated.transaction? id :=
      congrArg (·.transactions.get? id) same
    refine ⟨congrArg (·.splits) same, fun id other => ?_, ⟨transaction, { transaction with posted := date },
      found, (after owner).trans now, rfl⟩, fun account => ?_⟩
    · rw [after, transaction?_modifyTransaction, if_neg other]
    · rw [alike.map_account? (·.register) (fun _ => rfl), registers, same, movers, ← lists]
      rfl

theorem ends_setDates_redates [Scalar α] (owner : TransactionId) (date : Instant) :
    (setDates owner date).Ends ledger fun result after =>
      result = .ok () → ledger.Redates after owner date := by
  simp only [setDates, ensureOpen_eq, ends_bind, ends_ask, ends_update]
  cases isOpen : ledger.checkOpen owner with
  | error _ => rintro ⟨⟩
  | ok _ =>
    obtain ⟨transaction, found, -⟩ := checkOpen_eq_ok_iff.mp isOpen
    let entered := ledger.modifyTransaction owner fun t => { t with entered := date }
    have now : entered.transaction? owner = some { transaction with entered := date } := by
      rw [transaction?_modifyTransaction, if_pos rfl, found]
      rfl
    have lists : entered.splitsOf owner = ledger.splitsOf owner := by
      rw [splitsOf_eq now, splitsOf_eq found]
    refine (ends_setPosted_redates entered owner date).imp fun result after redates succeeds => ?_
    obtain ⟨splits, others, ⟨former, dated, isFormer, isDated, heading⟩, registers⟩ := redates succeeds
    obtain rfl := Option.some.inj (now.symm.trans isFormer)
    refine ⟨splits, fun id other => ?_, ⟨transaction, dated, found, isDated, heading⟩, fun account => ?_⟩
    · rw [others id other, transaction?_modifyTransaction, if_neg other]
    · rw [registers, movers, lists]
      rfl

end Action

/-! ## Commands -/

section Redating

open Ledger

variable {α J : Type} {ledger : Ledger α J} {owner : TransactionId} {date : Instant}

/-- The transaction that a command posts at another date, and the date. -/
def Command.redates? (ledger : Ledger α J) : Command α → Option (TransactionId × Instant)
  | .setPosted transaction date => some (transaction, date)
  | .setDay transaction day month year =>
    (Instant.onDay? ⟨year, month, day⟩ postingHour).map fun date => (transaction, date)
  | .setToday transaction => some (transaction, ledger.now)
  | _ => none

variable [Scalar α] [Journal J α]

theorem Command.ends_redates {command : Command α} (redates : command.redates? ledger = some (owner, date)) :
    (command.act (J := J)).Ends ledger fun result after =>
      result = .ok .done → ledger.Redates after owner date := by
  cases command with
  | setPosted transaction posted =>
    obtain ⟨rfl, rfl⟩ := Prod.mk.inj (Option.some.inj redates)
    exact Command.ends_done_of_ok (ends_setPosted_redates ledger transaction posted)
  | setDay transaction day month year =>
    obtain ⟨posted, isDay, same⟩ := Option.map_eq_some_iff.mp redates
    obtain ⟨rfl, rfl⟩ := Prod.mk.inj same
    refine Command.ends_done_of_ok ?_
    rw [Action.setDay, isDay]
    exact ends_setDates_redates transaction posted
  | setToday transaction =>
    obtain ⟨rfl, rfl⟩ := Prod.mk.inj (Option.some.inj redates)
    refine Command.ends_done_of_ok ?_
    rw [Action.setToday, ends_bind, ends_read]
    exact ends_setDates_redates transaction ledger.now
  | _ => cases redates

/-- Posting a transaction at another date, in any ledger that can be reached while its registers are left to
it, and with success. The transaction has the date, and every register is what becomes of it when the splits
of the transaction that are in it go, one after another and in the order of the transaction, to their places
at the new date: it lists the same splits. It is in order at the new date if it was in that order before, so
that no split had to move; or if it was in order at the former date and the splits can go one after another,
as they can if there is one of them, if they go to a later date and none belongs behind one that goes before
it, or if they go to an earlier date and each belongs behind those that go before it. -/
theorem Reachable.redated_registers [ZeroPriced α] (reached : Reachable Deed.LeavesRegisters ledger)
    (request : Command α) (redates : request.redates? ledger = some (owner, date))
    (succeeds : (request.run ledger).result = .ok .done) (account : AccountId) :
    let after := (request.run ledger).ledger
    (after.transaction? owner).map (·.posted) = some date ∧
    (after.account? account).map (·.register) = (ledger.account? account).map (fun holder =>
      Register.movedAll after.postings.compare (ledger.movers owner account) holder.register) ∧
    ∀ holder, ledger.account? account = some holder → ∃ register,
      (after.account? account).map (·.register) = some register ∧ register.Perm holder.register ∧
      (Register.InOrder after.postings.compare holder.register →
        Register.InOrder after.postings.compare register) ∧
      (Register.InOrder ledger.postings.compare holder.register →
        ledger.MovesClear owner account date → Register.InOrder after.postings.compare register) := by
  have owned := reached.owned
  have booked := reached.booked
  intro after
  have redates : ledger.Redates after owner date := Command.ends_redates redates succeeds
  obtain ⟨former, dated, -, isDated, heading⟩ := redates.dated
  refine ⟨?_, redates.registers account, fun holder held => ?_⟩
  · rw [isDated]
    exact congrArg (fun heading => some heading.1) heading
  · have register := redates.registers account
    rw [held, Option.map_some] at register
    have listed {id} (inside : id ∈ holder.register) : ledger.accountOf? id = some account :=
      booked.shelved.named held inside
    refine ⟨_, register, Register.perm_movedAll (booked.shelved.nodup held) fun id moves => ?_,
      fun sorted => sorted.movedAll, fun sorted clear => redates.inOrder owned clear sorted fun _ => listed⟩
    have within : ledger.accountOf? id = some account := by simpa using (List.mem_filter.mp moves).2
    exact (booked.mem_iff held).mpr (account_eq_iff.mpr within)

/-- Transaction 2 has split 1 in the account, on the second of a month. Transaction 6, which is open, has the
splits 5 and 8 there, on the third. -/
def Ledger.crossing : Ledger Rat (MemoryLog Rat) :=
  let cash : AccountId := ⟨.ofNat 0⟩
  run <| .command .createTransaction ::
    Deed.session ⟨.ofNat 2⟩ [.enterAccount cash ⟨.ofNat 1⟩, .setDay ⟨.ofNat 2⟩ 2 1 2024] ++
    ([.createTransaction, .beginEdit ⟨.ofNat 6⟩ false, .createSplit, .appendSplit ⟨.ofNat 6⟩ ⟨.ofNat 8⟩,
      .enterAccount cash ⟨.ofNat 5⟩, .enterAccount cash ⟨.ofNat 8⟩,
      .setDay ⟨.ofNat 6⟩ 3 1 2024] : List (Command Rat)).map Deed.command

theorem Ledger.reachable_crossing : Reachable Deed.LeavesRegisters crossing :=
  (Reachable.start _ _).after _ (by decide +kernel) (by decide +kernel)

omit [Scalar α] [Journal J α] in
/-- The splits 5 and 8 go to the fourth, where they are level. -/
theorem Reachable.redated_registers_crossing :
    let request : Command Rat := .setDay ⟨.ofNat 6⟩ 4 1 2024
    ∃ register, ((request.run crossing).ledger.account? ⟨.ofNat 0⟩).map (·.register) = some register ∧
      Register.InOrder (request.run crossing).ledger.postings.compare register := by
  intro request
  let fourth : Instant := ⟨1704366000, 0, by decide, by decide, by decide⟩
  have redates : request.redates? crossing = some (⟨.ofNat 6⟩, fourth) := by decide +kernel
  have lists : (crossing.account? ⟨.ofNat 0⟩).map (·.register) =
      some [⟨.ofNat 1⟩, ⟨.ofNat 5⟩, ⟨.ofNat 8⟩] := by decide +kernel
  have sorted : List.Pairwise (fun a b => crossing.postings.compare a b ≠ .gt)
      [⟨.ofNat 1⟩, ⟨.ofNat 5⟩, ⟨.ofNat 8⟩] := by decide +kernel
  have dates : (crossing.transaction? ⟨.ofNat 6⟩).map (·.posted.order fourth) = some .lt := by decide +kernel
  have level : (crossing.movers ⟨.ofNat 6⟩ ⟨.ofNat 0⟩).Pairwise
      fun a b => crossing.postings.compare b a ≠ .gt := by decide +kernel
  obtain ⟨holder, held, register⟩ := Option.map_eq_some_iff.mp lists
  obtain ⟨transaction, found, late⟩ := Option.map_eq_some_iff.mp dates
  have clear : crossing.MovesClear ⟨.ofNat 6⟩ ⟨.ofNat 0⟩ fourth :=
    .oneWay .later found (late.trans_ne nofun) level
  obtain ⟨-, -, registers⟩ := Reachable.redated_registers reachable_crossing request redates
    (by decide +kernel) ⟨.ofNat 0⟩
  obtain ⟨after, listed, -, -, inOrder⟩ := registers holder held
  exact ⟨after, listed, inOrder (register ▸ sorted) clear⟩

omit [Scalar α] [Journal J α] in
/-- The only register is in order, and both splits of transaction 6 go to the first. Split 5 is put behind
split 8, which is still where it was, and split 8 behind split 5 then. -/
theorem Reachable.register_crossed :
    let request : Command Rat := .setDay ⟨.ofNat 6⟩ 1 1 2024
    let listed : List SplitId := [⟨.ofNat 1⟩, ⟨.ofNat 5⟩, ⟨.ofNat 8⟩]
    Reachable Deed.LeavesRegisters crossing ∧ crossing.accounts.entries.map (·.2.register) = [listed] ∧
      listed.Pairwise (fun a b => crossing.postings.compare a b ≠ .gt) ∧
      (request.run crossing).result = .ok .done ∧
      (request.run crossing).ledger.accounts.entries.map (·.2.register) = [listed] ∧
      (request.run crossing).ledger.postings.compare ⟨.ofNat 1⟩ ⟨.ofNat 5⟩ = .gt := by
  refine ⟨reachable_crossing, ?_, ?_, ?_, ?_, ?_⟩ <;> decide +kernel

end Redating

end DoubleEntry
