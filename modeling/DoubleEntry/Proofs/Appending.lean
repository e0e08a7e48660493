import DoubleEntry.Proofs.Atomicity
import DoubleEntry.Proofs.Synthesis

/-! # Splits that are appended are not lost

Appending has two halves. A split first withdraws from the transaction that it is in; if that is refused,
or if what is left there cannot be settled, the ledger is exactly as it was. Only then does it join the
other transaction, at the end; if that one cannot be settled, the split stays there. Lists are never put
in another order: rebalancing only adds to their ends.
-/

namespace DoubleEntry

open DoubleEntry.Action

/-- A split that is put back at the place that it had. -/
theorem Transaction.insertAt_drop {transaction : Transaction} {split : SplitId} {index : Nat}
    (distinct : transaction.splits.Nodup) (place : transaction.splits.idxOf? split = some index) :
    (transaction.drop split).insertAt index split = transaction := by
  obtain ⟨short, here, -⟩ := List.idxOf?_eq_some_iff.mp place
  have shape : transaction.splits =
      transaction.splits.take index ++ split :: transaction.splits.drop (index + 1) := by
    rw [← here, List.getElem_cons_drop, List.take_append_drop]
  have length : (transaction.splits.take index).length = index := by
    rw [List.length_take]
    omega
  generalize transaction.splits.take index = front at shape length
  generalize transaction.splits.drop (index + 1) = back at shape
  rw [shape] at distinct
  have outside : split ∉ front ++ back := by
    have middle := List.nodup_middle.mp distinct
    exact (List.nodup_cons.mp middle).1
  have rest : (front ++ split :: back).filter (· ≠ split) = front ++ back := by
    rw [List.filter_append, List.filter_cons_of_neg (by simp), ← List.filter_append]
    apply List.filter_eq_self.mpr
    intro other inside
    have different : other ≠ split := fun same => outside (same ▸ inside)
    simpa using different
  unfold insertAt drop
  dsimp only
  rw [shape, rest, List.take_left' length, List.drop_left' length, ← shape]

namespace Ledger

variable {α J : Type} {ledger after : Ledger α J} {owner : TransactionId} {split : SplitId}
  {transaction : Transaction}

/-- A split that was taken out of a transaction and put back. -/
theorem rejoined_parted (isOwner : ledger.transaction? owner = some transaction)
    (parent : ledger.parentOf? split = some owner) (distinct : transaction.splits.Nodup)
    (inside : split ∈ transaction.splits) : (ledger.parted owner split).rejoined owner split
      (transaction.splits.idxOf? split) = ledger := by
  obtain ⟨index, place⟩ : ∃ index, transaction.splits.idxOf? split = some index := by
    cases place : transaction.splits.idxOf? split with
    | none => exact absurd inside (List.idxOf?_eq_none_iff.mp place)
    | some index => exact ⟨index, rfl⟩
  have transactions : (ledger.transactions.modify owner (·.drop split)).modify owner
      (·.insertAt index split) = ledger.transactions := by
    rw [Table.modify_modify]
    apply Table.modify_of_fixed
    intro found isFound
    obtain rfl : found = transaction := Option.some.inj (isFound.symm.trans isOwner)
    exact Transaction.insertAt_drop distinct place
  have splits : (ledger.splits.modify split fun s => { s with parent := none }).modify split
      (fun s => { s with parent := some owner }) = ledger.splits := by
    rw [Table.modify_modify]
    apply Table.modify_of_fixed
    intro entry isEntry
    have named : entry.parent = some owner := by
      obtain ⟨found, isFound, named⟩ := Option.bind_eq_some_iff.mp parent
      obtain rfl : entry = found := Option.some.inj (isEntry.symm.trans isFound)
      exact named
    exact congrArg (fun parent => { entry with parent }) named.symm
  rw [place]
  change { ledger with
    transactions := (ledger.transactions.modify owner (·.drop split)).modify owner
      (·.insertAt index split)
    splits := (ledger.splits.modify split fun s => { s with parent := none }).modify split
      fun s => { s with parent := some owner } } = ledger
  rw [transactions, splits]

/-- Every list of splits goes on as it was. -/
def Lengthens (ledger after : Ledger α J) : Prop :=
  ∀ owner, ledger.splitsOf owner <+: after.splitsOf owner

theorem Lengthens.refl (ledger : Ledger α J) : ledger.Lengthens ledger :=
  fun _ => List.prefix_rfl

theorem SameHoldings.lengthens (same : ledger.SameHoldings after) : ledger.Lengthens after :=
  fun _ => same.splitsOf ▸ List.prefix_rfl

variable [Scalar α]

/-- A counterpart goes to the end of its transaction. -/
theorem lengthens_withCounterpart (owner : TransactionId) (entry : Split α) :
    ledger.Lengthens (ledger.withCounterpart owner entry) := by
  intro other
  unfold splitsOf
  rw [transaction?_withCounterpart]
  cases ledger.transaction? other with
  | none => exact List.nil_prefix
  | some found =>
    by_cases same : other = owner
    · rw [if_pos same]
      exact List.prefix_append _ _
    · rw [if_neg same]

end Ledger

namespace Action

open Ledger

variable {α J : Type} [Scalar α] [ZeroPriced α] {ledger : Ledger α J} {owner : TransactionId}
  {split edited : SplitId}

theorem ends_rebalanceSplit_lengthens (owned : ledger.Owned) (edited : SplitId) :
    (rebalanceSplit edited).Ends ledger fun _ after =>
      after.minted ≤ 2 ^ 128 → ledger.Lengthens after := by
  rcases decided : ledger.settlement edited with _ | _ | ⟨parent, target, base⟩ | ⟨parent, source⟩
  · rw [rebalanceSplit, ends_settle, decided]
    exact fun _ => .refl ledger
  · rw [rebalanceSplit, ends_settle, decided]
    exact fun _ => .refl ledger
  · rw [rebalanceSplit, ends_settle, decided]
    dsimp only
    cases ledger.absorption parent target base with
    | error _ => exact fun _ => .refl ledger
    | ok _ => exact fun _ => absorbed_sameHoldings.lengthens
  · intro fresh
    have new := owned.new (small_of_pair decided fresh)
    obtain ⟨rfl, entry, transaction, account, holder, lone⟩ := lone_of_settlement new decided
    obtain ⟨-, amount?, after⟩ := ends_rebalanceSplit_paired lone decided
    rw [after]
    exact fun other => (lengthens_withCounterpart parent entry other).trans
      (paired_sameHoldings.lengthens other)

/-- A split that is not released is where it was, and so is all else. -/
theorem ends_release_refused (owned : ledger.Owned)
    (named : ledger.ownership.named split = some (some owner)) :
    (release owner split).Ends ledger fun result after =>
      after.minted ≤ 2 ^ 128 → ∀ fault, result = .error fault → after = ledger := by
  refine ends_release_of (fun _ _ _ _ => rfl) (fun _ _ _ _ _ => nofun)
    fun transaction source releases _ => ?_
  have sound := Ownership.owned_parted owned named releases.isOwner releases.several
  refine (ends_rebalanceSplit_refused sound.new source).imp fun result after refused => ?_
  cases result with
  | ok _ => exact fun _ _ => nofun
  | error fault =>
    intro fresh _ _
    rw [minted_rejoined] at fresh
    rw [refused fresh fault rfl]
    exact rejoined_parted releases.isOwner (parentOf?_eq_some_iff.mpr named)
      (owned.nodup releases.isOwner) ((owned.mem_iff releases.isOwner).mpr named)

/-- What the transaction of a released split keeps, it keeps in order, and something it keeps. -/
theorem ends_release_keeps (owned : ledger.Owned)
    (named : ledger.ownership.named split = some (some owner)) :
    (release owner split).Ends ledger fun result after => after.minted ≤ 2 ^ 128 → result = .ok () →
      (ledger.splitsOf owner).filter (· ≠ split) <+: after.splitsOf owner ∧
        (ledger.splitsOf owner).filter (· ≠ split) ≠ [] := by
  have rest {transaction} (releases : ledger.Releases owner transaction) :
      (ledger.parted owner split).splitsOf owner = (ledger.splitsOf owner).filter (· ≠ split) ∧
        (ledger.splitsOf owner).filter (· ≠ split) ≠ [] := by
    rw [splitsOf_eq releases.isOwner, splitsOf_eq (transaction?_parted split releases.isOwner)]
    obtain ⟨other, inside, different⟩ : ∃ other ∈ (transaction.splits : Multiset SplitId), other ≠ split :=
      owned.company releases.isOwner releases.several (listed_eq releases.isOwner)
    exact ⟨rfl, List.ne_nil_of_mem (List.mem_filter.mpr ⟨inside, by simpa using different⟩)⟩
  refine ends_release_of (fun _ _ => nofun) (fun transaction releases _ _ _ => ?_)
    fun transaction source releases _ => ?_
  · obtain ⟨same, nonempty⟩ := rest releases
    exact ⟨same ▸ List.prefix_rfl, nonempty⟩
  · obtain ⟨same, nonempty⟩ := rest releases
    have sound := Ownership.owned_parted owned named releases.isOwner releases.several
    refine (ends_rebalanceSplit_lengthens sound source).imp fun result after lengthens => ?_
    cases result with
    | error _ => exact fun _ => nofun
    | ok _ => exact fun fresh _ => ⟨same ▸ lengthens fresh owner, nonempty⟩

/-! ## The two halves -/

omit [ZeroPriced α] in
/-- What comes first: both transactions have to be open, and the split withdraws from the one that it is
in. -/
def withdraw (owner : TransactionId) (split : SplitId) : Action α J Unit := do
  ensureOpen owner
  match (← ask (·.split split)).parent with
  | none => pure ()
  | some former =>
    if former = owner then update (·.modifyTransaction owner (·.drop split))
    else release former split

omit [ZeroPriced α] in
theorem appendSplit_eq (owner : TransactionId) (split : SplitId) :
    appendSplit (α := α) (J := J) owner split =
      withdraw owner split >>= fun _ => adopt rebalanceSplit owner split := by
  simp only [appendSplit, withdraw, bind_assoc]
  refine bind_congr fun _ => bind_congr fun entry => ?_
  cases entry.parent with
  | none => rfl
  | some former =>
    dsimp only
    split <;> rfl

section Halves

variable {fault : Fault}

omit [ZeroPriced α]

/-- A split that does not withdraw is not appended. -/
theorem appendSplit_of_refused (refused : (withdraw owner split ledger).result = .error fault) :
    (appendSplit owner split ledger).result = .error fault ∧
      (appendSplit owner split ledger).ledger = (withdraw owner split ledger).ledger := by
  suffices ends : (appendSplit owner split).Ends ledger fun result after => result = .error fault ∧
    after = (withdraw owner split ledger).ledger from ends
  rw [appendSplit_eq, ends_bind]
  unfold Ends
  rw [refused]
  exact ⟨rfl, rfl⟩

/-- A split that withdraws joins, and what follows is the rebalancing of the transaction that it joins. -/
theorem appendSplit_of_withdrawn (withdrawn : (withdraw owner split ledger).result = .ok ()) :
    (appendSplit owner split).Ends ledger fun result after =>
      let joined := ((withdraw owner split ledger).ledger.joined owner split).mark split
      result = (rebalanceSplit split joined).result ∧ after = (rebalanceSplit split joined).ledger := by
  have withdraws : (withdraw owner split).Ends ledger fun result after =>
    result = .ok () ∧ after = (withdraw owner split ledger).ledger := ⟨withdrawn, rfl⟩
  rw [appendSplit_eq, ends_bind]
  refine withdraws.imp fun result after ends => ?_
  obtain ⟨rfl, rfl⟩ := ends
  dsimp only
  rw [ends_adopt]
  exact ⟨rfl, rfl⟩

end Halves

end Action

namespace Ledger

variable {α J : Type}

/-- A ledger from which a split is about to join a transaction. Its links will be sound; the transaction
has its other splits in the order that they had; and so has the one that the split was in, if that is
another, and it has some left. -/
structure Withdrawn (ledger : Ledger α J) (owner : TransactionId) (split : SplitId)
    (after : Ledger α J) : Prop where
  sound : (after.joined owner split).Owned
  known : (after.transaction? owner).isSome = true
  lists : after.splitsOf owner = (ledger.splitsOf owner).filter (· ≠ split)
  former : ∀ former, ledger.parentOf? split = some former → former ≠ owner →
    (ledger.splitsOf former).filter (· ≠ split) <+: after.splitsOf former ∧
      (ledger.splitsOf former).filter (· ≠ split) ≠ []

section Withdrawing

variable {ledger : Ledger α J} {owner : TransactionId} {transaction : Transaction} {split : SplitId}
  (owned : ledger.Owned) (isOwner : ledger.transaction? owner = some transaction)

include owned isOwner

/-- A transaction does not list a split that names another one, or none. -/
theorem Owned.filter_splitsOf {name : Option TransactionId}
    (named : ledger.ownership.named split = some name) (away : name ≠ some owner) :
    (ledger.splitsOf owner).filter (· ≠ split) = ledger.splitsOf owner := by
  rw [splitsOf_eq isOwner]
  apply List.filter_eq_self.mpr
  intro other inside
  have different : other ≠ split := by
    rintro rfl
    exact away (Option.some.inj (named.symm.trans ((owned.mem_iff isOwner).mp inside)))
  simpa using different

theorem Owned.withdrawn_detached (named : ledger.ownership.named split = some none) :
    ledger.Withdrawn owner split ledger := by
  have listed : (ledger.ownership.listed owner).isSome := by simp [listed_eq isOwner]
  refine ⟨Ownership.owned_joined owned named listed, by simp [isOwner],
    (owned.filter_splitsOf isOwner named nofun).symm, ?_⟩
  intro former isFormer
  rw [parentOf?_eq_some_iff, named] at isFormer
  cases isFormer

theorem Owned.withdrawn_within (named : ledger.ownership.named split = some (some owner)) :
    ledger.Withdrawn owner split (ledger.modifyTransaction owner (·.drop split)) := by
  have dropped : (ledger.modifyTransaction owner (·.drop split)).transaction? owner =
      some (transaction.drop split) := by
    rw [transaction?_modifyTransaction, if_pos rfl, isOwner, Option.map_some]
  refine ⟨owned.linked (ownership_reattach owned.agree named) le_rfl, by simp [dropped], ?_, ?_⟩
  · rw [splitsOf_eq dropped, splitsOf_eq isOwner]
    rfl
  · intro other isOther different
    rw [parentOf?_eq_some_iff, named] at isOther
    exact absurd (Option.some.inj (Option.some.inj isOther)).symm different

/-- A split withdraws from another transaction, or stays where it was. -/
theorem Owned.ends_release_withdraws [Scalar α] [ZeroPriced α] {former : TransactionId}
    (named : ledger.ownership.named split = some (some former)) (different : former ≠ owner) :
    (release former split).Ends ledger fun result after => after.minted ≤ 2 ^ 128 →
      match result with
      | .ok _ => ledger.Withdrawn owner split after
      | .error _ => after = ledger := by
  have listed : (ledger.ownership.listed owner).isSome := by simp [listed_eq isOwner]
  have away : some former ≠ some owner := fun same => different (Option.some.inj same)
  have outside : split ∉ (Shelter.around owner transaction).splits := fun inside =>
    away (Option.some.inj (named.symm.trans ((owned.mem_iff isOwner).mp inside)))
  have stays := Shelter.ends_release_stays (fun _ => owned.spares isOwner) outside
    fun _ => different
  refine ((Ownership.ends_release (fun _ => owned) named).and ((ends_release_refused owned named).and
    ((ends_release_keeps owned named).and stays))).imp fun result after ends fresh => ?_
  obtain ⟨⟨sound, free⟩, refused, keeps, stays⟩ := ends
  cases result with
  | error fault => exact refused fresh fault rfl
  | ok _ =>
    obtain ⟨unheld, lists⟩ := free rfl fresh
    have isStill := ((stays fresh).transaction rfl).trans isOwner
    refine ⟨Ownership.owned_joined (sound fresh) unheld (lists owner listed), by simp [isStill], ?_, ?_⟩
    · rw [owned.filter_splitsOf isOwner named away, splitsOf_eq isStill, splitsOf_eq isOwner]
    · intro other isOther _
      rw [parentOf?_eq_some_iff, named] at isOther
      obtain rfl := Option.some.inj (Option.some.inj isOther)
      exact keeps fresh rfl

end Withdrawing

end Ledger

namespace Action

open Ledger

variable {α J : Type} [Scalar α] [ZeroPriced α] {ledger : Ledger α J}

/-- Nothing is changed by half a withdrawal. -/
theorem ends_withdraw (owned : ledger.Owned) (owner : TransactionId) (split : SplitId) :
    (withdraw owner split).Ends ledger fun result after => after.minted ≤ 2 ^ 128 →
      match result with
      | .ok _ => ledger.Withdrawn owner split after
      | .error _ => after = ledger := by
  rw [withdraw, ensureOpen_eq, ends_bind, ends_ask]
  cases isOpen : ledger.checkOpen owner with
  | error _ => exact fun _ => rfl
  | ok _ =>
    obtain ⟨transaction, isOwner, -⟩ := checkOpen_eq_ok_iff.mp isOpen
    dsimp only
    rw [ends_bind, ends_ask]
    cases isSplit : ledger.split split with
    | error _ => exact fun _ => rfl
    | ok entry =>
      have named := parent_eq_iff.mpr ⟨entry, split_eq_ok_iff.mp isSplit, rfl⟩
      dsimp only
      cases within : entry.parent with
      | none => exact fun _ => owned.withdrawn_detached isOwner (within ▸ named)
      | some former =>
        rw [within] at named
        dsimp only
        rw [ends_ite]
        split
        · rename_i same
          subst same
          exact fun _ => owned.withdrawn_within isOwner named
        · rename_i different
          exact owned.ends_release_withdraws isOwner named different

end Action

namespace Ledger

variable {α J : Type} {ledger after : Ledger α J} {owner : TransactionId} {split : SplitId}

theorem Owned.parentOf?_of_mem (owned : ledger.Owned) (inside : split ∈ ledger.splitsOf owner) :
    ledger.parentOf? split = some owner := by
  unfold splitsOf at inside
  cases isOwner : ledger.transaction? owner with
  | none => simp [isOwner] at inside
  | some transaction =>
    simp only [isOwner] at inside
    exact parentOf?_eq_some_iff.mpr ((owned.mem_iff isOwner).mp inside)

theorem Owned.nodup_splitsOf (owned : ledger.Owned) (owner : TransactionId) :
    (ledger.splitsOf owner).Nodup := by
  unfold splitsOf
  cases isOwner : ledger.transaction? owner with
  | none => exact List.nodup_nil
  | some transaction => exact owned.nodup isOwner

/-- The list of a transaction that a split has joined. -/
theorem Withdrawn.splitsOf_joined (withdrawn : ledger.Withdrawn owner split after) :
    ((after.joined owner split).mark split).splitsOf owner =
      (ledger.splitsOf owner).filter (· ≠ split) ++ [split] := by
  obtain ⟨transaction, isOwner⟩ := Option.isSome_iff_exists.mp withdrawn.known
  have joined : ((after.joined owner split).mark split).transaction? owner =
      some (transaction.push split) := by
    rw [transaction?_mark, transaction?_joined split isOwner]
  rw [splitsOf_eq joined, ← withdrawn.lists, splitsOf_eq isOwner]
  rfl

theorem splitsOf_joined_of_ne {other : TransactionId} (different : other ≠ owner) :
    ((after.joined owner split).mark split).splitsOf other = after.splitsOf other := by
  unfold splitsOf
  rw [transaction?_mark, joined, transaction?_modifyTransaction, if_neg different]
  rfl

end Ledger

section Appending

open Ledger

variable {α J : Type} [Scalar α] [ZeroPriced α] {ledger after : Ledger α J} {owner : TransactionId}
  {split : SplitId}

omit [ZeroPriced α] in
theorem Ledger.Withdrawn.owned (withdrawn : ledger.Withdrawn owner split after) :
    ((after.joined owner split).mark split).Owned :=
  have alike := mark_alike (after.joined owner split) split
  withdrawn.sound.linked alike.ownership alike.minted.ge

variable [Journal J α]

/-- Appending a split, in any ledger that can be reached.

If the split cannot withdraw from where it is, that is the fault and the ledger is exactly as it was. If it
can and appending fails all the same, the fault is that of the last rebalancing, and the split stays where it
has joined: it is the last split of the transaction, names it, and is in no other.

If appending succeeds, the split is in the transaction once and names it; the other splits of the
transaction come before it in the order that they had; and if it came from another transaction, that one
goes on with the splits that it has left, in the order that they had, and has some. -/
theorem Reachable.appendSplit_loses_nothing (reached : Reachable (fun _ => True) ledger)
    (owner : TransactionId) (split : SplitId)
    (fresh : (appendSplit owner split ledger).ledger.minted ≤ 2 ^ 128) :
    (∀ fault, (withdraw owner split ledger).result = .error fault →
      (appendSplit owner split ledger).result = .error fault ∧
        (appendSplit owner split ledger).ledger = ledger) ∧
    (∀ fault, (withdraw owner split ledger).result = .ok () →
      (appendSplit owner split ledger).result = .error fault →
        let joined := ((withdraw owner split ledger).ledger.joined owner split).mark split
        (rebalanceSplit split joined).result = .error fault ∧
          (appendSplit owner split ledger).ledger = joined ∧
          (joined.splitsOf owner).getLast? = some split ∧ joined.parentOf? split = some owner ∧
          ∀ other, split ∈ joined.splitsOf other → other = owner) ∧
    ((appendSplit owner split ledger).result = .ok () →
      let after := (appendSplit owner split ledger).ledger
      after.parentOf? split = some owner ∧ (after.splitsOf owner).count split = 1 ∧
        (ledger.splitsOf owner).filter (· ≠ split) ++ [split] <+: after.splitsOf owner ∧
        ∀ former, ledger.parentOf? split = some former → former ≠ owner →
          (ledger.splitsOf former).filter (· ≠ split) <+: after.splitsOf former ∧
            after.splitsOf former ≠ []) := by
  have withdraws := ends_withdraw reached.owned owner split
  unfold Ends at withdraws
  cases first : (withdraw owner split ledger).result with
  | error fault =>
    obtain ⟨fails, after⟩ := appendSplit_of_refused first
    rw [first, ← after] at withdraws
    refine ⟨fun other same => ⟨?_, withdraws fresh⟩, fun _ => nofun, fun succeeds => ?_⟩
    · rw [fails, Except.error.inj same]
    · rw [fails] at succeeds
      cases succeeds
  | ok _ =>
    obtain ⟨last, after⟩ := appendSplit_of_withdrawn first
    rw [first] at withdraws
    generalize (withdraw owner split ledger).ledger = middle at withdraws last after ⊢
    have grows : (rebalanceSplit split).Ends ((middle.joined owner split).mark split) fun _ after =>
      ((middle.joined owner split).mark split).minted ≤ after.minted := ends_rebalanceSplit_minted split
    unfold Ends at grows
    rw [(mark_alike _ split).minted] at grows
    rw [after] at fresh
    have withdrawn : ledger.Withdrawn owner split middle := withdraws (grows.trans fresh)
    have lists := withdrawn.splitsOf_joined
    have owned := withdrawn.owned
    rw [last, after]
    refine ⟨fun _ => nofun, fun fault _ fails => ⟨fails, ?_, ?_, ?_, ?_⟩, fun _ => ?_⟩
    · exact ends_rebalanceSplit_refused owned.new split fresh fault fails
    · rw [lists, List.getLast?_append_of_ne_nil _ (by simp)]
      rfl
    · exact owned.parentOf?_of_mem (lists ▸ by simp)
    · intro other inside
      have last : split ∈ ((middle.joined owner split).mark split).splitsOf owner := by
        rw [lists]
        simp
      have here := owned.parentOf?_of_mem last
      exact Option.some.inj ((owned.parentOf?_of_mem inside).symm.trans here)
    · have settled := Ownership.keeps_rebalanceSplit split _ (fun _ => owned) fresh
      have lengthens := ends_rebalanceSplit_lengthens owned split fresh
      have goesOn := lengthens owner
      rw [lists] at goesOn
      have inside := goesOn.subset (List.mem_append_right _ List.mem_cons_self)
      refine ⟨settled.parentOf?_of_mem inside,
        List.count_eq_one_of_mem (settled.nodup_splitsOf owner) inside, goesOn, ?_⟩
      intro former isFormer different
      obtain ⟨keeps, nonempty⟩ := withdrawn.former former isFormer different
      have stays := lengthens former
      rw [splitsOf_joined_of_ne different] at stays
      have rest := keeps.trans stays
      exact ⟨rest, fun empty => nonempty (List.prefix_nil.mp (empty ▸ rest))⟩

/-- Transaction 2 has the splits 1, 4 and 5, and split 4 is at a price of zero, so that it takes up nothing
if split 5 leaves. The source 6 of transaction 7 is in no account, so that nothing can join it for good. -/
def Ledger.threeSided : Ledger Float (MemoryLog Float) :=
  (oneSided 0 1 false).after ([.createSplit, .enterAccount ⟨.ofNat 0⟩ ⟨.ofNat 4⟩,
    .appendSplit ⟨.ofNat 2⟩ ⟨.ofNat 4⟩, .createSplit, .enterAccount ⟨.ofNat 0⟩ ⟨.ofNat 5⟩,
    .appendSplit ⟨.ofNat 2⟩ ⟨.ofNat 5⟩, .setPrice ⟨.ofNat 4⟩ 0, .setAmount ⟨.ofNat 5⟩ 10,
    .createTransaction, .beginEdit ⟨.ofNat 7⟩ false].map Deed.command)

theorem Ledger.reachable_threeSided : Reachable (fun _ => True) threeSided :=
  ((Reachable.start _ _).after _ (fun _ _ => trivial) (by decide +kernel)).after _
    (fun _ _ => trivial) (by decide +kernel)

omit [Scalar α] [ZeroPriced α] [Journal J α] in
/-- Split 5 cannot leave its transaction, split 4 joins another one that cannot be settled, and moves
within its own. -/
theorem Reachable.appendSplit_loses_nothing_threeSided :
    (appendSplit ⟨.ofNat 7⟩ ⟨.ofNat 5⟩ threeSided).ledger = threeSided ∧
    (appendSplit ⟨.ofNat 7⟩ ⟨.ofNat 4⟩ threeSided).ledger.parentOf? ⟨.ofNat 4⟩ = some ⟨.ofNat 7⟩ ∧
    (appendSplit ⟨.ofNat 2⟩ ⟨.ofNat 4⟩ threeSided).ledger.parentOf? ⟨.ofNat 4⟩ = some ⟨.ofNat 2⟩ := by
  have stuck : (withdraw ⟨.ofNat 7⟩ ⟨.ofNat 5⟩ threeSided).result =
      .error (.invalid (.cannotAbsorb ⟨.ofNat 4⟩ ⟨.ofNat 2⟩ "0")) := by decide +kernel
  have leaves : (withdraw ⟨.ofNat 7⟩ ⟨.ofNat 4⟩ threeSided).result = .ok () := by decide +kernel
  have fails : (appendSplit ⟨.ofNat 7⟩ ⟨.ofNat 4⟩ threeSided).result =
      .error (.orphan ⟨.ofNat 6⟩) := by decide +kernel
  refine ⟨?_, ?_, ?_⟩
  · exact ((Reachable.appendSplit_loses_nothing reachable_threeSided ⟨.ofNat 7⟩ ⟨.ofNat 5⟩
      (by decide +kernel)).1 _ stuck).2
  · obtain ⟨-, after, -, parent, -⟩ := (Reachable.appendSplit_loses_nothing reachable_threeSided
      ⟨.ofNat 7⟩ ⟨.ofNat 4⟩ (by decide +kernel)).2.1 _ leaves fails
    rw [after]
    exact parent
  · exact ((Reachable.appendSplit_loses_nothing reachable_threeSided ⟨.ofNat 2⟩ ⟨.ofNat 4⟩
      (by decide +kernel)).2.2 (by decide +kernel)).1

end Appending

end DoubleEntry
