import DoubleEntry.Proofs.Balance
import DoubleEntry.Proofs.Membership
import DoubleEntry.Proofs.Running

/-! # When rebalancing adds a split

Rebalancing adds at most one split, and adds one exactly for an unpaired source: a source that stands
alone with an amount that matters, under enforcement, where nothing puts rebalancing off. The pass that
follows finds two splits and was started from the second, so it always goes on to the source. Whatever it
would do about a source without a second split is therefore never done: with `Action.addCounterpartBy`
this is said of every such answer, further counterparts included.
-/

namespace DoubleEntry

open DoubleEntry.Action

theorem Register.count_insert {κ : Type} [DecidableEq κ] (order : κ → κ → Ordering) (entry : κ)
    (entries : List κ) : (Register.insert order entry entries).count entry = 1 := by
  rw [← Multiset.coe_count, coe_insert, Multiset.count_cons_self, Multiset.count_filter_of_neg (by simp)]

namespace Ledger

variable {α J : Type} {ledger after : Ledger α J} {new : SplitId}

/-- A split that is there in the second ledger and not in the first. -/
def Creates (ledger after : Ledger α J) (new : SplitId) : Prop :=
  ledger.split? new = none ∧ (after.split? new).isSome = true

theorem not_creates (same : (after.split? new).isSome = (ledger.split? new).isSome) :
    ¬ ledger.Creates after new := by
  rintro ⟨absent, present⟩
  rw [same, absent] at present
  contradiction

theorem SameHoldings.isSome_split? (same : ledger.SameHoldings after) (id : SplitId) :
    (after.split? id).isSome = (ledger.split? id).isSome := by
  simpa using congrArg Option.isSome (same.splits id)

variable [Scalar α] {edited : SplitId} {split : Split α} {owner : TransactionId}
  {transaction : Transaction} {account : AccountId} {holder : Account} {amount? : Option α}

/-- A source that stands alone under enforcement with an amount that matters, and has an account. -/
structure Unpaired (ledger : Ledger α J) (edited : SplitId) (split : Split α) (owner : TransactionId)
    (transaction : Transaction) (account : AccountId) : Prop
    extends ledger.Active edited split owner transaction where
  alone : transaction.splits = [edited]
  enforced : ledger.enforces = true
  within : split.account = some account
  matters : Scalar.isSignificant split.amount = true

/-- What the new split is to an unpaired source: the second and last split of its transaction,
unreconciled, at price one and worth the opposite, with its texts and its account, in the register once. -/
structure Mirrors (ledger after : Ledger α J) (edited : SplitId) (split : Split α) (owner : TransactionId)
    (account : AccountId) (new : SplitId) : Prop where
  creates : ledger.Creates after new
  lists : after.splitsOf owner = [edited, new]
  entry : ∃ counterpart, after.split? new = some counterpart ∧ counterpart.parent = some owner ∧
    counterpart.reconcile = .unreconciled ∧ counterpart.price = 1 ∧
    counterpart.amount = -split.value ∧ counterpart.memo = split.memo ∧
    counterpart.action = split.action ∧ counterpart.account = some account
  entered : ∃ holder, after.account? account = some holder ∧ holder.register.count new = 1

/-- The ledger once a lone source and its counterpart were settled and the counterpart has its place in
the register. -/
def paired (ledger : Ledger α J) (owner : TransactionId) (edited : SplitId) (split : Split α)
    (account : AccountId) (amount? : Option α) : Ledger α J :=
  ((ledger.withCounterpart owner split).absorbed edited amount?).enrolled ledger.nextSplit (some account)

theorem paired_sameHoldings : (ledger.withCounterpart owner split).SameHoldings
    (ledger.paired owner edited split account amount?) :=
  absorbed_sameHoldings.trans (enrolled_sameValues _ _ _).toSameHoldings

/-- Of the splits in the end, only the counterpart is new. -/
theorem eq_nextSplit_of_creates
    (creates : ledger.Creates (ledger.paired owner edited split account amount?) new) :
    new = ledger.nextSplit := by
  by_contra different
  apply not_creates _ creates
  rw [paired_sameHoldings.isSome_split?, split?_withCounterpart different]

/-- In the end, splits are as the source took its amount back, but for their running balances. -/
theorem bare_split?_paired (id : SplitId) :
    ((ledger.paired owner edited split account amount?).split? id).map Split.bare =
      (((ledger.withCounterpart owner split).withAmount edited amount?).split? id).map Split.bare := by
  rw [paired, enrolled, (recompute_alike _ _).splits]
  change (((ledger.withCounterpart owner split).absorbed edited amount?).split? id).map _ = _
  rw [absorbed_alike.splits]

/-- The counterpart is settled as it was made. -/
theorem split?_paired (other : edited ≠ ledger.nextSplit) :
    ((ledger.paired owner edited split account amount?).split? ledger.nextSplit).map Split.bare =
      some { split.counterpart with parent := some owner } := by
  rw [bare_split?_paired, split?_withAmount_of_ne other.symm, split?_next]
  rfl

/-- The counterpart is in the register of the account once. -/
theorem count_paired (held : ledger.account? account = some holder) :
    ∃ after, (ledger.paired owner edited split account amount?).account? account = some after ∧
      after.register.count ledger.nextSplit = 1 := by
  let settled := (ledger.withCounterpart owner split).absorbed edited amount?
  have bare : (settled.account? account).map Account.bare = some holder.bare := by
    rw [absorbed_alike.accounts]
    have same : ((ledger.withCounterpart owner split).withAmount edited amount?).account? account =
        (ledger.withCounterpart owner split).account? account := by
      cases amount? <;> rfl
    rw [same, account?_withCounterpart, held, Option.map_some]
  obtain ⟨between, found, -⟩ := Option.map_eq_some_iff.mp bare
  have enters : (ledger.paired owner edited split account amount?).account? account =
      (settled.registered account ledger.nextSplit).account? account := by
    rw [account?, account?, paired, enrolled, accounts_recompute]
  rw [enters]
  change ∃ after, (Book.insertSplit _ _ _ _).get? account = some after ∧ _
  rw [Book.insertSplit, Table.get?_modify, if_pos rfl]
  change settled.accounts.get? account = some between at found
  rw [found]
  exact ⟨_, rfl, Register.count_insert _ _ _⟩

theorem Lone.mirrors (lone : ledger.Lone edited split owner transaction account holder) :
    ledger.Mirrors (ledger.paired owner edited split account amount?) edited split owner account
      ledger.nextSplit := by
  have paired : ((ledger.paired owner edited split account amount?).split? ledger.nextSplit).map
      Split.bare = some { split.counterpart with parent := some owner }.bare := split?_paired lone.other
  obtain ⟨entry, found, bare⟩ := Option.map_eq_some_iff.mp paired
  refine ⟨⟨lone.new, by simp [found]⟩, ?_, ⟨entry, found, ?_⟩, count_paired lone.held⟩
  · rw [paired_sameHoldings.splitsOf, splitsOf_eq lone.transaction?_owner, lone.splits_push]
  · -- What is not a running balance is read off the split without it.
    have kept {β : Type} (view : Split α → β) (blind : ∀ split, view split.bare = view split) :
        view entry = view { split.counterpart with parent := some owner } :=
      (blind entry).symm.trans (congrArg view bare)
    have within : entry.account = split.account := kept (·.account) fun _ => rfl
    exact ⟨kept (·.parent) fun _ => rfl, kept (·.reconcile) fun _ => rfl, kept (·.price) fun _ => rfl,
      kept (·.amount) fun _ => rfl, kept (·.memo) fun _ => rfl, kept (·.action) fun _ => rfl,
      within.trans lone.within⟩

theorem Unpaired.settlement (unpaired : ledger.Unpaired edited split owner transaction account)
    (held : ledger.account? account = some holder) :
    ledger.settlement edited = .ok (.pair owner edited) := by
  have lone : ledger.Alone edited split owner transaction account holder :=
    ⟨unpaired.toActive, unpaired.alone, unpaired.enforced, unpaired.within, held⟩
  have target : transaction.target? edited = none :=
    (Transaction.target?_eq_none (by simp [unpaired.alone])).mpr unpaired.alone
  rw [unpaired.toActive.settlement, if_neg (by simp [unpaired.alone]), lone.commonCommodity, ok_bind,
    target]
  simp [unpaired.enforced, unpaired.matters]

/-- What is decided for an unpaired source of which the commodity is found. -/
theorem unpaired_of_settlement {source : SplitId}
    (decided : ledger.settlement edited = .ok (.pair owner source)) :
    source = edited ∧ ∃ split transaction account holder,
      ledger.Unpaired edited split owner transaction account ∧
        ledger.account? account = some holder := by
  obtain ⟨same, split, transaction, base, active, alone, common, enforced, matters⟩ :=
    settlement_eq_pair decided
  obtain ⟨account, holder, within, held⟩ := held_of_commonCommodity enforced active.isSplit common
  exact ⟨same, split, transaction, account, holder, ⟨active, alone, enforced, within, matters⟩, held⟩

end Ledger

/-! ## The pass after the counterpart -/

namespace Action

open Ledger

variable {α J : Type} [Scalar α] {ledger : Ledger α J} {edited source : SplitId} {split : Split α}
  {owner : TransactionId} {transaction : Transaction} {account : AccountId} {holder : Account}

/-- Adds the counterpart of a lone source as `addCounterpart` does, with any pass for what follows. -/
def addCounterpartBy (next : SplitId → Action α J Unit) (transaction : TransactionId)
    (source : SplitId) : Action α J Unit := do
  let split ← ask (·.split source)
  let id : SplitId := ⟨← mint⟩
  update fun ledger => { ledger with splits := ledger.splits.insert id split.counterpart }
  adopt next transaction id
  match split.account with
  | none => return ()
  | some account =>
    enterRegister account id
    update (·.recompute account)

theorem addCounterpart_eq : addCounterpart (α := α) (J := J) =
    addCounterpartBy (settle fun _ _ => pure ()) := rfl

/-- The pass that follows is run once, on the ledger with the counterpart. -/
theorem addCounterpartBy_congr {next again : SplitId → Action α J Unit}
    (found : ledger.split? source = some split)
    (same : next ledger.nextSplit (ledger.withCounterpart owner split) =
      again ledger.nextSplit (ledger.withCounterpart owner split)) :
    addCounterpartBy next owner source ledger = addCounterpartBy again owner source ledger := by
  let enters (outcome : Outcome α J Unit) : Outcome α J Unit :=
    andThen (fun _ => outcome) (fun _ =>
      match split.account with
      | none => pure ()
      | some account => do
        enterRegister account ledger.nextSplit
        update (·.recompute account)) ledger
  have run (pass : SplitId → Action α J Unit) : addCounterpartBy pass owner source ledger =
      enters (pass ledger.nextSplit (ledger.withCounterpart owner split)) := by
    rw [addCounterpartBy, ask_bind, Ledger.split_eq_ok_iff.mpr found]
    rfl
  rw [run next, run again, same]

/-- The pass that follows a counterpart settles the source, whatever it would do about a lone one. -/
theorem settle_next (lone : ledger.Lone edited split owner transaction account holder)
    (alternative : TransactionId → SplitId → Action α J Unit) :
    settle alternative ledger.nextSplit (ledger.withCounterpart owner split) =
      absorb owner edited (some holder.currency) (ledger.withCounterpart owner split) := by
  rw [settle_eq, ask_bind, lone.settlement_next]

/-- Where a counterpart is added and its number is a new one, there was a number left. -/
theorem small_of_pair (decided : ledger.settlement edited = .ok (.pair owner source))
    (fresh : (rebalanceSplit edited ledger).ledger.minted ≤ 2 ^ 128) : ledger.minted < 2 ^ 128 := by
  obtain ⟨rfl, split, _, _, active, -⟩ := settlement_eq_pair decided
  have grows : (rebalanceSplit source).Ends ledger fun _ after => after.minted = ledger.minted + 1 := by
    rw [rebalanceSplit, ends_settle, decided]
    exact ends_addCounterpart_minted active.isSplit
  change (rebalanceSplit source ledger).ledger.minted = ledger.minted + 1 at grows
  omega

/-- No pass that follows a counterpart is asked to add another one, so it makes no difference what it
would do then. -/
theorem settle_addCounterpartBy (owned : ledger.Owned)
    (fresh : (rebalanceSplit edited ledger).ledger.minted ≤ 2 ^ 128)
    (alternative : TransactionId → SplitId → Action α J Unit) :
    settle (addCounterpartBy (settle alternative)) edited ledger = rebalanceSplit edited ledger := by
  rw [rebalanceSplit, settle_eq, settle_eq, ask_bind, ask_bind]
  rcases decided : ledger.settlement edited with _ | _ | _ | ⟨owner, source⟩
  · rfl
  · rfl
  · rfl
  · have new := owned.new (small_of_pair decided fresh)
    obtain ⟨rfl, split, _, _, _, lone⟩ := lone_of_settlement new decided
    dsimp only
    rw [addCounterpart_eq]
    apply addCounterpartBy_congr lone.isSplit
    rw [settle_next lone, settle_next lone]

/-- A lone source that is to get a counterpart gets it. -/
theorem ends_rebalanceSplit_paired [ZeroPriced α]
    (lone : ledger.Lone edited split owner transaction account holder)
    (decided : ledger.settlement edited = .ok (.pair owner edited)) :
    (rebalanceSplit edited).Ends ledger fun result after => result = .ok () ∧
      ∃ amount?, after = ledger.paired owner edited split account amount? := by
  obtain ⟨amount?, absorbs⟩ := lone.absorption_next_ok
  rw [rebalanceSplit, ends_settle, decided]
  dsimp only
  rw [ends_addCounterpart_of_lone lone, absorbs]
  exact ⟨rfl, amount?, rfl⟩

/-- Only a counterpart is a new split. -/
theorem pair_of_creates {new : SplitId}
    (creates : ledger.Creates (rebalanceSplit edited ledger).ledger new) :
    ∃ owner, ledger.settlement edited = .ok (.pair owner edited) := by
  by_contra other
  suffices same : (rebalanceSplit edited).Ends ledger fun _ after =>
      (after.split? new).isSome = (ledger.split? new).isSome from not_creates same creates
  rw [rebalanceSplit, ends_settle]
  rcases decided : ledger.settlement edited with _ | _ | ⟨parent, target, base⟩ | ⟨owner, source⟩
  · rfl
  · rfl
  · dsimp only
    cases ledger.absorption parent target base with
    | error _ => rfl
    | ok _ => exact absorbed_sameHoldings.isSome_split? new
  · obtain ⟨rfl, -⟩ := settlement_eq_pair decided
    exact absurd ⟨owner, decided⟩ other

end Action

section Exact

open Ledger

variable {α J : Type} [Scalar α] [ZeroPriced α] {ledger : Ledger α J} {edited : SplitId}
  {split : Split α} {owner : TransactionId} {transaction : Transaction} {account : AccountId}
  {holder : Account}

/-- An unpaired source in an account of the book gets a split that mirrors it, and the pass from that
split balances onto the source. -/
theorem Ledger.Unpaired.mirrored (unpaired : ledger.Unpaired edited split owner transaction account)
    (owned : ledger.Owned) (held : ledger.account? account = some holder)
    (fresh : (rebalanceSplit edited ledger).ledger.minted ≤ 2 ^ 128) :
    (rebalanceSplit edited ledger).result = .ok () ∧
      (∃ new, ledger.Mirrors (rebalanceSplit edited ledger).ledger edited split owner account new) ∧
      ∃ base, ∀ alternative : TransactionId → SplitId → Action α J Unit,
        settle alternative ledger.nextSplit (ledger.withCounterpart owner split) =
          absorb owner edited base (ledger.withCounterpart owner split) := by
  have decided := unpaired.settlement held
  have new := owned.new (small_of_pair decided fresh)
  have lone : ledger.Lone edited split owner transaction account holder :=
    ⟨⟨unpaired.toActive, unpaired.alone, unpaired.enforced, unpaired.within, held⟩, new⟩
  obtain ⟨succeeds, amount?, after⟩ := ends_rebalanceSplit_paired lone decided
  exact ⟨succeeds, ⟨ledger.nextSplit, after ▸ lone.mirrors⟩, some holder.currency, settle_next lone⟩

/-- A new split is the counterpart of an unpaired source. -/
theorem Ledger.unpaired_of_creates (owned : ledger.Owned)
    (fresh : (rebalanceSplit edited ledger).ledger.minted ≤ 2 ^ 128) {new : SplitId}
    (creates : ledger.Creates (rebalanceSplit edited ledger).ledger new) :
    new = ledger.nextSplit ∧ ∃ split owner transaction account holder,
      ledger.Unpaired edited split owner transaction account ∧
        ledger.account? account = some holder := by
  obtain ⟨owner, decided⟩ := pair_of_creates creates
  have unused := owned.new (small_of_pair decided fresh)
  obtain ⟨-, split, transaction, account, holder, lone⟩ := lone_of_settlement unused decided
  obtain ⟨-, amount?, after⟩ := ends_rebalanceSplit_paired lone decided
  refine ⟨eq_nextSplit_of_creates (after ▸ creates), ?_⟩
  obtain ⟨-, split, transaction, account, holder, unpaired, held⟩ := unpaired_of_settlement decided
  exact ⟨split, owner, transaction, account, holder, unpaired, held⟩

variable [Journal J α]

/-- Rebalancing from a split, in any ledger that can be reached and whether or not it fails.

At most one split is new, and one is new exactly if the split is an unpaired source in an account of the
book. As long as the registers are left to the ledger, that is exactly if it is an unpaired source. The
rebalancing then succeeds, the new split mirrors the source, and the pass that follows balances onto the
source.

That pass is never asked to add a split: whatever it would do then, the outcome is the same. -/
theorem Reachable.synthesis_exact (reached : Reachable (fun _ => True) ledger) (edited : SplitId)
    (fresh : (rebalanceSplit edited ledger).ledger.minted ≤ 2 ^ 128) :
    (∀ new other, ledger.Creates (rebalanceSplit edited ledger).ledger new →
      ledger.Creates (rebalanceSplit edited ledger).ledger other → other = new) ∧
    ((∃ new, ledger.Creates (rebalanceSplit edited ledger).ledger new) ↔
      ∃ split owner transaction account holder,
        ledger.Unpaired edited split owner transaction account ∧
          ledger.account? account = some holder) ∧
    (Reachable Deed.LeavesRegisters ledger →
      ((∃ new, ledger.Creates (rebalanceSplit edited ledger).ledger new) ↔
        ∃ split owner transaction account,
          ledger.Unpaired edited split owner transaction account)) ∧
    (∀ split owner transaction account holder,
      ledger.Unpaired edited split owner transaction account →
        ledger.account? account = some holder →
          (rebalanceSplit edited ledger).result = .ok () ∧
            (∃ new, ledger.Mirrors (rebalanceSplit edited ledger).ledger edited split owner account new) ∧
            ∃ base, ∀ alternative : TransactionId → SplitId → Action α J Unit,
              settle alternative ledger.nextSplit (ledger.withCounterpart owner split) =
                absorb owner edited base (ledger.withCounterpart owner split)) ∧
    ∀ alternative : TransactionId → SplitId → Action α J Unit,
      settle (addCounterpartBy (settle alternative)) edited ledger = rebalanceSplit edited ledger := by
  have owned := reached.owned
  have exact_of_held : (∃ new, ledger.Creates (rebalanceSplit edited ledger).ledger new) ↔
      ∃ split owner transaction account holder,
        ledger.Unpaired edited split owner transaction account ∧
          ledger.account? account = some holder := by
    constructor
    · rintro ⟨new, creates⟩
      exact (unpaired_of_creates owned fresh creates).2
    · rintro ⟨split, owner, transaction, account, holder, unpaired, held⟩
      obtain ⟨-, ⟨new, mirrors⟩, -⟩ := unpaired.mirrored owned held fresh
      exact ⟨new, mirrors.creates⟩
  refine ⟨?_, exact_of_held, ?_, ?_, settle_addCounterpartBy owned fresh⟩
  · intro new other creates again
    rw [(unpaired_of_creates owned fresh creates).1, (unpaired_of_creates owned fresh again).1]
  · intro leaves
    rw [exact_of_held]
    constructor
    · rintro ⟨split, owner, transaction, account, -, unpaired, -⟩
      exact ⟨split, owner, transaction, account, unpaired⟩
    · rintro ⟨split, owner, transaction, account, unpaired⟩
      have named := within_eq_iff.mpr ⟨split, unpaired.isSplit, unpaired.within⟩
      obtain ⟨holder, held⟩ := leaves.booked.known named
      exact ⟨split, owner, transaction, account, holder, unpaired, held⟩
  · intro split owner transaction account holder unpaired held
    exact unpaired.mirrored owned held fresh

omit [Scalar α] [ZeroPriced α] [Journal J α] in
/-- The source of a one-sided transaction, at a price of two, is mirrored by one split. -/
theorem Reachable.synthesis_exact_oneSided :
    (rebalanceSplit ⟨.ofNat 1⟩ (oneSided (5 : Float) 2 false)).result = .ok () ∧
      ∃ split, (oneSided (5 : Float) 2 false).split? ⟨.ofNat 1⟩ = some split ∧
        ∃ new, (oneSided (5 : Float) 2 false).Mirrors
          (rebalanceSplit ⟨.ofNat 1⟩ (oneSided (5 : Float) 2 false)).ledger ⟨.ofNat 1⟩ split
          ⟨.ofNat 2⟩ ⟨.ofNat 0⟩ new := by
  have reached : Reachable (fun _ => True) (oneSided (5 : Float) 2 false) :=
    (Reachable.start _ _).after _ (fun _ _ => trivial) (by decide +kernel)
  have source : ((oneSided (5 : Float) 2 false).split? ⟨.ofNat 1⟩).map
      (fun split => (split.parent, split.account, Scalar.isSignificant split.amount)) =
        some (some ⟨.ofNat 2⟩, some ⟨.ofNat 0⟩, true) := by decide +kernel
  have lists : ((oneSided (5 : Float) 2 false).transaction? ⟨.ofNat 2⟩).map
      (fun transaction => (transaction.splits, transaction.edit.defers)) =
        some ([⟨.ofNat 1⟩], false) := by decide +kernel
  have ready : (oneSided (5 : Float) 2 false).accounts.defers ⟨.ofNat 0⟩ = false := by decide +kernel
  have known : ((oneSided (5 : Float) 2 false).account? ⟨.ofNat 0⟩).isSome := by decide +kernel
  obtain ⟨split, isSplit, terms⟩ := Option.map_eq_some_iff.mp source
  obtain ⟨transaction, isOwner, shape⟩ := Option.map_eq_some_iff.mp lists
  obtain ⟨holder, held⟩ := Option.isSome_iff_exists.mp known
  simp only [Prod.mk.injEq] at terms shape
  obtain ⟨parent, within, matters⟩ := terms
  have unpaired : (oneSided (5 : Float) 2 false).Unpaired ⟨.ofNat 1⟩ split ⟨.ofNat 2⟩ transaction
      ⟨.ofNat 0⟩ :=
    ⟨⟨isSplit, parent, isOwner, shape.2, by rw [within]; exact ready⟩, shape.1, by decide +kernel,
      within, matters⟩
  obtain ⟨succeeds, mirrored, -⟩ := (Reachable.synthesis_exact reached ⟨.ofNat 1⟩
    (by decide +kernel)).2.2.2.1 split _ transaction _ holder unpaired held
  exact ⟨succeeds, split, isSplit, mirrored⟩

end Exact

end DoubleEntry
