import DoubleEntry.Proofs.Pairing
import DoubleEntry.Proofs.ScalarLaws

/-! # The pass that follows a counterpart

Once a lone source has a counterpart, the two splits are in one account, so they share its currency and
the counterpart is worth the opposite of the source in it. The pass that follows hands this value back
to the source.
-/

namespace DoubleEntry

theorem Candidate.narrow_seed (currency : Commodity) (security : Option Commodity) :
    (seed currency security).narrow currency security = seed currency security := by
  cases security with
  | none => simp [seed, narrow]
  | some security => simp [seed, narrow]

namespace Ledger

variable {α J : Type} [Scalar α] {ledger : Ledger α J} {edited : SplitId} {split : Split α}
  {owner : TransactionId} {transaction : Transaction} {account : AccountId} {holder : Account}

/-- A source that stands alone under enforcement, in an account of the book. -/
structure Alone (ledger : Ledger α J) (edited : SplitId) (split : Split α) (owner : TransactionId)
    (transaction : Transaction) (account : AccountId) (holder : Account) : Prop
    extends ledger.Active edited split owner transaction where
  alone : transaction.splits = [edited]
  enforced : ledger.enforces = true
  within : split.account = some account
  held : ledger.account? account = some holder

/-- The same with an identifier left for a counterpart. -/
structure Lone (ledger : Ledger α J) (edited : SplitId) (split : Split α) (owner : TransactionId)
    (transaction : Transaction) (account : AccountId) (holder : Account) : Prop
    extends ledger.Alone edited split owner transaction account holder where
  new : ledger.split? ledger.nextSplit = none

omit [Scalar α] in
/-- Under enforcement, a split of which the commodity is found has an account in the book. -/
theorem held_of_commonCommodity {base : Option Commodity} (enforced : ledger.enforces = true)
    (isSplit : ledger.split? edited = some split)
    (common : ledger.commonCommodity owner edited = .ok base) :
    ∃ account holder, split.account = some account ∧ ledger.account? account = some holder := by
  obtain ⟨transaction, -, common⟩ := bind_eq_ok_iff.mp common
  rw [split_eq_ok_iff.mpr isSplit, ok_bind] at common
  obtain ⟨found, inBook, common⟩ := bind_eq_ok_iff.mp common
  unfold accountOf at inBook
  cases within : split.account with
  | none =>
    simp only [within] at inBook
    cases inBook
    simp [enforced] at common
  | some account =>
    simp only [within] at inBook
    cases held : ledger.account? account with
    | none => simp [held] at inBook
    | some holder => exact ⟨account, holder, rfl, held⟩

omit [Scalar α] in
/-- A lone source is valued in the currency of its account. -/
theorem Alone.commonCommodity (lone : ledger.Alone edited split owner transaction account holder) :
    ledger.commonCommodity owner edited = .ok (some holder.currency) := by
  have isIn : ledger.accountOf edited split = .ok (some (account, holder)) := by
    simp only [accountOf, lone.within, lone.held]
  have remains : (Candidate.seed holder.currency holder.security).isExhausted = false := rfl
  simp only [Ledger.commonCommodity, transaction_eq_ok_iff.mpr lone.isOwner, ok_bind,
    split_eq_ok_iff.mpr lone.isSplit, isIn, lone.alone, narrowBy, Candidate.narrow_seed, remains,
    Bool.false_eq_true, if_false]
  rfl

theorem split?_next : (ledger.withCounterpart owner split).split? ledger.nextSplit =
    some { split.counterpart with parent := some owner } := by
  rw [withCounterpart, split?_mark]
  change split? (modifySplit _ _ _) _ = _
  rw [split?_modifySplit]
  simp [split?, Table.get?_insert]

theorem split?_withCounterpart {other : SplitId} (different : other ≠ ledger.nextSplit) :
    (ledger.withCounterpart owner split).split? other = ledger.split? other := by
  rw [withCounterpart, split?_mark]
  change split? (modifySplit _ _ _) _ = _
  rw [split?_modifySplit, if_neg different]
  change Table.get? _ _ = _
  rw [Table.get?_insert, if_neg different]
  rfl

theorem transaction?_withCounterpart (id : TransactionId) :
    (ledger.withCounterpart owner split).transaction? id =
      if id = owner then (ledger.transaction? id).map (·.push ledger.nextSplit)
      else ledger.transaction? id := by
  rw [withCounterpart, transaction?_mark, transaction?_modifyTransaction]
  split
  · subst_vars
    rfl
  · rfl

/-- The accounts are the same ones, and one of them was marked as changed. -/
theorem account?_withCounterpart (id : AccountId) :
    ((ledger.withCounterpart owner split).account? id).map Account.bare =
      (ledger.account? id).map Account.bare := (mark_alike _ ledger.nextSplit).accounts id

theorem enforces_withCounterpart :
    (ledger.withCounterpart owner split).enforces = ledger.enforces := (mark_alike _ _).enforces

theorem defers_withCounterpart :
    (ledger.withCounterpart owner split).accounts.defers = ledger.accounts.defers :=
  (mark_alike _ ledger.nextSplit).defers

namespace Lone

variable (lone : ledger.Lone edited split owner transaction account holder)

include lone

omit [Scalar α] in
theorem other : edited ≠ ledger.nextSplit := by
  rintro same
  have found := lone.isSplit
  rw [same, lone.new] at found
  contradiction

theorem split?_edited : (ledger.withCounterpart owner split).split? edited = some split := by
  rw [split?_withCounterpart lone.other]
  exact lone.isSplit

theorem transaction?_owner : (ledger.withCounterpart owner split).transaction? owner =
    some (transaction.push ledger.nextSplit) := by
  rw [transaction?_withCounterpart, if_pos rfl, lone.isOwner]
  rfl

omit [Scalar α] in
theorem splits_push : (transaction.push ledger.nextSplit).splits = [edited, ledger.nextSplit] := by
  rw [Transaction.push, lone.alone]
  rfl

theorem active_next : (ledger.withCounterpart owner split).Active ledger.nextSplit
    { split.counterpart with parent := some owner } owner (transaction.push ledger.nextSplit) where
  isSplit := split?_next
  parent := rfl
  isOwner := lone.transaction?_owner
  undeferred := lone.undeferred
  ready := (congrArg split.account.any defers_withCounterpart).trans lone.ready

/-- Both splits are in the account of the source. -/
theorem accountOf_withCounterpart : ∃ after : Account, after.currency = holder.currency ∧
    after.security = holder.security ∧ ∀ id (entry : Split α), entry.account = split.account →
      (ledger.withCounterpart owner split).accountOf id entry = .ok (some (account, after)) := by
  have same : ((ledger.withCounterpart owner split).account? account).map Account.bare =
      some holder.bare := by
    rw [account?_withCounterpart, lone.held, Option.map_some]
  obtain ⟨after, found, alike⟩ := Option.map_eq_some_iff.mp same
  refine ⟨after, by simpa [Account.bare] using congrArg Account.currency alike,
    by simpa [Account.bare] using congrArg Account.security alike, ?_⟩
  intro id entry within
  simp only [accountOf, within, lone.within, found]

/-- Both splits are valued in the currency of their account, whichever of them decides. -/
theorem commonCommodity_withCounterpart {trigger : SplitId} {entry : Split α}
    (isTrigger : (ledger.withCounterpart owner split).split? trigger = some entry)
    (within : entry.account = split.account) :
    (ledger.withCounterpart owner split).commonCommodity owner trigger =
      .ok (some holder.currency) := by
  obtain ⟨after, currency, security, isIn⟩ := lone.accountOf_withCounterpart
  have source := split_eq_ok_iff.mpr lone.split?_edited
  have next : (ledger.withCounterpart owner split).split ledger.nextSplit =
      .ok { split.counterpart with parent := some owner } := split_eq_ok_iff.mpr split?_next
  have sourceIn := isIn edited split rfl
  have nextIn := isIn ledger.nextSplit { split.counterpart with parent := some owner } rfl
  have remains : (Candidate.seed after.currency after.security).isExhausted = false := rfl
  simp only [Ledger.commonCommodity, transaction_eq_ok_iff.mpr lone.transaction?_owner,
    split_eq_ok_iff.mpr isTrigger, ok_bind, isIn trigger entry within, next, nextIn, lone.splits_push,
    narrowBy, source, sourceIn, Candidate.narrow_seed, remains, Bool.false_eq_true, if_false]
  exact congrArg (fun currency => Except.ok (some currency)) currency

/-- The source is to take back the value of its counterpart. -/
theorem settlement_next : (ledger.withCounterpart owner split).settlement ledger.nextSplit =
    .ok (.absorb owner edited (some holder.currency)) := by
  have target : (transaction.push ledger.nextSplit).target? ledger.nextSplit = some edited := by
    simp [Transaction.target?, lone.splits_push, lone.other.symm]
  rw [lone.active_next.settlement, if_neg (by simp [lone.splits_push]),
    lone.commonCommodity_withCounterpart split?_next rfl, ok_bind, target]

/-- The source is priced in the currency of its account, so it takes the value at any price but zero. -/
theorem absorption_next : (ledger.withCounterpart owner split).absorption owner edited
      (some holder.currency) =
    if Scalar.isZero split.price then
      if Scalar.isSignificant (0 + split.counterpart.value) then
        .error (.invalid (.cannotAbsorb edited owner (Scalar.text split.price)))
      else .ok none
    else .ok (some (-(0 + split.counterpart.value) / split.price)) := by
  obtain ⟨after, currency, security, isIn⟩ := lone.accountOf_withCounterpart
  have priced (enforced : Bool) : after.valuation enforced (some holder.currency) = .priced :=
    if_pos currency
  have source := split_eq_ok_iff.mpr lone.split?_edited
  have next : (ledger.withCounterpart owner split).split ledger.nextSplit =
      .ok { split.counterpart with parent := some owner } := split_eq_ok_iff.mpr split?_next
  have sourceIn := isIn edited split rfl
  have nextIn := isIn ledger.nextSplit { split.counterpart with parent := some owner } rfl
  have others : [edited, ledger.nextSplit].filter (fun entry => some edited ≠ some entry) =
      [ledger.nextSplit] := by
    simp [lone.other]
  simp only [absorption, transactionValue, transaction_eq_ok_iff.mpr lone.transaction?_owner, ok_bind,
    lone.splits_push, others, addWorths, next, source, valuation, nextIn, sourceIn, priced,
    Valuation.worth?, Valuation.amountFor?, enforces_withCounterpart, lone.enforced]
  have value : ({ split.counterpart with parent := some owner } : Split α).value =
      split.counterpart.value := rfl
  rw [value]
  cases Scalar.isZero split.price
  · simp
  · simp

/-- The pass that follows a counterpart does not fail. -/
theorem absorption_next_ok [ZeroPriced α] : ∃ amount?,
    (ledger.withCounterpart owner split).absorption owner edited (some holder.currency) =
      .ok amount? := by
  rw [lone.absorption_next]
  split
  · rename_i zero
    have insignificant : Scalar.isSignificant (0 + split.counterpart.value) = false :=
      ZeroPriced.insignificant split.amount split.price zero
    exact ⟨none, by simp [insignificant]⟩
  · exact ⟨_, rfl⟩

end Lone

/-- A source that is to get a counterpart stands alone in an account of the book. -/
theorem lone_of_settlement {source : SplitId} (new : ledger.split? ledger.nextSplit = none)
    (decided : ledger.settlement edited = .ok (.pair owner source)) :
    source = edited ∧ ∃ split transaction account holder,
      ledger.Lone edited split owner transaction account holder := by
  obtain ⟨same, split, transaction, base, active, alone, common, enforced, -⟩ :=
    settlement_eq_pair decided
  obtain ⟨account, holder, within, held⟩ := held_of_commonCommodity enforced active.isSplit common
  exact ⟨same, split, transaction, account, holder, ⟨⟨active, alone, enforced, within, held⟩, new⟩⟩

end Ledger

/-- A lone source and its counterpart are settled as `absorption_next` tells, and the counterpart enters
the register unless that fails. -/
theorem Action.ends_addCounterpart_of_lone {α J : Type} [Scalar α] {ledger : Ledger α J}
    {edited : SplitId} {split : Split α} {owner : TransactionId} {transaction : Transaction}
    {account : AccountId} {holder : Account} {property : Except Fault Unit → Ledger α J → Prop}
    (lone : ledger.Lone edited split owner transaction account holder) :
    (addCounterpart owner edited).Ends ledger property ↔
      match (ledger.withCounterpart owner split).absorption owner edited (some holder.currency) with
      | .ok amount? => property (.ok ()) (((ledger.withCounterpart owner split).absorbed edited
          amount?).enrolled ledger.nextSplit (some account))
      | .error fault => property (.error fault) (ledger.withCounterpart owner split) := by
  refine (ends_addCounterpart (Ledger.split_eq_ok_iff.mpr lone.isSplit)).trans (ends_settle.trans ?_)
  cases absorbs : (ledger.withCounterpart owner split).absorption owner edited (some holder.currency) with
  | error _ => simp only [lone.settlement_next, absorbs]
  | ok _ => simp only [lone.settlement_next, absorbs, lone.within]

/-- Rebalancing that fails leaves the ledger as it was: what can fail is decided before anything is
changed, and the pass that follows a counterpart does not fail. -/
theorem Action.ends_rebalanceSplit_refused {α J : Type} [Scalar α] [ZeroPriced α] {ledger : Ledger α J}
    (new : ledger.minted < 2 ^ 128 → ledger.split? ledger.nextSplit = none) (edited : SplitId) :
    (rebalanceSplit edited).Ends ledger fun result after =>
      after.minted ≤ 2 ^ 128 → ∀ fault, result = .error fault → after = ledger := by
  rw [rebalanceSplit, ends_settle]
  rcases decided : ledger.settlement edited with _ | _ | ⟨transaction, target, base⟩ | ⟨owner, source⟩
  · exact fun _ _ _ => rfl
  · intro _ fault failed
    cases failed
  · dsimp only
    cases ledger.absorption transaction target base with
    | error _ => exact fun _ _ _ => rfl
    | ok _ =>
      intro _ fault failed
      cases failed
  · obtain ⟨rfl, split, _, _, active, -⟩ := Ledger.settlement_eq_pair decided
    have minted : (addCounterpart owner source ledger).ledger.minted = ledger.minted + 1 :=
      ends_addCounterpart_minted active.isSplit
    intro fresh fault failed
    have small : ledger.minted < 2 ^ 128 := by omega
    obtain ⟨-, _, _, _, _, lone⟩ := Ledger.lone_of_settlement (new small) decided
    obtain ⟨amount?, absorbs⟩ := lone.absorption_next_ok
    have succeeds : (addCounterpart owner source).Ends ledger fun result _ => result = .ok () := by
      rw [ends_addCounterpart_of_lone lone, absorbs]
    cases succeeds.symm.trans failed

end DoubleEntry
