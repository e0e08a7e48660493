import DoubleEntry.Proofs.Idempotence
import DoubleEntry.Proofs.Recomputed

/-! # What becomes of the numbers that are set

Setting an amount or a price balances the transaction, and the split that takes up the difference is never
the one that was edited, so this keeps its numbers whatever the arithmetic is. A lone source is the
exception. It gets a counterpart, and the pass that follows hands its own value back to it: the amount
times the price, divided by the price. With exact arithmetic that is the amount; with doubles it need not
be, and a value that is lost to underflow takes the whole amount with it.
-/

namespace DoubleEntry

open DoubleEntry.Action

/-- The amount that a source takes back from its counterpart. -/
def Split.handedBack {α : Type} [Scalar α] (split : Split α) : α :=
  -(0 + split.counterpart.value) / split.price

/-- With exact arithmetic, a source takes back what it has. -/
theorem Split.handedBack_eq {split : Split Rat} (priced : Scalar.isZero split.price = false) :
    split.handedBack = split.amount := by
  have price : split.price ≠ 0 := fun zero => by simp [zero, Scalar.isZero] at priced
  have opposite : split.counterpart.value = -(split.amount * split.price) := mul_one _
  rw [handedBack, opposite]
  change -(0 + -(split.amount * split.price)) / split.price = split.amount
  rw [zero_add, neg_neg, mul_div_cancel_right₀ _ price]

/-- The split of which a command sets the amount or the price, as they are given. -/
def Command.sets? {α : Type} : Command α → Option SplitId
  | .setPriceAndAmount split _ _ | .setPrice split _ | .setAmount split _ => some split
  | _ => none

namespace Ledger

variable {α J : Type} {ledger before after : Ledger α J} {edited id : SplitId} {split : Split α}

/-- Amount and price of a split. -/
def numbers? (ledger : Ledger α J) (id : SplitId) : Option (α × α) :=
  (ledger.split? id).map fun split => (split.amount, split.price)

variable [Scalar α]

theorem Alike.symm (alike : before.Alike after) : after.Alike before where
  settings := alike.settings.symm
  transactions := alike.transactions.symm
  splits id := (alike.splits id).symm
  accounts id := (alike.accounts id).symm
  minted := alike.minted.symm

/-- A source that gets a counterpart when it is rebalanced: unpaired, and in an account of the book. -/
def ToPair (ledger : Ledger α J) (edited : SplitId) (split : Split α) : Prop :=
  ∃ owner transaction account, ledger.Unpaired edited split owner transaction account ∧
    (ledger.account? account).isSome

/-- What becomes of the numbers of an edited split: it keeps them unless it gets a counterpart at a price
other than zero. It then keeps its price and takes its amount back. -/
structure Retains (before after : Ledger α J) (edited : SplitId) : Prop where
  returns : ∀ split, before.ToPair edited split → Scalar.isZero split.price = false →
    after.numbers? edited = some (split.handedBack, split.price)
  keeps : (∀ split, before.ToPair edited split → Scalar.isZero split.price = true) →
    after.numbers? edited = before.numbers? edited

theorem numbers?_of_bare
    (same : (after.split? id).map Split.bare = (before.split? id).map Split.bare) :
    after.numbers? id = before.numbers? id :=
  map_of_bare _ (fun _ => rfl) same

theorem ToPair.settlement (pairs : ledger.ToPair edited split) :
    ∃ owner, ledger.settlement edited = .ok (.pair owner edited) := by
  obtain ⟨owner, transaction, account, unpaired, held⟩ := pairs
  obtain ⟨holder, held⟩ := Option.isSome_iff_exists.mp held
  exact ⟨owner, unpaired.settlement held⟩

theorem ToPair.isSplit (pairs : ledger.ToPair edited split) : ledger.split? edited = some split := by
  obtain ⟨_, _, _, unpaired, -⟩ := pairs
  exact unpaired.isSplit

theorem toPair_of_settlement {owner : TransactionId} {source : SplitId}
    (decided : ledger.settlement edited = .ok (.pair owner source)) :
    ∃ split, ledger.ToPair edited split := by
  obtain ⟨-, split, transaction, account, holder, unpaired, held⟩ := unpaired_of_settlement decided
  exact ⟨split, owner, transaction, account, unpaired, Option.isSome_of_eq_some held⟩

theorem ToPair.alike (pairs : before.ToPair edited split) (alike : before.Alike after)
    (same : after.split? edited = before.split? edited) : after.ToPair edited split := by
  obtain ⟨owner, transaction, account, unpaired, held⟩ := pairs
  obtain ⟨⟨isSplit, parent, isOwner, undeferred, ready⟩, alone, enforced, within, matters⟩ := unpaired
  have isOwner : after.transaction? owner = some transaction := by
    rw [transaction?, alike.transactions]
    exact isOwner
  have held : (after.account? account).isSome := by
    have bare := congrArg Option.isSome (alike.accounts account)
    rw [Option.isSome_map, Option.isSome_map] at bare
    exact bare.trans held
  exact ⟨owner, transaction, account, ⟨⟨same.trans isSplit, parent, isOwner, undeferred,
    alike.defers.symm ▸ ready⟩, alone, alike.enforces.trans enforced, within, matters⟩, held⟩

/-- Where nothing is paired, the numbers are kept. -/
theorem Retains.of_kept (unpaired : ∀ owner, ledger.settlement edited ≠ .ok (.pair owner edited))
    (same : after.numbers? edited = ledger.numbers? edited) : ledger.Retains after edited := by
  refine ⟨fun split pairs _ => ?_, fun _ => same⟩
  obtain ⟨owner, decided⟩ := pairs.settlement
  exact absurd decided (unpaired owner)

/-- That an account is noted as changed makes no difference. -/
theorem Retains.of_mark (retains : (ledger.mark id).Retains after edited) :
    ledger.Retains after edited := by
  have alike := ledger.mark_alike id
  refine ⟨fun split pairs => retains.returns split (pairs.alike alike (split?_mark ..)), fun none => ?_⟩
  rw [retains.keeps fun split pairs => none split (pairs.alike alike.symm (split?_mark ..).symm),
    numbers?, split?_mark, numbers?]

omit [Scalar α] in
/-- A number can be set before the account is noted as changed. -/
theorem mark_modifySplit {change : Split α → Split α}
    (stays : ∀ entry, (change entry).account = entry.account) :
    (ledger.mark edited).modifySplit edited change = (ledger.modifySplit edited change).mark edited := by
  have within : (ledger.modifySplit edited change).accountOf? edited = ledger.accountOf? edited := by
    rw [accountOf?, split?_modifySplit, if_pos rfl, accountOf?]
    cases ledger.split? edited with
    | none => rfl
    | some entry => exact stays entry
  rw [mark, mark, within]
  cases ledger.accountOf? edited <;> rfl

end Ledger

namespace Action

open Ledger

variable {α J : Type} [Scalar α] {ledger : Ledger α J} {edited : SplitId}

/-- A lone source and its counterpart. -/
theorem ends_addCounterpart_retains {split : Split α} {owner : TransactionId} {transaction : Transaction}
    {account : AccountId} {holder : Account} (pairs : ledger.ToPair edited split)
    (lone : ledger.Lone edited split owner transaction account holder) :
    (addCounterpart owner edited).Ends ledger fun result after =>
      result = .ok () → ledger.Retains after edited := by
  rw [ends_addCounterpart_of_lone lone]
  cases absorbs : (ledger.withCounterpart owner split).absorption owner edited (some holder.currency) with
  | error _ => rintro ⟨⟩
  | ok amount? =>
    intro _
    change ledger.Retains (ledger.paired owner edited split account amount?) edited
    have only (other) (also : ledger.ToPair edited other) : other = split :=
      Option.some.inj (also.isSplit.symm.trans pairs.isSplit)
    have settled : (ledger.paired owner edited split account amount?).numbers? edited =
        ((ledger.withCounterpart owner split).withAmount edited amount?).numbers? edited :=
      numbers?_of_bare (bare_split?_paired edited)
    rw [lone.absorption_next] at absorbs
    cases zero : Scalar.isZero split.price with
    | true =>
      have keeps : amount? = none := by
        rw [zero, if_pos rfl] at absorbs
        split at absorbs
        · cases absorbs
        · exact (Except.ok.inj absorbs).symm
      refine ⟨fun other also priced => ?_, fun _ => ?_⟩
      · rw [only other also, zero] at priced
        cases priced
      · rw [settled, keeps, withAmount, numbers?, lone.split?_edited, numbers?, lone.isSplit]
    | false =>
      have takes : amount? = some split.handedBack := by
        rw [zero] at absorbs
        exact (Except.ok.inj absorbs).symm
      refine ⟨fun other also _ => ?_, fun none => ?_⟩
      · rw [only other also, settled, takes, numbers?, split?_withAmount lone.split?_edited]
        rfl
      · exact absurd (none split pairs) (by simp [zero])

/-- Rebalancing from a split leaves that its numbers, but for a lone source. -/
theorem ends_rebalanceSplit_retains (owned : ledger.Owned) (edited : SplitId) :
    (rebalanceSplit edited).Ends ledger fun result after =>
      result = .ok () → WhileFresh (ledger.Retains · edited) after := by
  rw [rebalanceSplit, ends_settle]
  rcases decided : ledger.settlement edited with _ | _ | ⟨parent, target, base⟩ | ⟨owner, source⟩
  · rintro ⟨⟩
  · exact fun _ _ => .of_kept (by simp [decided]) rfl
  · dsimp only
    cases ledger.absorption parent target base with
    | error _ => rintro ⟨⟩
    | ok amount? =>
      obtain ⟨split, transaction, active, isTarget, -⟩ := settlement_eq_absorb decided
      have other : edited ≠ target := owned.ne_of_target? active.isOwner isTarget
      have but : ledger.AlikeBut target (ledger.absorbed target amount?) := absorbed_alikeBut
      exact fun _ _ => .of_kept (by simp [decided]) (numbers?_of_bare (but.others edited other))
  · dsimp only
    obtain ⟨rfl, split, _, _, active, -⟩ := settlement_eq_pair decided
    by_cases small : ledger.minted < 2 ^ 128
    · obtain ⟨-, again, transaction, account, holder, lone⟩ := lone_of_settlement (owned.new small) decided
      obtain ⟨pairing, pairs⟩ := toPair_of_settlement decided
      obtain rfl := Option.some.inj (lone.isSplit.symm.trans pairs.isSplit)
      exact (ends_addCounterpart_retains pairs lone).imp fun _ _ retains succeeds _ => retains succeeds
    · -- Without an identifier left, one was given out twice.
      have grows : (addCounterpart owner source).Ends ledger fun _ after =>
          after.minted = ledger.minted + 1 := ends_addCounterpart_minted active.isSplit
      exact grows.imp fun _ _ grown _ fresh => absurd fresh (by omega)

theorem ends_editNumbers_retains [Journal J α] {change : Split α → Split α} (keeps : Split.KeepsLinks change)
    (owned : ledger.Owned) (edited : SplitId) :
    (editNumbers edited change).Ends ledger fun result after =>
      result = .ok () → WhileFresh ((ledger.modifySplit edited change).Retains · edited) after := by
  rw [editNumbers, ensureEditable_eq, ends_bind, ends_ask]
  cases ledger.checkEditable edited with
  | error _ => rintro ⟨⟩
  | ok _ =>
    simp only [ends_bind, ends_update, mark_modifySplit keeps.account]
    have alike := (ledger.modifySplit edited change).mark_alike edited
    have set : (ledger.modifySplit edited change).Owned :=
      owned.linked (ownership_modifySplit keeps.parent) le_rfl
    have start : ((ledger.modifySplit edited change).mark edited).Owned :=
      set.linked alike.ownership alike.minted.ge
    exact (ends_rebalanceSplit_retains start edited).imp fun _ _ retains succeeds fresh =>
      (retains succeeds fresh).of_mark

end Action

section Retaining

open Ledger

variable {α J : Type} [Scalar α] [Journal J α] {ledger : Ledger α J}

/-- What a command that sets a number leaves of the numbers that it has set. -/
theorem Command.ends_retains (owned : ledger.Owned) {command : Command α} {split : SplitId}
    (sets : command.sets? = some split) :
    (command.act (J := J)).Ends ledger fun result after =>
      result = .ok .done → WhileFresh ((command.setNumbers ledger).Retains · split) after := by
  cases command with
  | setPriceAndAmount id _ _ =>
    obtain rfl := Option.some.inj sets
    exact Command.ends_done_of_ok (ends_finite_or (fun _ => nofun) (ends_finite_or (fun _ => nofun)
      (ends_editNumbers_retains (by constructor <;> exact fun _ => rfl) owned id)))
  | setPrice id _ | setAmount id _ =>
    obtain rfl := Option.some.inj sets
    exact Command.ends_done_of_ok (ends_finite_or (fun _ => nofun)
      (ends_editNumbers_retains (by constructor <;> exact fun _ => rfl) owned id))
  | _ => cases sets

omit [Journal J α] in
/-- The numbers are kept exactly where a lone source would take back what it has. -/
theorem Ledger.Retains.eq_iff {before after : Ledger α J} {edited : SplitId}
    (retains : before.Retains after edited) :
    after.numbers? edited = before.numbers? edited ↔ ∀ split, before.ToPair edited split →
      Scalar.isZero split.price = false → split.handedBack = split.amount := by
  constructor
  · intro same split pairs priced
    rw [retains.returns split pairs priced, numbers?, pairs.isSplit] at same
    exact (Prod.mk.inj (Option.some.inj same)).1
  · intro same
    by_cases free : ∀ split, before.ToPair edited split → Scalar.isZero split.price = true
    · exact retains.keeps free
    · simp only [not_forall, Bool.not_eq_true] at free
      obtain ⟨split, pairs, priced⟩ := free
      rw [retains.returns split pairs priced, same split pairs priced, numbers?, pairs.isSplit]
      rfl

/-- Setting an amount, a price or both, in any ledger that can be reached, with success and whatever the
arithmetic is. The split then has the numbers that were set, and the one that it had where only one was set,
unless it is a lone source that gets a counterpart at a price other than zero. Such a source keeps its price,
and its amount is what it takes back from the counterpart: it has the numbers that were set exactly if that
is the amount. -/
theorem Reachable.numbers_retained (reached : Reachable (fun _ => True) ledger) (request : Command α)
    (split : SplitId) (sets : request.sets? = some split)
    (fresh : (request.run ledger).ledger.minted ≤ 2 ^ 128)
    (succeeds : (request.run ledger).result = .ok .done) :
    let set := request.setNumbers ledger
    let after := (request.run ledger).ledger
    set.Retains after split ∧
      (after.numbers? split = set.numbers? split ↔ ∀ entry, set.ToPair split entry →
        Scalar.isZero entry.price = false → entry.handedBack = entry.amount) := by
  have retains : (request.setNumbers ledger).Retains (request.run ledger).ledger split :=
    Command.ends_retains reached.owned sets succeeds fresh
  exact ⟨retains, retains.eq_iff⟩

omit [Scalar α] [Journal J α] in
/-- One of three splits, and a lone source at a price of one. -/
theorem Reachable.numbers_retained_threefold :
    ((Command.setAmount ⟨.ofNat 5⟩ 20).run threefold).ledger.numbers? ⟨.ofNat 5⟩ = some (20, 1) ∧
    ((Command.setAmount ⟨.ofNat 1⟩ 20).run (oneSided (0 : Float) 1 false)).ledger.numbers? ⟨.ofNat 1⟩ =
      some (20, 1) := by
  constructor
  · let request : Command Float := .setAmount ⟨.ofNat 5⟩ 20
    have reached : Reachable (fun _ => True) threefold :=
      ((Reachable.start _ _).after _ (fun _ _ => trivial) (by decide +kernel)).after _ (fun _ _ => trivial)
        (by decide +kernel)
    have retains := Reachable.numbers_retained reached request ⟨.ofNat 5⟩ rfl (by decide +kernel)
      (by decide +kernel)
    have parent : (request.setNumbers threefold).parentOf? ⟨.ofNat 5⟩ = some ⟨.ofNat 2⟩ := by decide +kernel
    have several : (request.setNumbers threefold).splitsOf ⟨.ofNat 2⟩ ≠ [⟨.ofNat 5⟩] := by decide +kernel
    refine (retains.1.keeps fun split ⟨owner, _, _, unpaired, _⟩ => ?_).trans (by decide +kernel)
    have named := (Option.bind_eq_some_iff.mpr ⟨split, unpaired.isSplit, unpaired.parent⟩).symm.trans parent
    obtain rfl := Option.some.inj named
    exact absurd ((splitsOf_eq unpaired.isOwner).trans unpaired.alone) several
  · let request : Command Float := .setAmount ⟨.ofNat 1⟩ 20
    have reached : Reachable (fun _ => True) (oneSided (0 : Float) 1 false) :=
      (Reachable.start _ _).after _ (fun _ _ => trivial) (by decide +kernel)
    have retains := Reachable.numbers_retained reached request ⟨.ofNat 1⟩ rfl (by decide +kernel)
      (by decide +kernel)
    have back : ((request.setNumbers (oneSided 0 1 false)).split? ⟨.ofNat 1⟩).map
        (fun split => (split.handedBack, split.amount)) = some (20, 20) := by decide +kernel
    refine (retains.2.mpr fun split pairs _ => ?_).trans (by decide +kernel)
    rw [pairs.isSplit] at back
    obtain ⟨back, amount⟩ := Prod.mk.inj (Option.some.inj back)
    exact back.trans amount.symm

omit [Scalar α] [Journal J α] in
/-- A lone source of doubles. At a price of three its amount comes back rounded, and at the smallest price
there is, where its value is zero, nothing of it comes back. -/
theorem Reachable.numbers_rounded :
    let thrice : Command Float := .setPriceAndAmount ⟨.ofNat 1⟩ 3 0.1
    let tiny : Command Float := .setPriceAndAmount ⟨.ofNat 1⟩ 5e-324 0.1
    let lone : Ledger Float (MemoryLog Float) := oneSided 0 1 false
    Reachable (fun _ => True) lone ∧
      (thrice.run lone).result = .ok .done ∧
      (thrice.run lone).ledger.numbers? ⟨.ofNat 1⟩ = some (0.10000000000000002, 3) ∧
      (0.10000000000000002 : Float) ≠ 0.1 ∧
      (tiny.run lone).result = .ok .done ∧
      (tiny.run lone).ledger.numbers? ⟨.ofNat 1⟩ = some (-0.0, 5e-324) := by
  intro thrice tiny lone
  refine ⟨(Reachable.start _ _).after _ (fun _ _ => trivial) (by decide +kernel), ?_, ?_, ?_, ?_, ?_⟩ <;>
    decide +kernel

/-- With exact arithmetic, every split has the numbers that were set. -/
theorem Reachable.numbers_exact {J : Type} [Journal J Rat] {ledger : Ledger Rat J}
    (reached : Reachable (fun _ => True) ledger) (request : Command Rat) (split : SplitId)
    (sets : request.sets? = some split) (fresh : (request.run ledger).ledger.minted ≤ 2 ^ 128)
    (succeeds : (request.run ledger).result = .ok .done) :
    (request.run ledger).ledger.numbers? split = (request.setNumbers ledger).numbers? split := by
  have retains : (request.setNumbers ledger).Retains (request.run ledger).ledger split :=
    Command.ends_retains reached.owned sets succeeds fresh
  exact retains.eq_iff.mpr fun _ _ priced => Split.handedBack_eq priced

end Retaining

end DoubleEntry
