import DoubleEntry.Proofs.Counterpart
import DoubleEntry.Proofs.Moving
import DoubleEntry.Proofs.Preserving

/-! # Which split is in which register

As long as the owner of the book of accounts leaves the registers to the ledger, each split that names an
account is in the register of that account, once, and each register lists only splits that name its
account. A counterpart names its account before it is settled and enters the register after, so it
matters that this last pass does not fail: at a price of zero there is nothing to balance.
-/

namespace DoubleEntry

open DoubleEntry.Action Links

namespace Ledger

variable {α J : Type} {before after : Ledger α J} {split : SplitId}

/-- Splits and accounts agree, and all of them are numbered. -/
structure Booked (ledger : Ledger α J) : Prop where
  agree : ledger.membership.Agree
  below : ledger.membership.Below ledger.minted

theorem Booked.linked (booked : before.Booked) (same : after.membership = before.membership)
    (grows : before.minted ≤ after.minted) : after.Booked :=
  ⟨same ▸ booked.agree, same ▸ booked.below.mono grows⟩

theorem Booked.move {name : Option (Option AccountId)} (booked : before.Booked)
    (moved : after.membership = before.membership.move split name)
    (grows : before.minted ≤ after.minted)
    (ends : ∀ account, name = some (some account) → (before.membership.listed account).isSome)
    (numbered : name.isSome → split.ident.toNat < after.minted) : after.Booked where
  agree := moved ▸ booked.agree.move ends
  below := moved ▸ (booked.below.mono grows).move numbered

theorem register_eq {account : AccountId} {holder : Account}
    (held : before.account? account = some holder) :
    before.membership.listed account = some (holder.register : Multiset SplitId) := by
  simp [membership, held]

theorem Booked.nodup (booked : before.Booked) {account : AccountId} {holder : Account}
    (held : before.account? account = some holder) : holder.register.Nodup :=
  Multiset.coe_nodup.mp (booked.agree.nodup (register_eq held))

theorem Booked.mem_iff (booked : before.Booked) {account : AccountId} {holder : Account}
    (held : before.account? account = some holder) :
    split ∈ holder.register ↔ before.membership.named split = some (some account) :=
  Multiset.mem_coe.symm.trans (booked.agree.mem_iff (register_eq held) split)

theorem Booked.known (booked : before.Booked) {account : AccountId}
    (named : before.membership.named split = some (some account)) :
    ∃ holder, before.account? account = some holder := by
  have listed := booked.agree.known named
  simpa [membership, Option.isSome_iff_exists] using listed

theorem within_eq_iff {account : Option AccountId} : before.membership.named split = some account ↔
    ∃ entry, before.split? split = some entry ∧ entry.account = account := Option.map_eq_some_iff

theorem Booked.numbered (booked : before.Booked) (live : (before.split? split).isSome) :
    split.ident.toNat < before.minted := booked.below.named (by simpa [membership] using live)

/-- A new split comes into the ledger, and into an account that is there or into none. -/
theorem Booked.arrives {name : Option (Option AccountId)} (booked : before.Booked)
    (small : before.minted < 2 ^ 128) (grows : before.minted < after.minted)
    (moved : after.membership = before.membership.move before.nextSplit name)
    (ends : ∀ account, name = some (some account) → (before.membership.listed account).isSome) :
    after.Booked := by
  refine booked.move moved grows.le ends fun _ => ?_
  rw [nextSplit, toNat_ofNat small]
  exact grows

/-- A new split comes into the ledger, and into no account. -/
theorem Booked.created (booked : before.Booked) (small : before.minted < 2 ^ 128)
    (grows : before.minted < after.minted)
    (comes : after.membership = ⟨Function.update before.membership.named before.nextSplit (some none),
      before.membership.listed⟩) : after.Booked := by
  have new : before.membership.named before.nextSplit = none := booked.below.named_next small
  have moved : after.membership = before.membership.move before.nextSplit (some none) := by
    rw [comes, booked.agree.move_of_unheld (by simp [new]) (by simp)]
  exact booked.arrives small grows moved (by simp)

theorem membership_openAccount (ledger : Ledger α J) (name : String) (currency : Commodity)
    (security : Option Commodity) :
    (ledger.openAccount name currency security).2.membership =
      ledger.membership.addHolder ⟨Ident.ofNat ledger.minted⟩ := by
  unfold membership Links.addHolder
  congr 1
  funext other
  simp only [openAccount, account?, Table.get?_insert, Function.update_apply]
  split <;> rfl

theorem Booked.new (booked : before.Booked) (small : before.minted < 2 ^ 128) :
    before.split? before.nextSplit = none := by
  have named : before.membership.named before.nextSplit = none := booked.below.named_next small
  simpa [membership] using named

end Ledger

open Ledger

namespace Membership

variable {α J : Type} [Scalar α] {ledger : Ledger α J}

omit [Scalar α] in
private theorem booked_linked (before after : Ledger α J)
    (same : after.membership = before.membership) (grows : before.minted ≤ after.minted)
    (booked : WhileFresh Booked before) : WhileFresh Booked after :=
  fun fresh => (booked (grows.trans fresh)).linked same grows

omit [Scalar α] in
private theorem ofLinks : OfLinks (WhileFresh (Booked (α := α) (J := J))) where
  linked before after _ same grows := booked_linked before after same grows
  reentered ledger _ _ within booked fresh := by
    have sound := booked fresh
    exact sound.linked (membership_reenter sound.agree (account_eq_iff.mpr within)) le_rfl

private theorem keeps_createSplit : Keeps (WhileFresh Booked) (createSplit (α := α) (J := J)) := by
  intro ledger booked fresh
  change ledger.minted + 1 ≤ 2 ^ 128 at fresh
  exact (booked (by omega)).created fresh (Nat.lt_succ_self _) (membership_insertSplit _ _)

private theorem keeps_createTransaction :
    Keeps (WhileFresh Booked) (createTransaction (α := α) (J := J)) := by
  intro ledger booked fresh
  change ledger.minted + 2 ≤ 2 ^ 128 at fresh
  exact (booked (by omega)).created (by omega) (show ledger.minted < ledger.minted + 2 by omega)
    (membership_insertSplit _ (ledger.minted + 2))

private theorem booked_eraseSplit (split : SplitId) (booked : WhileFresh Booked ledger) :
    WhileFresh Booked (ledger.eraseSplit split) := by
  intro fresh
  have minted : (ledger.eraseSplit split).minted = ledger.minted := minted_eraseSplit
  have sound := booked (minted ▸ fresh)
  exact sound.move (membership_eraseSplit sound.agree) minted.ge (by simp) (by simp)

private theorem keeps_discardSplit (split : SplitId) :
    Keeps (WhileFresh Booked) (discardSplit (α := α) (J := J) split) := by
  refine keeps_ask.bind fun entry => ?_
  cases entry.parent with
  | some _ => exact keeps_raise
  | none => exact keeps_update fun _ => booked_eraseSplit split

private theorem keeps_leaveAccount (split : SplitId) :
    Keeps (WhileFresh Booked) (leaveAccount (α := α) (J := J) split) := by
  intro ledger booked
  simp only [Action.leaveAccount, ensureEditable_eq, ends_bind, ends_ask]
  cases editable : ledger.checkEditable split with
  | error _ => exact booked
  | ok _ =>
    obtain ⟨entry, isSplit, -⟩ := bind_eq_ok_iff.mp editable
    have live : (ledger.split? split).isSome := by simp [split_eq_ok_iff.mp isSplit]
    intro fresh
    have minted : (ledger.leaveAccount split).minted = ledger.minted := minted_leaveAccount
    have sound := booked (minted ▸ fresh)
    refine sound.move (membership_vacate sound.agree live) minted.ge (by simp) fun _ => ?_
    exact (sound.numbered live).trans_eq minted.symm

private theorem keeps_enterAccount (account : AccountId) (split : SplitId) :
    Keeps (WhileFresh Booked) (enterAccount (α := α) (J := J) account split) := by
  intro ledger booked
  simp only [enterAccount, ensureEditable_eq, ends_bind, ends_ask]
  cases isAccount : ledger.account account with
  | error _ => exact booked
  | ok holder =>
    dsimp only
    cases editable : ledger.checkEditable split with
    | error _ => exact booked
    | ok _ =>
      obtain ⟨entry, isSplit, -⟩ := bind_eq_ok_iff.mp editable
      have live : (ledger.split? split).isSome := by simp [split_eq_ok_iff.mp isSplit]
      simp only [ends_enterRegister, ends_update]
      refine ofLinks.alike (recompute_alike _ account) fun fresh => ?_
      have minted : (ledger.leaveAccount split).minted = ledger.minted := minted_leaveAccount
      have sound := booked (minted ▸ fresh)
      refine sound.move (membership_enterAccount sound.agree live) minted.ge (fun other ends => ?_)
        fun _ => (sound.numbered live).trans_eq minted.symm
      cases ends
      simp [register_eq (account_eq_ok_iff.mp isAccount)]

/-- A counterpart that came in is in its register at the end. -/
private theorem booked_pair [ZeroPriced α] {edited : SplitId} {split : Split α} {owner : TransactionId}
    {transaction : Transaction} {account : AccountId} {holder : Account} (booked : ledger.Booked)
    (small : ledger.minted < 2 ^ 128)
    (lone : ledger.Lone edited split owner transaction account holder) :
    (addCounterpart owner edited).Ends ledger fun _ after => after.Booked := by
  obtain ⟨amount?, absorbs⟩ := lone.absorption_next_ok
  rw [ends_addCounterpart_of_lone lone, absorbs]
  dsimp only
  have new : ledger.membership.named ledger.nextSplit = none := booked.below.named_next small
  have listed : (ledger.membership.listed account).isSome := by simp [register_eq lone.held]
  generalize absorbed : (ledger.withCounterpart owner split).absorbed edited amount? = after
  have same : (ledger.withCounterpart owner split).SameLinks after := absorbed ▸ absorbed_sameLinks
  have named : after.membership =
      ⟨Function.update ledger.membership.named ledger.nextSplit (some (some account)),
        ledger.membership.listed⟩ := by
    rw [same.membership, membership_withCounterpart, lone.within]
  have minted : (after.enrolled ledger.nextSplit (some account)).minted = ledger.minted + 1 :=
    enrolled_minted.trans (same.minted.trans minted_withCounterpart)
  refine booked.arrives small (by omega) (enrolled_membership booked.agree new named) fun other ends => ?_
  cases ends
  exact listed

private theorem keeps_rebalanceSplit [ZeroPriced α] (edited : SplitId) :
    Keeps (WhileFresh Booked) (rebalanceSplit (α := α) (J := J) edited) := by
  intro ledger booked
  rw [rebalanceSplit, ends_settle]
  rcases decided : ledger.settlement edited with _ | _ | ⟨transaction, target, base⟩ | ⟨owner, source⟩
  · exact booked
  · exact booked
  · dsimp only
    cases ledger.absorption transaction target base with
    | error _ => exact booked
    | ok _ =>
      exact booked_linked ledger _ absorbed_sameLinks.membership absorbed_sameLinks.minted.ge booked
  · dsimp only
    obtain ⟨rfl, split, transaction, base, active, -⟩ := settlement_eq_pair decided
    have minted : (addCounterpart owner source ledger).ledger.minted = ledger.minted + 1 :=
      ends_addCounterpart_minted active.isSplit
    intro fresh
    have small : ledger.minted < 2 ^ 128 := by omega
    have sound := booked small.le
    obtain ⟨-, split, transaction, account, holder, lone⟩ :=
      lone_of_settlement (sound.new small) decided
    exact booked_pair sound small lone

/-! Which transaction a split is in makes no difference to its account. -/

omit [Scalar α] in
private theorem booked_modifyTransaction (id : TransactionId) (change : Transaction → Transaction)
    (ledger : Ledger α J) : WhileFresh Booked ledger →
      WhileFresh Booked (ledger.modifyTransaction id change) :=
  booked_linked ledger _ rfl le_rfl

omit [Scalar α] in
private theorem booked_setParent (split : SplitId) (parent : Option TransactionId)
    (ledger : Ledger α J) : WhileFresh Booked ledger →
      WhileFresh Booked (ledger.modifySplit split fun s => { s with parent }) :=
  booked_linked ledger _ (membership_modifySplit fun _ => rfl) le_rfl

private theorem keeps_adopt [ZeroPriced α] (owner : TransactionId) (split : SplitId) :
    Keeps (WhileFresh Booked) (adopt (α := α) (J := J) rebalanceSplit owner split) := by
  refine keeps_adopt_of (fun ledger booked => ?_) keeps_rebalanceSplit
  exact ofLinks.alike (mark_alike _ split)
    (booked_modifyTransaction owner _ _ (booked_setParent split _ ledger booked))

private theorem keeps_release [ZeroPriced α] (owner : TransactionId) (split : SplitId) :
    Keeps (WhileFresh Booked) (release (α := α) (J := J) owner split) := by
  refine keeps_release_of (fun ledger booked => ?_) (fun ledger place booked => ?_) keeps_rebalanceSplit
  · exact booked_setParent split _ _ (booked_modifyTransaction owner _ ledger booked)
  · cases place with
    | none => exact booked
    | some index => exact booked_setParent split _ _ (booked_modifyTransaction owner _ ledger booked)

private theorem keeps_appendSplit [ZeroPriced α] (owner : TransactionId) (split : SplitId) :
    Keeps (WhileFresh Booked) (appendSplit (α := α) (J := J) owner split) :=
  keeps_appendSplit_of (booked_modifyTransaction owner _) (fun former => keeps_release former split)
    (keeps_adopt owner split)

private theorem keeps_removeSplit (owner : TransactionId) (split : SplitId) :
    Keeps (WhileFresh Booked) (removeSplit (α := α) (J := J) owner split) :=
  (keeps_ensureOpen owner).bind fun _ => keeps_ask.bind fun _ => keeps_raise.ite <| keeps_raise.ite <|
    (keeps_update (booked_modifyTransaction owner _)).bind fun _ =>
      (keeps_update (booked_setParent split none)).bind fun _ => ofLinks.mark split

private theorem keeps_discardTransaction [Journal J α] (owner : TransactionId) :
    Keeps (WhileFresh Booked) (discardTransaction (α := α) (J := J) owner) := by
  refine (ofLinks.writeRecord .destroyed owner).bind fun _ => keeps_ask.bind fun transaction =>
    (keeps_update fun ledger booked => ?_).bind fun _ =>
      keeps_update fun ledger => booked_linked ledger _ rfl le_rfl
  induction transaction.splits generalizing ledger with
  | nil => exact booked
  | cons split rest ih =>
    exact ih _ (booked_eraseSplit split (ofLinks.alike (mark_alike ledger split) booked))

private theorem keeps_destroySplit [ZeroPriced α] [Journal J α] (split : SplitId) :
    Keeps (WhileFresh Booked) (destroySplit (α := α) (J := J) split) := by
  refine keeps_ask.bind fun entry => ?_
  cases entry.parent with
  | none => exact keeps_report.bind fun _ => keeps_fail
  | some owner =>
    exact (keeps_ensureOpen owner).bind fun _ => keeps_ask.bind fun _ => keeps_raise.ite <|
      (keeps_discardTransaction owner).ite <| (ofLinks.mark split).bind fun _ =>
        (keeps_update (booked_modifyTransaction owner _)).bind fun _ =>
          (keeps_update fun _ => booked_eraseSplit split).bind fun _ =>
            keeps_rebalanceTransaction keeps_rebalanceSplit owner

theorem keeps_commands [ZeroPriced α] [Journal J α] :
    Preserved (WhileFresh (Booked (α := α) (J := J))) where
  toOfLinks := ofLinks
  createSplit := keeps_createSplit
  createTransaction := keeps_createTransaction
  discardSplit := keeps_discardSplit
  appendSplit := keeps_appendSplit
  removeSplit := keeps_removeSplit
  enterAccount := keeps_enterAccount
  leaveAccount := keeps_leaveAccount
  rebalanceSplit := keeps_rebalanceSplit
  discardTransaction := keeps_discardTransaction
  destroySplit := keeps_destroySplit

end Membership

theorem Ledger.booked_start {α J : Type} (settings : Settings) (journal : J) :
    Booked (Ledger.start (α := α) settings journal) where
  agree := ⟨nofun, nofun, nofun⟩
  below := ⟨nofun, nofun⟩

section Runs

variable {α J : Type} [Scalar α] [ZeroPriced α] [Journal J α] {ledger : Ledger α J}

theorem Deed.keeps_booked (deed : Deed α J) (leaves : deed.LeavesRegisters) (ledger : Ledger α J)
    (booked : WhileFresh Booked ledger) : WhileFresh Booked (deed.apply ledger) := by
  cases deed with
  | command request => exact Membership.keeps_commands.act request ledger booked
  | openAccount name currency security =>
    intro fresh
    change ledger.minted + 1 ≤ 2 ^ 128 at fresh
    have sound := booked (by omega)
    have opened : (Deed.apply (.openAccount name currency security) ledger).membership =
        ledger.membership.addHolder ⟨Ident.ofNat ledger.minted⟩ := membership_openAccount ..
    refine ⟨opened ▸ sound.agree.addHolder (sound.below.listed_next fresh),
      opened ▸ (sound.below.mono (Nat.le_succ _)).addHolder ?_⟩
    rw [toNat_ofNat fresh]
    exact Nat.lt_succ_self _
  | setDefers _ _ | clearChanged _ | markChanged _ =>
    exact fun fresh => (booked fresh).linked (membership_flag fun _ => rfl) le_rfl
  | setClock _ | setJournal _ => exact fun fresh => (booked fresh).linked rfl le_rfl
  | setAccounts _ => exact leaves.elim

theorem Reachable.booked (reached : Reachable Deed.LeavesRegisters ledger) : ledger.Booked :=
  reached.induct (fun settings journal _ => booked_start settings journal) Deed.keeps_booked
    reached.minted_le

end Runs

/-- Whatever was asked of a ledger that calculates with doubles, and whether or not it failed: each
register lists the splits that name its account, each once, and each split that names an account is in
the register of that account, which exists, and in no other. -/
theorem Reachable.membership_sound {J : Type} [Journal J Float] {ledger : Ledger Float J}
    (reached : Reachable Deed.LeavesRegisters ledger) :
    (∀ account holder, ledger.account? account = some holder →
      holder.register.Nodup ∧ ∀ split, split ∈ holder.register ↔
        ∃ entry, ledger.split? split = some entry ∧ entry.account = some account) ∧
    (∀ split entry account, ledger.split? split = some entry → entry.account = some account →
      ∃ holder, ledger.account? account = some holder ∧ split ∈ holder.register ∧
        ∀ other another, ledger.account? other = some another → split ∈ another.register →
          other = account) := by
  have booked := reached.booked
  constructor
  · intro account holder held
    exact ⟨booked.nodup held, fun split => (booked.mem_iff held).trans within_eq_iff⟩
  · intro split entry account isSplit within
    have named := within_eq_iff.mpr ⟨entry, isSplit, within⟩
    obtain ⟨holder, held⟩ := booked.known named
    refine ⟨holder, held, (booked.mem_iff held).mpr named, fun other another listed inside => ?_⟩
    have again := (booked.mem_iff listed).mp inside
    exact Option.some.inj (Option.some.inj (again.symm.trans named))

/-- The split of a one-sided transaction is in the register of its account alone. -/
theorem Reachable.membership_sound_oneSided :
    ∃ holder, (oneSided (5 : Float) 1 false).account? ⟨.ofNat 0⟩ = some holder ∧
      ⟨.ofNat 1⟩ ∈ holder.register ∧ ∀ other another,
        (oneSided (5 : Float) 1 false).account? other = some another →
          ⟨.ofNat 1⟩ ∈ another.register → other = ⟨.ofNat 0⟩ := by
  have leaves : ∀ deed ∈ Deed.oneSided (5 : Float) 1 false, deed.LeavesRegisters := by
    simp [Deed.oneSided, Deed.LeavesRegisters]
  have reached : Reachable Deed.LeavesRegisters (oneSided (5 : Float) 1 false) :=
    (Reachable.start _ _).after _ leaves (by decide +kernel)
  have within : ((oneSided (5 : Float) 1 false).split? ⟨.ofNat 1⟩).map (·.account) =
      some (some ⟨.ofNat 0⟩) := by decide +kernel
  obtain ⟨entry, isSplit, within⟩ := Option.map_eq_some_iff.mp within
  exact (Reachable.membership_sound reached).2 _ entry _ isSplit within

end DoubleEntry
