import DoubleEntry.Proofs.Moving
import DoubleEntry.Proofs.Pairing
import DoubleEntry.Proofs.Preserving

/-! # Who owns which split

In every ledger that can be reached, each split that names a transaction is in the list of that
transaction, once, and each transaction lists only splits that name it, and at least one. The two
directions part company only within a command: a split that moves has left the one list before it is in
the other, and a move whose rebalancing fails is taken back.
-/

namespace DoubleEntry

open DoubleEntry.Action Links

namespace Ledger

variable {α J : Type} {before after : Ledger α J} {split : SplitId}

/-- Splits and transactions agree, no transaction is empty, and all of them are numbered. -/
structure Owned (ledger : Ledger α J) : Prop where
  agree : ledger.ownership.Agree
  occupied : ledger.ownership.Occupied
  below : ledger.ownership.Below ledger.minted

theorem Owned.linked (owned : before.Owned) (same : after.ownership = before.ownership)
    (grows : before.minted ≤ after.minted) : after.Owned :=
  ⟨same ▸ owned.agree, same ▸ owned.occupied, same ▸ owned.below.mono grows⟩

theorem Owned.move {name : Option (Option TransactionId)} (owned : before.Owned)
    (moved : after.ownership = before.ownership.move split name)
    (grows : before.minted ≤ after.minted)
    (ends : ∀ owner, name = some (some owner) → (before.ownership.listed owner).isSome)
    (numbered : name.isSome → split.ident.toNat < after.minted)
    (company : ∀ {owner members}, before.ownership.named split = some (some owner) →
      name ≠ some (some owner) → before.ownership.listed owner = some members →
      ∃ other ∈ members, other ≠ split) : after.Owned where
  agree := moved ▸ owned.agree.move ends
  occupied := moved ▸ owned.occupied.move owned.agree company
  below := moved ▸ (owned.below.mono grows).move numbered

theorem parent_eq_iff {parent : Option TransactionId} : before.ownership.named split = some parent ↔
    ∃ entry, before.split? split = some entry ∧ entry.parent = parent := Option.map_eq_some_iff

theorem Owned.numbered (owned : before.Owned) (live : (before.ownership.named split).isSome) :
    split.ident.toNat < before.minted := owned.below.named live

section Lists

variable {owner : TransactionId} {transaction : Transaction}

theorem listed_eq (found : before.transaction? owner = some transaction) :
    before.ownership.listed owner = some (transaction.splits : Multiset SplitId) := by
  simp [ownership, found]

theorem Owned.nodup (owned : before.Owned) (found : before.transaction? owner = some transaction) :
    transaction.splits.Nodup := Multiset.coe_nodup.mp (owned.agree.nodup (listed_eq found))

theorem Owned.nonempty (owned : before.Owned) (found : before.transaction? owner = some transaction) :
    transaction.splits ≠ [] := fun empty => owned.occupied (listed_eq found) (by simp [empty])

theorem Owned.mem_iff (owned : before.Owned) (found : before.transaction? owner = some transaction) :
    split ∈ transaction.splits ↔ before.ownership.named split = some (some owner) :=
  Multiset.mem_coe.symm.trans (owned.agree.mem_iff (listed_eq found) split)

theorem Owned.known (owned : before.Owned)
    (named : before.ownership.named split = some (some owner)) :
    ∃ transaction, before.transaction? owner = some transaction := by
  have listed := owned.agree.known named
  simpa [ownership, Option.isSome_iff_exists] using listed

/-- A transaction of more than one split has another one than the given. -/
theorem Owned.company (owned : before.Owned) (found : before.transaction? owner = some transaction)
    (more : 1 < transaction.splits.length) {members : Multiset SplitId}
    (listed : before.ownership.listed owner = some members) : ∃ other ∈ members, other ≠ split := by
  have distinct := owned.nodup found
  obtain rfl : (transaction.splits : Multiset SplitId) = members :=
    Option.some.inj ((listed_eq found).symm.trans listed)
  rcases shape : transaction.splits with _ | ⟨first, _ | ⟨second, rest⟩⟩
  · simp [shape] at more
  · simp [shape] at more
  · have different : first ≠ second := by
      rw [shape] at distinct
      exact fun same => (List.nodup_cons.mp distinct).1 (same ▸ List.mem_cons_self)
    by_cases same : first = split
    · exact ⟨second, by simp, fun again => different (same.trans again.symm)⟩
    · exact ⟨first, by simp, same⟩

end Lists

/-- A new split comes into the ledger, and into a transaction that is there or into none. -/
theorem Owned.arrives {name : Option (Option TransactionId)} (owned : before.Owned)
    (small : before.minted < 2 ^ 128) (grows : before.minted < after.minted)
    (moved : after.ownership = before.ownership.move before.nextSplit name)
    (ends : ∀ owner, name = some (some owner) → (before.ownership.listed owner).isSome) :
    after.Owned := by
  have new := owned.below.named_next small
  refine owned.move moved grows.le ends (fun _ => ?_) fun named => ?_
  · rw [nextSplit, toNat_ofNat small]
    exact grows
  · simp [nextSplit, new] at named

theorem Owned.new (owned : before.Owned) (small : before.minted < 2 ^ 128) :
    before.split? before.nextSplit = none := by
  have named : before.ownership.named before.nextSplit = none := owned.below.named_next small
  simpa [ownership] using named

/-- At most one split came in, and it went to a transaction that was there. -/
def Grown (before after : Ledger α J) : Prop :=
  after.ownership = before.ownership ∧ after.minted = before.minted ∨
  ∃ owner, (before.ownership.listed owner).isSome ∧ after.minted = before.minted + 1 ∧
    after.ownership = before.ownership.move before.nextSplit (some (some owner))

theorem Owned.grown (owned : before.Owned) (grown : before.Grown after)
    (fresh : after.minted ≤ 2 ^ 128) : after.Owned := by
  rcases grown with ⟨same, minted⟩ | ⟨owner, listed, minted, moved⟩
  · exact owned.linked same minted.ge
  · refine owned.arrives (by omega) (by omega) moved fun other ends => ?_
    cases ends
    exact listed

/-- The splits that were there name the transactions that they named. -/
theorem Grown.named (grown : before.Grown after) (owned : before.Owned)
    (fresh : after.minted ≤ 2 ^ 128) {name : Option TransactionId}
    (live : before.ownership.named split = some name) : after.ownership.named split = some name := by
  rcases grown with ⟨same, _⟩ | ⟨owner, _, minted, moved⟩
  · rw [same, live]
  · have new := owned.below.named_next (show before.minted < 2 ^ 128 by omega)
    have different : split ≠ before.nextSplit := fun same => by simp [same, nextSplit, new] at live
    rw [moved]
    exact (Function.update_of_ne different _ _).trans live

theorem Grown.listed (grown : before.Grown after) {owner : TransactionId}
    (live : (before.ownership.listed owner).isSome) : (after.ownership.listed owner).isSome := by
  rcases grown with ⟨same, _⟩ | ⟨_, _, _, moved⟩
  · rwa [same]
  · rw [moved]
    simpa [Links.move] using live

end Ledger

open Ledger

variable {α J : Type} [Scalar α] {ledger : Ledger α J}

/-- Rebalancing, whether or not it fails, adds at most the counterpart of a lone source. -/
theorem Action.ends_rebalanceSplit_grown (owned : WhileFresh Owned ledger) (edited : SplitId) :
    (rebalanceSplit edited).Ends ledger fun _ after => after.minted ≤ 2 ^ 128 → ledger.Grown after := by
  rw [rebalanceSplit, ends_settle]
  rcases decided : ledger.settlement edited with _ | _ | ⟨transaction, target, base⟩ | ⟨owner, source⟩
  · exact fun _ => .inl ⟨rfl, rfl⟩
  · exact fun _ => .inl ⟨rfl, rfl⟩
  · dsimp only
    cases ledger.absorption transaction target base with
    | error _ => exact fun _ => .inl ⟨rfl, rfl⟩
    | ok _ => exact fun _ => .inl ⟨absorbed_sameLinks.ownership, absorbed_sameLinks.minted⟩
  · obtain ⟨rfl, split, transaction, base, active, -⟩ := settlement_eq_pair decided
    dsimp only
    rw [ends_addCounterpart (split_eq_ok_iff.mpr active.isSplit)]
    refine (ends_settle_sameLinks _).imp fun result after same => ?_
    have listed : (ledger.ownership.listed owner).isSome := by
      simp [ownership, active.isOwner]
    have minted : after.minted = ledger.minted + 1 := same.minted.trans minted_withCounterpart
    have moved (small : ledger.minted < 2 ^ 128) : after.ownership =
        ledger.ownership.move ledger.nextSplit (some (some owner)) :=
      same.ownership.trans (ownership_withCounterpart (owned small.le).agree
        ((owned small.le).below.named_next small))
    cases result with
    | error _ => exact fun fresh => .inr ⟨owner, listed, minted, moved (by omega)⟩
    | ok _ =>
      dsimp only
      rw [enrolled_minted]
      exact fun fresh => .inr ⟨owner, listed, enrolled_minted.trans minted,
        enrolled_ownership.trans (moved (by omega))⟩

/-! ## What keeps ownership sound -/

namespace Ownership

omit [Scalar α] in
private theorem owned_linked (before after : Ledger α J) (same : after.ownership = before.ownership)
    (grows : before.minted ≤ after.minted) (owned : WhileFresh Owned before) :
    WhileFresh Owned after := fun fresh => (owned (grows.trans fresh)).linked same grows

omit [Scalar α] in
theorem ofLinks : OfLinks (WhileFresh (Owned (α := α) (J := J))) where
  linked before after same _ grows := owned_linked before after same grows
  reentered ledger _ _ _ := owned_linked ledger _ rfl le_rfl

theorem keeps_rebalanceSplit (edited : SplitId) :
    Keeps (WhileFresh Owned) (rebalanceSplit (α := α) (J := J) edited) := fun ledger owned =>
  (ends_rebalanceSplit_grown owned edited).imp fun _ after grown fresh => by
    have grows : ledger.minted ≤ after.minted := by
      rcases grown fresh with ⟨_, minted⟩ | ⟨_, _, minted, _⟩ <;> omega
    exact (owned (grows.trans fresh)).grown (grown fresh) fresh

private theorem keeps_createSplit : Keeps (WhileFresh Owned) (createSplit (α := α) (J := J)) := by
  intro ledger owned fresh
  change ledger.minted + 1 ≤ 2 ^ 128 at fresh
  have sound := owned (by omega)
  have new := sound.below.named_next fresh
  have moved : (createSplit ledger).ledger.ownership =
      ledger.ownership.move ledger.nextSplit (some none) := by
    rw [sound.agree.move_of_unheld (by simp [nextSplit, new]) (by simp)]
    exact ownership_insertSplit _ _
  exact sound.arrives fresh (Nat.lt_succ_self _) moved (by simp)

private theorem keeps_discardSplit (split : SplitId) :
    Keeps (WhileFresh Owned) (discardSplit (α := α) (J := J) split) := by
  intro ledger owned
  rw [discardSplit, ends_bind, ends_ask]
  cases found : ledger.split split with
  | error _ => exact owned
  | ok entry =>
    dsimp only
    cases parent : entry.parent with
    | some _ => exact owned
    | none =>
      intro fresh
      have minted : (ledger.eraseSplit split).minted = ledger.minted := minted_eraseSplit
      have sound := owned (minted ▸ fresh)
      have unheld : ledger.ownership.named split = some none :=
        parent_eq_iff.mpr ⟨entry, split_eq_ok_iff.mp found, parent⟩
      have moved : (ledger.eraseSplit split).ownership = ledger.ownership.move split none := by
        rw [sound.agree.move_of_unheld (by simp [unheld]) (by simp)]
        exact ownership_eraseSplit
      exact sound.move moved minted.ge (by simp) (by simp) (by simp [unheld])

/-- A new transaction comes with a new split. -/
private theorem keeps_createTransaction :
    Keeps (WhileFresh Owned) (createTransaction (α := α) (J := J)) := by
  intro ledger owned fresh
  change ledger.minted + 2 ≤ 2 ^ 128 at fresh
  have sound := owned (by omega)
  let owner : TransactionId := ⟨Ident.ofNat (ledger.minted + 1)⟩
  have new : ledger.ownership.named ledger.nextSplit = none := sound.below.named_next (by omega)
  have unlisted : ledger.ownership.listed owner = none :=
    (sound.below.mono (Nat.le_succ _)).listed_next (by omega)
  have comes : (createTransaction ledger).ledger.ownership =
      (ledger.ownership.addHolder owner).move ledger.nextSplit (some (some owner)) := by
    rw [sound.agree.addHolder_move new unlisted]
    exact ownership_insertTransaction rfl _ _
  refine ⟨comes ▸ (sound.agree.addHolder unlisted).move fun other ends => ?_,
    comes ▸ sound.occupied.addHolder_move sound.agree new unlisted,
    comes ▸ ((sound.below.mono (Nat.le_add_right _ 2)).addHolder ?_).move fun _ => ?_⟩
  · cases ends
    simp [Links.addHolder]
  · rw [toNat_ofNat (by omega)]
    omega
  · rw [nextSplit, toNat_ofNat (by omega)]
    omega

omit [Scalar α] in
/-- A split leaves a transaction in which it is not alone. -/
theorem owned_parted {owner : TransactionId} {transaction : Transaction} {split : SplitId}
    (sound : ledger.Owned) (named : ledger.ownership.named split = some (some owner))
    (found : ledger.transaction? owner = some transaction) (more : 1 < transaction.splits.length) :
    (ledger.parted owner split).Owned := by
  refine sound.move (ownership_detach sound.agree named) le_rfl (by simp)
    (fun _ => sound.numbered (by simp [named])) fun inside _ listed => ?_
  obtain rfl : owner = _ := Option.some.inj (Option.some.inj (named.symm.trans inside))
  exact sound.company found more listed

/-- A split leaves a transaction in which it is not alone, and the ledger. -/
theorem owned_without {owner : TransactionId} {transaction : Transaction} {split : SplitId}
    (sound : ledger.Owned) (named : ledger.ownership.named split = some (some owner))
    (found : ledger.transaction? owner = some transaction) (more : 1 < transaction.splits.length) :
    (ledger.without owner split).Owned := by
  have alike := ledger.mark_alike split
  have marked : (ledger.mark split).Owned := sound.linked alike.ownership alike.minted.ge
  rw [← alike.ownership] at named
  rw [← transaction?_mark split] at found
  refine marked.move (ownership_destroy marked.agree named) (minted_without.trans alike.minted.symm).ge
    (by simp) (by simp) fun inside _ listed => ?_
  obtain rfl : owner = _ := Option.some.inj (Option.some.inj (named.symm.trans inside))
  exact marked.company found more listed

private theorem keeps_removeSplit (owner : TransactionId) (split : SplitId) :
    Keeps (WhileFresh Owned) (removeSplit (α := α) (J := J) owner split) := by
  refine (keeps_ensureOpen owner).bind fun _ ledger owned => ?_
  rw [ends_bind, ends_ask]
  cases found : ledger.transaction owner with
  | error _ => exact owned
  | ok transaction =>
    rw [transaction_eq_ok_iff] at found
    dsimp only
    rw [ends_ite]
    split
    · exact owned
    · rename_i listed
      rw [ends_ite]
      split
      · exact owned
      · rename_i several
        have inside : split ∈ transaction.splits := by simpa using listed
        have more : 1 < transaction.splits.length := by
          have := List.length_pos_of_mem inside
          omega
        have marked := (ofLinks (α := α) (J := J)).mark split
        refine marked _ fun fresh => ?_
        have sound : ledger.Owned := owned fresh
        have named : ledger.ownership.named split = some (some owner) :=
          (sound.mem_iff found).mp inside
        exact owned_parted sound named found more

omit [Scalar α] in
/-- A split of no transaction goes to a place in one. -/
private theorem owned_rejoined {owner : TransactionId} {split : SplitId} (sound : ledger.Owned)
    (unheld : ledger.ownership.named split = some none)
    (listed : (ledger.ownership.listed owner).isSome) (place : Option Nat) :
    (ledger.rejoined owner split place).Owned := by
  cases place with
  | none => exact sound
  | some index =>
    have moved : (ledger.rejoined owner split (some index)).ownership =
        ledger.ownership.move split (some (some owner)) :=
      ownership_attach sound.agree unheld fun _ => coe_insertAt index _
    refine sound.move moved le_rfl (fun other ends => ?_) (fun _ => sound.numbered (by simp [unheld]))
      (by simp [unheld])
    cases ends
    exact listed

/-- A split that is released is in no transaction; if that fails, all is as sound as before. -/
theorem ends_release {owner : TransactionId} {split : SplitId} (owned : WhileFresh Owned ledger)
    (named : ledger.ownership.named split = some (some owner)) :
    (release owner split).Ends ledger fun result after => WhileFresh Owned after ∧
      (result = .ok () → after.minted ≤ 2 ^ 128 → after.ownership.named split = some none ∧
        ∀ other, (ledger.ownership.listed other).isSome → (after.ownership.listed other).isSome) := by
  have sound {transaction} (releases : ledger.Releases owner transaction) :
      WhileFresh Owned (ledger.parted owner split) :=
    fun fresh => owned_parted (owned fresh) named releases.isOwner releases.several
  have free (fresh : ledger.minted ≤ 2 ^ 128) :
      (ledger.parted owner split).ownership.named split = some none := by
    rw [parted, ownership_detach (owned fresh).agree named]
    exact Function.update_self ..
  have lists (other : TransactionId) : ((ledger.parted owner split).ownership.listed other).isSome =
      (ledger.ownership.listed other).isSome := isSome_listed_modifyTransaction other
  refine ends_release_of (fun _ => ⟨owned, fun succeeds => by cases succeeds⟩) (fun transaction releases _ =>
    ⟨sound releases, fun _ fresh => ⟨free fresh, fun other => (lists other).ge⟩⟩) fun _ source releases _ => ?_
  refine (ends_rebalanceSplit_grown (sound releases) source).imp fun result after grown => ?_
  have early (fresh : after.minted ≤ 2 ^ 128) : ledger.minted ≤ 2 ^ 128 := by
    have minted : (ledger.parted owner split).minted = ledger.minted := rfl
    rcases grown fresh with ⟨_, same⟩ | ⟨_, _, next, _⟩ <;> omega
  have kept (fresh : after.minted ≤ 2 ^ 128) : after.Owned :=
    (sound releases (early fresh)).grown (grown fresh) fresh
  have unheld (fresh : after.minted ≤ 2 ^ 128) : after.ownership.named split = some none :=
    (grown fresh).named (sound releases (early fresh)) fresh (free (early fresh))
  cases result with
  | ok _ =>
    exact ⟨kept, fun _ fresh => ⟨unheld fresh, fun other live => (grown fresh).listed ((lists other).trans live)⟩⟩
  | error _ =>
    -- What is put back goes to a transaction that was there all along.
    refine ⟨fun fresh => ?_, fun succeeds => by cases succeeds⟩
    rw [minted_rejoined] at fresh
    refine owned_rejoined (kept fresh) (unheld fresh) ((grown fresh).listed ?_) _
    rw [lists]
    simp [ownership, releases.isOwner]

private theorem ends_adopt {owner : TransactionId} {split : SplitId}
    (sound : WhileFresh Owned (ledger.joined owner split)) :
    (adopt rebalanceSplit owner split).Ends ledger fun _ after => WhileFresh Owned after :=
  Action.ends_adopt.mpr (keeps_rebalanceSplit split _ (ofLinks.alike (mark_alike _ _) sound))

omit [Scalar α] in
/-- A split of no transaction goes to the end of one. -/
theorem owned_joined {owner : TransactionId} {split : SplitId} (sound : ledger.Owned)
    (unheld : ledger.ownership.named split = some none)
    (listed : (ledger.ownership.listed owner).isSome) : (ledger.joined owner split).Owned := by
  refine sound.move (ownership_attach sound.agree unheld fun _ => coe_push _) le_rfl
    (fun other ends => ?_) (fun _ => sound.numbered (by simp [unheld])) (by simp [unheld])
  cases ends
  exact listed

private theorem keeps_appendSplit (owner : TransactionId) (split : SplitId) :
    Keeps (WhileFresh Owned) (appendSplit (α := α) (J := J) owner split) := by
  intro ledger owned
  refine ends_appendSplit_of (fun _ => owned) fun entry isOpen isSplit => ?_
  obtain ⟨transaction, found, -⟩ := checkOpen_eq_ok_iff.mp isOpen
  have listed : (ledger.ownership.listed owner).isSome := by simp [listed_eq found]
  have named := parent_eq_iff.mpr ⟨entry, isSplit, rfl⟩
  cases parent : entry.parent with
  | none => exact ends_adopt fun fresh => owned_joined (owned fresh) (parent ▸ named) listed
  | some former =>
    rw [parent] at named
    dsimp only
    split
    · subst_vars
      exact ends_adopt fun fresh =>
        (owned fresh).linked (ownership_reattach (owned fresh).agree named) le_rfl
    · refine (ends_release owned named).imp fun result after ends => ?_
      cases result with
      | error _ => exact ends.1
      | ok _ =>
        refine ends_adopt fun fresh => ?_
        obtain ⟨unheld, lists⟩ := ends.2 rfl fresh
        exact owned_joined (ends.1 fresh) unheld (lists owner listed)

private theorem keeps_discardTransaction [Journal J α] (owner : TransactionId) :
    Keeps (WhileFresh Owned) (discardTransaction (α := α) (J := J) owner) := by
  refine (ofLinks.writeRecord .destroyed owner).bind fun _ ledger owned => ?_
  rw [ends_bind, ends_ask]
  cases found : ledger.transaction owner with
  | error _ => exact owned
  | ok transaction =>
    simp only [ends_bind, ends_update]
    intro fresh
    have minted := minted_eraseSplits transaction.splits ledger
    have sound := owned (minted ▸ fresh)
    have dissolved := ownership_discard sound.agree (transaction_eq_ok_iff.mp found) _ rfl
    refine ⟨dissolved ▸ sound.agree.dissolve, dissolved ▸ Occupied.dissolve sound.occupied, ?_⟩
    rw [dissolved]
    exact sound.below.dissolve.mono minted.ge

private theorem keeps_destroySplit [Journal J α] (split : SplitId) :
    Keeps (WhileFresh Owned) (destroySplit (α := α) (J := J) split) := by
  intro ledger owned
  refine ends_destroySplit_of owned (fun owner _ _ => keeps_discardTransaction owner ledger owned)
    fun owner transaction member several => ?_
  refine keeps_rebalanceTransaction keeps_rebalanceSplit owner _ fun fresh => ?_
  rw [minted_without] at fresh
  exact owned_without (owned fresh) (parentOf?_eq_some_iff.mp member.parent) member.isOwner (by omega)

private theorem keeps_vacate (split : SplitId) :
    Keeps (WhileFresh Owned) (update (Ledger.leaveAccount (α := α) (J := J) split)) :=
  keeps_update fun ledger => owned_linked ledger _ ownership_leaveAccount minted_leaveAccount.ge

omit [Scalar α] in
private theorem keeps_setAccount (account : Option AccountId) (split : SplitId) :
    Keeps (WhileFresh Owned)
      (update (Ledger.modifySplit (α := α) (J := J) split fun s => { s with account })) :=
  keeps_update fun ledger => owned_linked ledger _ (ownership_modifySplit fun _ => rfl) le_rfl

private theorem keeps_leaveAccount (split : SplitId) :
    Keeps (WhileFresh Owned) (leaveAccount (α := α) (J := J) split) :=
  (keeps_ensureEditable split).bind fun _ => (keeps_vacate split).bind fun _ =>
    keeps_setAccount none split

private theorem keeps_enterAccount (account : AccountId) (split : SplitId) :
    Keeps (WhileFresh Owned) (enterAccount (α := α) (J := J) account split) :=
  keeps_ask.bind fun _ => (keeps_ensureEditable split).bind fun _ => (keeps_vacate split).bind fun _ =>
    (keeps_setAccount (some account) split).bind fun _ => by
      intro ledger owned
      simp only [ends_bind, ends_enterRegister, ends_update]
      exact ofLinks.alike (recompute_alike _ account) (owned_linked ledger _ rfl le_rfl owned)

private theorem keeps_commands [Journal J α] : Preserved (WhileFresh (Owned (α := α) (J := J))) where
  toOfLinks := ofLinks
  createSplit := keeps_createSplit
  createTransaction := keeps_createTransaction
  discardSplit := keeps_discardSplit
  appendSplit := keeps_appendSplit
  removeSplit := keeps_removeSplit
  enterAccount := keeps_enterAccount
  leaveAccount := keeps_leaveAccount
  rebalanceSplit := keeps_rebalanceSplit
  discardTransaction := keeps_discardTransaction
  destroySplit := keeps_destroySplit

end Ownership

omit [Scalar α] in
theorem Ledger.owned_start (settings : Settings) (journal : J) :
    Owned (Ledger.start (α := α) settings journal) where
  agree := ⟨nofun, nofun, nofun⟩
  occupied := nofun
  below := ⟨nofun, nofun⟩

variable [Journal J α]

theorem Deed.keeps_owned (deed : Deed α J) (ledger : Ledger α J) (owned : WhileFresh Owned ledger) :
    WhileFresh Owned (deed.apply ledger) := by
  cases deed with
  | command request => exact Ownership.keeps_commands.act request ledger owned
  | openAccount _ _ _ =>
    exact fun fresh => (owned ((Nat.le_succ _).trans fresh)).linked rfl (Nat.le_succ _)
  | setDefers _ _ | clearChanged _ | markChanged _ | setClock _ | setJournal _ | setAccounts _ =>
    exact fun fresh => (owned fresh).linked rfl le_rfl

theorem Reachable.owned {allowed : Deed α J → Prop} (reached : Reachable allowed ledger) :
    ledger.Owned :=
  reached.induct (fun settings journal _ => owned_start settings journal)
    (fun deed _ => deed.keeps_owned) reached.minted_le

/-- Whatever was asked of a ledger, and whether or not it failed: each transaction has splits, lists
none twice, and lists only splits that are part of it; and each split that is part of a transaction is in
the list of that transaction, and of no other. -/
theorem Reachable.ownership_sound (reached : Reachable (fun _ => True) ledger) :
    (∀ owner transaction, ledger.transaction? owner = some transaction →
      transaction.splits ≠ [] ∧ transaction.splits.Nodup ∧
        ∀ split ∈ transaction.splits, ∃ entry, ledger.split? split = some entry ∧
          entry.parent = some owner) ∧
    (∀ split entry owner, ledger.split? split = some entry → entry.parent = some owner →
      ∃ transaction, ledger.transaction? owner = some transaction ∧ split ∈ transaction.splits ∧
        ∀ other another, ledger.transaction? other = some another → split ∈ another.splits →
          other = owner) := by
  have owned := reached.owned
  constructor
  · intro owner transaction found
    refine ⟨owned.nonempty found, owned.nodup found, fun split inside => ?_⟩
    exact parent_eq_iff.mp ((owned.mem_iff found).mp inside)
  · intro split entry owner isSplit parent
    have named := parent_eq_iff.mpr ⟨entry, isSplit, parent⟩
    obtain ⟨transaction, found⟩ := owned.known named
    refine ⟨transaction, found, (owned.mem_iff found).mpr named, fun other another listed inside => ?_⟩
    have again := (owned.mem_iff listed).mp inside
    exact Option.some.inj (Option.some.inj (again.symm.trans named))

/-- The split of a one-sided transaction is in the list of that transaction alone. -/
theorem Reachable.ownership_sound_oneSided :
    ∃ transaction, (oneSided (5 : Float) 1 false).transaction? ⟨.ofNat 2⟩ = some transaction ∧
      ⟨.ofNat 1⟩ ∈ transaction.splits ∧ ∀ other another,
        (oneSided (5 : Float) 1 false).transaction? other = some another →
          ⟨.ofNat 1⟩ ∈ another.splits → other = ⟨.ofNat 2⟩ := by
  have reached : Reachable (fun _ => True) (oneSided (5 : Float) 1 false) :=
    (Reachable.start _ _).after _ (fun _ _ => trivial) (by decide +kernel)
  have parent : ((oneSided (5 : Float) 1 false).split? ⟨.ofNat 1⟩).map (·.parent) =
      some (some ⟨.ofNat 2⟩) := by decide +kernel
  obtain ⟨entry, isSplit, parent⟩ := Option.map_eq_some_iff.mp parent
  exact (Reachable.ownership_sound reached).2 _ entry _ isSplit parent

end DoubleEntry
