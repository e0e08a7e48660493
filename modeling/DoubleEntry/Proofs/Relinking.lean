import DoubleEntry.Proofs.Views

/-! # How changes of a ledger move its links

Each change of a transaction's list, of a split's parent or account, or of a register is a move in
`ownership` or in `membership`, once all its parts are done: a split is first taken out of the one list
and only then named anew.
-/

namespace DoubleEntry.Ledger

open Links

variable {α J : Type} {ledger : Ledger α J} {split : SplitId} {owner : TransactionId}
  {account : AccountId}

/-! ## Splits and transactions -/

theorem ownership_modifySplit {change : Split α → Split α}
    (keeps : ∀ split, (change split).parent = split.parent) :
    (ledger.modifySplit split change).ownership = ledger.ownership := by
  unfold ownership
  congr 1
  exact funext (Table.map_get?_modify ledger.splits split change (·.parent) keeps)

theorem ownership_modifyTransaction {change : Transaction → Transaction}
    (keeps : ∀ transaction, (change transaction).splits = transaction.splits) :
    (ledger.modifyTransaction owner change).ownership = ledger.ownership := by
  unfold ownership
  congr 1
  exact funext (Table.map_get?_modify ledger.transactions owner change
    (fun transaction => (transaction.splits : Multiset SplitId)) fun t => by rw [keeps])

theorem ownership_insertSplit (entry : Split α) (minted : Nat) :
    { ledger with splits := ledger.splits.insert split entry, minted }.ownership =
      ⟨Function.update ledger.ownership.named split (some entry.parent),
        ledger.ownership.listed⟩ := by
  unfold ownership
  congr 1
  funext other
  simp only [split?, Table.get?_insert, Function.update_apply]
  split <;> rfl

/-- A new transaction lists the one split that comes with it. -/
theorem ownership_insertTransaction {transaction : Transaction} (listed : transaction.splits = [split])
    (entry : Split α) (minted : Nat) :
    { ledger with
      splits := ledger.splits.insert split entry
      transactions := ledger.transactions.insert owner transaction
      minted }.ownership =
      ⟨Function.update ledger.ownership.named split (some entry.parent),
        Function.update ledger.ownership.listed owner (some {split})⟩ := by
  unfold ownership
  congr 1
  · funext other
    simp only [split?, Table.get?_insert, Function.update_apply]
    split <;> rfl
  · funext other
    simp only [transaction?, Table.get?_insert, Function.update_apply]
    split
    · simp [listed]
    · rfl

theorem ownership_setParent (parent : Option TransactionId) (live : (ledger.split? split).isSome) :
    (ledger.modifySplit split fun s => { s with parent }).ownership =
      ⟨Function.update ledger.ownership.named split (some parent), ledger.ownership.listed⟩ := by
  obtain ⟨entry, found⟩ := Option.isSome_iff_exists.mp live
  unfold ownership
  congr 1
  funext other
  simp only [split?_modifySplit, found, Function.update_apply]
  split <;> rfl

/-- What a change of a transaction's splits does to its list. -/
theorem ownership_relist {change : Transaction → Transaction}
    {relist : Multiset SplitId → Multiset SplitId}
    (same : ∀ transaction, ((change transaction).splits : Multiset SplitId) =
      relist transaction.splits) :
    (ledger.modifyTransaction owner change).ownership =
      ⟨ledger.ownership.named, Function.update ledger.ownership.listed owner
        ((ledger.ownership.listed owner).map relist)⟩ := by
  unfold ownership
  congr 1
  funext other
  simp only [transaction?_modifyTransaction, Function.update_apply]
  split
  · simp only [Option.map_map, Function.comp_def, same]
  · rfl

/-- No change of a transaction lets one come or go. -/
theorem isSome_listed_modifyTransaction {change : Transaction → Transaction} (other : TransactionId) :
    ((ledger.modifyTransaction owner change).ownership.listed other).isSome =
      (ledger.ownership.listed other).isSome := by
  simp only [ownership, transaction?_modifyTransaction, Option.isSome_map]
  split
  · subst_vars
    exact Option.isSome_map ..
  · rfl

theorem coe_drop (transaction : Transaction) :
    ((transaction.drop split).splits : Multiset SplitId) =
      (transaction.splits : Multiset SplitId).filter (· ≠ split) :=
  (Multiset.filter_coe ..).symm

theorem coe_push (transaction : Transaction) :
    ((transaction.push split).splits : Multiset SplitId) = split ::ₘ transaction.splits := by
  rw [Multiset.cons_coe, Multiset.coe_eq_coe]
  exact List.perm_append_singleton _ _

theorem coe_insertAt (index : Nat) (transaction : Transaction) :
    ((transaction.insertAt index split).splits : Multiset SplitId) = split ::ₘ transaction.splits := by
  rw [Multiset.cons_coe, Multiset.coe_eq_coe]
  refine List.perm_middle.trans (List.Perm.cons split ?_)
  rw [List.take_append_drop]

/-- A split leaves its owner and is in no transaction. -/
theorem ownership_detach (agree : ledger.ownership.Agree)
    (owned : ledger.ownership.named split = some (some owner)) :
    ((ledger.modifyTransaction owner (·.drop split)).modifySplit split
      fun s => { s with parent := none }).ownership = ledger.ownership.move split (some none) := by
  have live : ((ledger.modifyTransaction owner (·.drop split)).split? split).isSome := by
    change (ledger.split? split).isSome
    simpa [ownership] using congrArg Option.isSome owned
  rw [ownership_setParent none live, ownership_relist coe_drop, agree.move_eq owner,
    settled_of_elsewhere (by simp)]
  intro other different
  rw [owned]
  exact ⟨by simpa using different.symm, by simp⟩

/-- A split of no transaction goes to a place in one. -/
theorem ownership_attach {change : Transaction → Transaction} (agree : ledger.ownership.Agree)
    (unheld : ledger.ownership.named split = some none)
    (adds : ∀ transaction, ((change transaction).splits : Multiset SplitId) =
      split ::ₘ transaction.splits) :
    ((ledger.modifySplit split fun s => { s with parent := some owner }).modifyTransaction owner
      change).ownership = ledger.ownership.move split (some (some owner)) := by
  have live : (ledger.split? split).isSome := by
    simpa [ownership] using congrArg Option.isSome unheld
  rw [ownership_relist adds, ownership_setParent (some owner) live, agree.move_eq owner]
  · congr 2
    cases listed : ledger.ownership.listed owner with
    | none => rfl
    | some members =>
      have outside : split ∉ members := agree.not_mem listed (by simp [unheld])
      exact congrArg some (settled_of_outside outside).symm
  · intro other different
    rw [unheld]
    exact ⟨by simp, by simpa using different.symm⟩

/-- A split goes to the end of the transaction that lists it already. -/
theorem ownership_reattach (agree : ledger.ownership.Agree)
    (owned : ledger.ownership.named split = some (some owner)) :
    (((ledger.modifyTransaction owner (·.drop split)).modifySplit split
      fun s => { s with parent := some owner }).modifyTransaction owner
      (·.push split)).ownership = ledger.ownership := by
  have live : ((ledger.modifyTransaction owner (·.drop split)).split? split).isSome := by
    change (ledger.split? split).isSome
    simpa [ownership] using congrArg Option.isSome owned
  have stays : ledger.ownership.move split (some (some owner)) = ledger.ownership :=
    owned ▸ agree.move_self
  refine .trans ?_ stays
  rw [ownership_relist coe_push, ownership_setParent (some owner) live, ownership_relist coe_drop,
    agree.move_eq owner, settled_here]
  · simp only [Function.update_self, Function.update_idem, Option.map_map, Function.comp_def]
  · intro other different
    rw [owned]
    exact ⟨by simpa using different.symm, by simpa using different.symm⟩

section Erasing

variable [Scalar α]

theorem minted_leaveAccount : (ledger.leaveAccount split).minted = ledger.minted := by
  unfold leaveAccount
  split
  · exact (recompute_alike _ _).minted
  · rfl

theorem transactions_leaveAccount :
    (ledger.leaveAccount split).transactions = ledger.transactions := by
  unfold leaveAccount
  split
  · exact (recompute_alike _ _).transactions
  · rfl

theorem bare_leaveAccount (id : SplitId) :
    ((ledger.leaveAccount split).split? id).map Split.bare = (ledger.split? id).map Split.bare := by
  unfold leaveAccount
  split
  · exact (recompute_alike _ _).splits id
  · rfl

theorem minted_eraseSplit : (ledger.eraseSplit split).minted = ledger.minted := minted_leaveAccount

theorem transactions_eraseSplit : (ledger.eraseSplit split).transactions = ledger.transactions :=
  transactions_leaveAccount

theorem minted_eraseSplits (splits : List SplitId) (ledger : Ledger α J) :
    (splits.foldl (fun ledger split => (ledger.mark split).eraseSplit split) ledger).minted =
      ledger.minted := by
  induction splits generalizing ledger with
  | nil => rfl
  | cons first rest ih =>
    rw [List.foldl_cons, ih, minted_eraseSplit, (ledger.mark_alike first).minted]

theorem ownership_leaveAccount : (ledger.leaveAccount split).ownership = ledger.ownership := by
  unfold leaveAccount
  split
  · exact (recompute_alike _ _).ownership
  · rfl

theorem ownership_eraseSplit : (ledger.eraseSplit split).ownership =
    ⟨Function.update ledger.ownership.named split none, ledger.ownership.listed⟩ := by
  have left : (ledger.leaveAccount split).ownership = ledger.ownership := ownership_leaveAccount
  rw [← left]
  unfold ownership
  congr 1
  funext other
  simp only [split?_eraseSplit, Function.update_apply]
  split <;> rfl

/-- A split leaves its owner and the ledger. -/
theorem ownership_destroy (agree : ledger.ownership.Agree)
    (owned : ledger.ownership.named split = some (some owner)) :
    ((ledger.modifyTransaction owner (·.drop split)).eraseSplit split).ownership =
      ledger.ownership.move split none := by
  rw [ownership_eraseSplit, ownership_relist coe_drop, agree.move_eq owner,
    settled_of_elsewhere (by simp)]
  intro other different
  rw [owned]
  exact ⟨by simpa using different.symm, by simp⟩

/-- All splits of a list go, and no transaction changes its list. -/
theorem ownership_eraseSplits (splits : List SplitId) (ledger : Ledger α J) :
    (splits.foldl (fun ledger split => (ledger.mark split).eraseSplit split) ledger).ownership =
      ⟨fun split => if split ∈ splits then none else ledger.ownership.named split,
        ledger.ownership.listed⟩ := by
  induction splits generalizing ledger with
  | nil => simp
  | cons first rest ih =>
    rw [List.foldl_cons, ih, ownership_eraseSplit, (ledger.mark_alike first).ownership]
    congr 1
    funext split
    by_cases same : split = first <;> simp [same]

/-- A transaction goes with all its splits. -/
theorem ownership_discard {transaction : Transaction} (agree : ledger.ownership.Agree)
    (found : ledger.transaction? owner = some transaction) (erased : Ledger α J)
    (gone : erased = transaction.splits.foldl
      (fun ledger split => (ledger.mark split).eraseSplit split) ledger) :
    { erased with transactions := erased.transactions.erase owner }.ownership =
      ledger.ownership.dissolve owner := by
  have listed : ledger.ownership.listed owner = some transaction.splits := by
    simp [ownership, found]
  have kept := gone ▸ ownership_eraseSplits transaction.splits ledger
  have named := congrArg Links.named kept
  have lists := congrArg Links.listed kept
  unfold Links.dissolve
  ext1
  · refine named.trans (funext fun split => ?_)
    simp only [← agree.mem_iff listed split, Multiset.mem_coe]
  · funext other
    simp only [ownership, transaction?, Table.get?_erase, Function.update_apply]
    split
    · rfl
    · exact congrFun lists other

end Erasing

/-! ## Splits and accounts -/

theorem membership_modifySplit {change : Split α → Split α}
    (keeps : ∀ split, (change split).account = split.account) :
    (ledger.modifySplit split change).membership = ledger.membership := by
  unfold membership
  congr 1
  exact funext (Table.map_get?_modify ledger.splits split change (·.account) keeps)

theorem membership_modifyTransaction {change : Transaction → Transaction} :
    (ledger.modifyTransaction owner change).membership = ledger.membership := rfl

theorem membership_insertSplit (entry : Split α) (minted : Nat) :
    { ledger with splits := ledger.splits.insert split entry, minted }.membership =
      ⟨Function.update ledger.membership.named split (some entry.account),
        ledger.membership.listed⟩ := by
  unfold membership
  congr 1
  funext other
  simp only [split?, Table.get?_insert, Function.update_apply]
  split <;> rfl

theorem membership_setAccount (account : Option AccountId) (live : (ledger.split? split).isSome) :
    (ledger.modifySplit split fun s => { s with account }).membership =
      ⟨Function.update ledger.membership.named split (some account), ledger.membership.listed⟩ := by
  obtain ⟨entry, found⟩ := Option.isSome_iff_exists.mp live
  unfold membership
  congr 1
  funext other
  simp only [split?_modifySplit, found, Function.update_apply]
  split <;> rfl

theorem membership_modifyAccount {change : Account → Account}
    {relist : Multiset SplitId → Multiset SplitId}
    (same : ∀ account, ((change account).register : Multiset SplitId) = relist account.register) :
    { ledger with accounts := ledger.accounts.modify account change }.membership =
      ⟨ledger.membership.named, Function.update ledger.membership.listed account
        ((ledger.membership.listed account).map relist)⟩ := by
  unfold membership
  congr 1
  funext other
  simp only [account?, Table.get?_modify, Function.update_apply]
  split
  · simp only [Option.map_map, Function.comp_def, same]
  · rfl

/-- A flag of an account is no link. -/
theorem membership_flag {change : Account → Account}
    (keeps : ∀ account, (change account).register = account.register) :
    { ledger with accounts := ledger.accounts.modify account change }.membership =
      ledger.membership := by
  unfold membership
  congr 1
  exact funext (Table.map_get?_modify ledger.accounts account change
    (fun account => (account.register : Multiset SplitId)) fun a => by rw [keeps])

theorem membership_leaveRegister : (ledger.leaveRegister account split).membership =
    ⟨ledger.membership.named, Function.update ledger.membership.listed account
      ((ledger.membership.listed account).map (Multiset.filter (· ≠ split)))⟩ :=
  membership_modifyAccount fun account => (Multiset.filter_coe (· ≠ split) account.register).symm

theorem membership_registered : (ledger.registered account split).membership =
      ⟨ledger.membership.named, Function.update ledger.membership.listed account
        ((ledger.membership.listed account).map (settled split (some (some account)) account))⟩ :=
  membership_modifyAccount fun account => by
    rw [settled_here]
    exact Register.coe_insert ledger.postings.compare split account.register

/-- It makes no difference whether a split leaves a register before it enters it. -/
theorem membership_reposition (ledger : Ledger α J) :
    ((ledger.leaveRegister account split).registered account split).membership =
      (ledger.registered account split).membership := by
  rw [membership_registered, membership_registered, membership_leaveRegister, settled_here]
  simp [Function.comp_def]

/-- A split of an account leaves its register and enters it again. -/
theorem membership_reenter (agree : ledger.membership.Agree)
    (within : ledger.membership.named split = some (some account)) :
    (ledger.registered account split).membership = ledger.membership := by
  have stays : ledger.membership.move split (some (some account)) = ledger.membership :=
    within ▸ agree.move_self
  refine .trans ?_ stays
  rw [membership_registered, agree.move_eq account, ← within, Function.update_eq_self]
  intro other different
  rw [within]
  exact ⟨by simpa using different.symm, by simpa using different.symm⟩

/-- A split of no account enters the register of one. -/
theorem membership_enter (agree : ledger.membership.Agree)
    (unheld : ledger.membership.named split = some none) :
    ((ledger.modifySplit split fun s => { s with account := some account }).registered account
      split).membership = ledger.membership.move split (some (some account)) := by
  have live : (ledger.split? split).isSome := by
    simpa [membership] using congrArg Option.isSome unheld
  rw [membership_registered, membership_setAccount (some account) live, agree.move_eq account]
  intro other different
  rw [unheld]
  exact ⟨by simp, by simpa using different.symm⟩

section Leaving

variable [Scalar α]

theorem isSome_leaveAccount (ledger : Ledger α J) (split other : SplitId) :
    ((ledger.leaveAccount split).split? other).isSome = (ledger.split? other).isSome := by
  have same : ((ledger.leaveAccount split).split? other).map Split.bare =
      (ledger.split? other).map Split.bare := bare_leaveAccount other
  simpa using congrArg Option.isSome same

/-- Once a split that left its register names no account, it is in no account at all. -/
theorem membership_leaveAccount {name : Option (Option AccountId)} (agree : ledger.membership.Agree)
    (free : ∀ account, name ≠ some (some account)) :
    ⟨Function.update (ledger.leaveAccount split).membership.named split name,
      (ledger.leaveAccount split).membership.listed⟩ = ledger.membership.move split name := by
  unfold leaveAccount
  cases inside : ledger.accountOf? split with
  | none =>
    refine (agree.move_of_unheld (fun account named => ?_) free).symm
    rw [account_eq_iff, inside] at named
    contradiction
  | some account =>
    have named := account_eq_iff.mpr inside
    dsimp only
    rw [(recompute_alike _ _).membership, membership_leaveRegister, agree.move_eq account,
      settled_of_elsewhere (free account)]
    intro other different
    rw [named]
    exact ⟨by simpa using different.symm, free other⟩

theorem membership_vacate (agree : ledger.membership.Agree) (live : (ledger.split? split).isSome) :
    ((ledger.leaveAccount split).modifySplit split fun s => { s with account := none }).membership =
      ledger.membership.move split (some none) := by
  have left := (isSome_leaveAccount ledger split split).trans live
  rw [← membership_leaveAccount agree (by simp), membership_setAccount none left]

/-- A split leaves its account and enters another one. -/
theorem membership_enterAccount (agree : ledger.membership.Agree)
    (live : (ledger.split? split).isSome) :
    (((ledger.leaveAccount split).modifySplit split fun s =>
      { s with account := some account }).registered account split).membership =
      ledger.membership.move split (some (some account)) := by
  have left := (isSome_leaveAccount ledger split split).trans live
  have vacated := membership_vacate agree live
  generalize between : (ledger.leaveAccount split).modifySplit split
    (fun s => { s with account := none }) = vacant at vacated
  have freed : vacant.membership.Agree := vacated ▸ agree.move (by simp)
  have unheld : vacant.membership.named split = some none := by
    rw [vacated]
    exact Function.update_self ..
  rw [← move_move ledger.membership split (some none), ← vacated, ← membership_enter freed unheld,
    membership_registered, membership_registered, membership_setAccount (some account) left,
    membership_setAccount (some account), ← between, membership_setAccount none left]
  · simp only [Function.update_idem]
  · rw [← between, split?_modifySplit, if_pos rfl, Option.isSome_map]
    exact left

theorem membership_eraseSplit (agree : ledger.membership.Agree) :
    (ledger.eraseSplit split).membership = ledger.membership.move split none := by
  rw [← membership_leaveAccount agree (by simp)]
  unfold membership
  congr 1
  funext other
  simp only [split?_eraseSplit, Function.update_apply]
  split <;> rfl

end Leaving

end DoubleEntry.Ledger
