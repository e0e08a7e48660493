import DoubleEntry.Proofs.Preserving
import DoubleEntry.Proofs.Tidy

/-! # Splits in and out of registers

A split that leaves a register leaves the rest in order. One that enters comes to its place; if it is loose
that place does not matter, and otherwise the place is right when no loose split stands in the register. In
both cases the account has to be recomputed.
-/

namespace DoubleEntry

open Register

/-- A change of a split that leaves it in its account and in its place. -/
structure Split.KeepsPlace {α : Type} (change : Split α → Split α) : Prop
    extends Split.KeepsLinks change where
  memo : ∀ split, (change split).memo = split.memo
  action : ∀ split, (change split).action = split.action

/-- Where a split is: in which transaction and account, and by which texts it is ordered. -/
def Split.place {α : Type} (split : Split α) :
    Option TransactionId × Option AccountId × String × String :=
  (split.parent, split.account, split.memo, split.action)

theorem Split.KeepsPlace.of_place {α : Type} {change : Split α → Split α}
    (same : ∀ split, (change split).place = split.place) : Split.KeepsPlace change where
  parent split := congrArg (·.1) (same split)
  account split := congrArg (·.2.1) (same split)
  memo split := congrArg (·.2.2.1) (same split)
  action split := congrArg (·.2.2.2) (same split)

namespace Ledger

variable {α J : Type} [Scalar α] {ledger : Ledger α J} {aspect : Aspect} {moving : Option SplitId}
  {stale : Option AccountId} {id split : SplitId} {account : AccountId} {owner : TransactionId}

/-! ## Figures -/

section KeepsPlace

variable {change : Split α → Split α}

omit [Scalar α] in
theorem mayDisturb_modifySplit (parent : ∀ entry, (change entry).parent = entry.parent) (id : SplitId) :
    (ledger.modifySplit split change).mayDisturb moving id = ledger.mayDisturb moving id :=
  mayDisturb_congr
    (parentOf?_congr (Table.map_get?_modify ledger.splits split change (·.parent) parent id)) fun _ _ => rfl

variable (keeps : Split.KeepsPlace change)

include keeps

omit [Scalar α] in
theorem heading?_modifySplit (id : SplitId) :
    (ledger.modifySplit split change).postings.heading? id = ledger.postings.heading? id := by
  rw [heading?_eq, heading?_eq]
  exact Table.map_get?_modify ledger.splits split change (fun entry =>
    ((entry.parent.bind ledger.transaction?).map Transaction.heading, entry.memo, entry.action))
    (fun entry => by rw [keeps.parent, keeps.memo, keeps.action]) id

/-- A change of figures leaves no account to recompute but that of the split. -/
theorem Tidy.modifySplit (tidy : ledger.Tidy aspect moving none) :
    (ledger.modifySplit split change).Tidy aspect moving (ledger.accountOf? split) where
  toShelved := tidy.toShelved.still (still_modifySplit fun _ => keeps.account)
  shows {account holder} held := by
    have shows := tidy.shows held
    cases aspect with
    | order =>
      exact Shows.steady shows fun id _ closed =>
        ⟨mayDisturb_modifySplit keeps.parent id ▸ closed, heading?_modifySplit keeps id⟩
    | balances =>
      intro fresh closed
      have elsewhere (id) (inside : id ∈ holder.register) :
          (ledger.modifySplit split change).split? id = ledger.split? id := by
        rw [split?_modifySplit, if_neg]
        rintro rfl
        exact fresh (tidy.named held inside)
      have settled (id) (inside : id ∈ holder.register) : ledger.mayDisturb moving id = false :=
        mayDisturb_modifySplit keeps.parent id ▸ closed id inside
      refine IsCurrent.congr (shows nofun settled)
        (fun id inside => by rw [elsewhere id inside]) fun id inside => ?_
      rw [running, elsewhere id inside, running]

end KeepsPlace

/-! ## Registers -/

/-- One account gets another register. -/
theorem Tidy.modifyAccount {change : Account → Account} (tidy : ledger.Tidy aspect moving (some account))
    (fits : ∀ holder, ledger.account? account = some holder → (change holder).register.Nodup ∧
      (∀ id ∈ (change holder).register, ledger.accountOf? id = some account) ∧
      ledger.Shows aspect moving (stale = some account) (change holder).register) :
    { ledger with accounts := ledger.accounts.modify account change }.Tidy aspect moving stale := by
  have isAccount (other : AccountId) :
      { ledger with accounts := ledger.accounts.modify account change }.account? other =
        if other = account then (ledger.account? account).map change else ledger.account? other :=
    Table.get?_modify ..
  have cases_held {other : AccountId} {holder : Account}
      (held : { ledger with accounts := ledger.accounts.modify account change }.account? other =
        some holder) : (∃ former, other = account ∧ ledger.account? account = some former ∧
          change former = holder) ∨ other ≠ account ∧ ledger.account? other = some holder := by
    rw [isAccount] at held
    split at held
    · obtain ⟨former, was, now⟩ := Option.map_eq_some_iff.mp held
      exact .inl ⟨former, ‹_›, was, now⟩
    · exact .inr ⟨‹_›, held⟩
  refine ⟨⟨tidy.numbered, fun held => ?_, fun held inside => ?_⟩, fun held => ?_⟩
  · rcases cases_held held with ⟨former, rfl, was, rfl⟩ | ⟨_, held⟩
    · exact (fits former was).1
    · exact tidy.nodup held
  · rcases cases_held held with ⟨former, rfl, was, rfl⟩ | ⟨_, held⟩
    · exact (fits former was).2.1 _ inside
    · exact tidy.named held inside
  · rcases cases_held held with ⟨former, rfl, was, rfl⟩ | ⟨elsewhere, held⟩
    · exact (fits former was).2.2
    · exact (tidy.shows held).of_fresh fun same => elsewhere (Option.some.inj same).symm

/-- A split that leaves a register leaves its account to be recomputed. -/
theorem Tidy.leaveRegister (tidy : ledger.Tidy aspect moving none) :
    (ledger.leaveRegister account split).Tidy aspect moving (some account) := by
  refine (tidy.weaken _).modifyAccount fun holder held => ⟨(tidy.nodup held).filter _, ?_, ?_⟩
  · exact fun id inside => tidy.named held (List.mem_of_mem_filter inside)
  · have shows := tidy.shows held
    cases aspect with
    | order =>
      have sublist := (List.filter_sublist (l := holder.register) (p := (· ≠ split))).filter
        fun id => !ledger.mayDisturb moving id
      exact List.Pairwise.sublist sublist shows
    | balances => exact fun fresh => absurd rfl fresh

section Entering

omit [Scalar α] in
/-- It makes no difference to the others where a split comes to stand that may disturb. -/
theorem filter_insert {order : SplitId → SplitId → Ordering} {register : List SplitId}
    (disturbs : ledger.mayDisturb moving split = true) :
    (Register.insert order split register).filter (fun id => !ledger.mayDisturb moving id) =
      register.filter fun id => !ledger.mayDisturb moving id := by
  have others : (register.filter (· ≠ split)).filter (fun id => !ledger.mayDisturb moving id) =
      register.filter fun id => !ledger.mayDisturb moving id := by
    rw [List.filter_filter]
    refine List.filter_congr fun id _ => ?_
    by_cases same : id = split <;> simp [same, disturbs]
  rw [Register.insert, List.filter_append, List.filter_cons_of_neg (by simp [disturbs]),
    ← List.filter_append, List.take_append_drop, others]

/-- A split enters the register of its account. -/
theorem Tidy.enter (tidy : ledger.Tidy aspect moving (some account))
    (within : ledger.accountOf? split = some account)
    (shows : ∀ holder, ledger.account? account = some holder →
      ledger.Shows aspect moving (stale = some account)
        (Register.insert ledger.postings.compare split holder.register)) :
    (ledger.registered account split).Tidy aspect moving stale := by
  refine tidy.modifyAccount fun holder held =>
    ⟨nodup_insert (tidy.nodup held), fun id inside => ?_, shows holder held⟩
  rcases mem_insert.mp inside with rfl | inside
  · exact within
  · exact tidy.named held inside

/-- A loose split may come to stand anywhere, another one where no loose split stands. -/
theorem Tidy.registered (tidy : ledger.Tidy aspect moving (some account))
    (within : ledger.accountOf? split = some account)
    (settles : aspect = .order → ledger.mayDisturb moving split = true ∨
      ∀ holder, ledger.account? account = some holder →
        ∀ id ∈ holder.register, ledger.mayDisturb moving id = false) :
    (ledger.registered account split).Tidy aspect moving (some account) := by
  refine tidy.enter within fun holder held => ?_
  cases aspect with
  | order =>
    have shows := shows_order.mp (tidy.shows held)
    rcases settles rfl with disturbs | settled
    · rw [shows_order, filter_insert disturbs]
      exact shows
    · have all : holder.register.filter (fun id => !ledger.mayDisturb moving id) = holder.register :=
        List.filter_eq_self.mpr fun id inside => by simp [settled holder held id inside]
      have sorted : InOrder ledger.postings.compare holder.register := all ▸ shows
      exact List.Pairwise.filter _ (InOrder.insert (List.Pairwise.filter _ sorted))
  | balances => exact fun fresh => absurd rfl fresh

/-- Where a loose split comes to stand no account has to be recomputed. -/
theorem Tidy.registered_loose (tidy : ledger.Tidy aspect moving (some account))
    (within : ledger.accountOf? split = some account) (disturbs : ledger.mayDisturb moving split = true) :
    (ledger.registered account split).Tidy aspect moving none := by
  refine tidy.enter within fun holder held => ?_
  cases aspect with
  | order =>
    rw [shows_order, filter_insert disturbs]
    exact tidy.shows held
  | balances =>
    intro _ closed
    simp [closed split (mem_insert.mpr (.inl rfl))] at disturbs

end Entering

section Leaving

theorem Tidy.leaveAccount (tidy : ledger.Tidy aspect moving none) :
    (ledger.leaveAccount split).Tidy aspect moving none := by
  unfold Ledger.leaveAccount
  cases ledger.accountOf? split with
  | none => exact tidy
  | some account => exact tidy.leaveRegister.recompute

theorem mayDisturb_leaveAccount (id : SplitId) :
    (ledger.leaveAccount split).mayDisturb moving id = ledger.mayDisturb moving id := by
  unfold Ledger.leaveAccount
  cases ledger.accountOf? split with
  | none => rfl
  | some account => exact (recompute_alike (ledger.leaveRegister account split) account).mayDisturb id

/-- The registers keep what they list but the split that leaves. -/
theorem Shelved.mem_leaveAccount (shelved : ledger.Shelved) {holder : Account}
    (held : (ledger.leaveAccount split).account? account = some holder) (inside : id ∈ holder.register) :
    id ≠ split ∧ ∃ former, ledger.account? account = some former ∧ id ∈ former.register := by
  unfold Ledger.leaveAccount at held
  cases within : ledger.accountOf? split with
  | none =>
    rw [within] at held
    exact ⟨fun same => shelved.not_registered within ⟨account, holder, held, same ▸ inside⟩,
      holder, held, inside⟩
  | some home =>
    rw [within] at held
    have still := (recompute_alike (ledger.leaveRegister home split) home).still
    obtain ⟨former, was, same⟩ := holder_of_registers (still.registers account) held
    rw [← same] at inside
    have found : (ledger.leaveRegister home split).account? account =
        if account = home then (ledger.account? home).map fun a =>
          { a with register := a.register.filter (· ≠ split), changed := true }
        else ledger.account? account := Table.get?_modify ..
    rw [found] at was
    split at was
    · subst_vars
      obtain ⟨entry, isEntry, rfl⟩ := Option.map_eq_some_iff.mp was
      rw [List.mem_filter, decide_eq_true_eq] at inside
      exact ⟨inside.2, entry, isEntry, inside.1⟩
    · rename_i elsewhere
      refine ⟨?_, former, was, inside⟩
      rintro rfl
      exact elsewhere (Option.some.inj ((shelved.named was inside).symm.trans within))

theorem Shelved.not_registered_leaveAccount (shelved : ledger.Shelved) :
    ¬(ledger.leaveAccount split).IsRegistered split :=
  fun ⟨_, _, held, inside⟩ => (shelved.mem_leaveAccount held inside).1 rfl

theorem Tidy.eraseSplit (tidy : ledger.Tidy aspect moving none) :
    (ledger.eraseSplit split).Tidy aspect moving none := by
  have outside : ¬(ledger.leaveAccount split).IsRegistered split := tidy.not_registered_leaveAccount
  refine tidy.leaveAccount.steady (steady_entries le_rfl (fun id live => .inl ?_) (fun _ => rfl)
    (fun id registered => ?_) fun _ _ _ _ _ => rfl)
  · rw [split?_eraseSplit] at live
    split at live
    · cases live
    · exact live
  · rw [split?_eraseSplit, if_neg]
    rintro rfl
    exact outside registered

/-- A transaction may drop a split from its list. -/
theorem Tidy.drop (tidy : ledger.Tidy aspect moving none) :
    (ledger.modifyTransaction owner (·.drop split)).Tidy aspect moving none :=
  tidy.steady (steady_modifyTransaction fun _ _ => .inr rfl)

end Leaving

end Ledger

end DoubleEntry
