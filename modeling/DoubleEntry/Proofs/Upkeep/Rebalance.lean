import DoubleEntry.Proofs.Closing
import DoubleEntry.Proofs.Counterpart

/-! # Registers through rebalancing

Rebalancing recomputes the account of the split that takes up the sum, and opens or closes no transaction.
A counterpart of a lone source is the one split that it puts into a register; that needs room there, unless
the transaction is open.
-/

namespace DoubleEntry

open DoubleEntry.Action Ledger Links

variable {α J : Type} [Scalar α] {ledger before after : Ledger α J} {aspect : Aspect}
  {moving next : Option SplitId} {id split : SplitId} {account : AccountId} {owner : TransactionId}

namespace Ledger

theorem tidy_steady (tidy : WhileFresh (Tidy aspect moving none) before)
    (steady : before.Steady after aspect moving next) : WhileFresh (Tidy aspect next none) after :=
  fun fresh => (tidy (steady.minted.trans fresh)).steady steady

theorem steady_mark : ledger.Steady (ledger.mark split) aspect moving moving := by
  have alike := ledger.mark_alike split
  refine .of_entries alike.minted.ge ?_ alike.transactions alike.still.registers
  unfold mark
  split <;> rfl

/-- A split takes up the sum of the others and its account is recomputed. -/
theorem Tidy.absorbed {amount? : Option α} (tidy : ledger.Tidy aspect moving none) :
    (ledger.absorbed split amount?).Tidy aspect moving none := by
  have changed : (ledger.withAmount split amount?).Tidy aspect moving (ledger.accountOf? split) := by
    cases amount? with
    | none => exact tidy.weaken _
    | some amount =>
      exact tidy.modifySplit (.of_place (by exact fun _ => rfl))
  exact (changed.steady steady_mark).recompute?

/-- No split in the register of an account may disturb it. -/
def IsQuiet (ledger : Ledger α J) (moving : Option SplitId) (account : AccountId) : Prop :=
  ∀ holder, ledger.account? account = some holder →
    ∀ id ∈ holder.register, ledger.mayDisturb moving id = false

instance : Decidable (ledger.IsQuiet moving account) :=
  inferInstanceAs (Decidable (∀ holder ∈ ledger.account? account,
    ∀ id ∈ holder.register, ledger.mayDisturb moving id = false))

/-- Ledgers with the same registers, and with the same splits in place. -/
structure Level (before after : Ledger α J) : Prop where
  registers : ∀ account,
    (after.account? account).map (·.register) = (before.account? account).map (·.register)
  within : ∀ id, after.accountOf? id = before.accountOf? id
  disturbs : ∀ moving id, after.mayDisturb moving id = before.mayDisturb moving id

omit [Scalar α] in
theorem Level.trans {last : Ledger α J} (first : before.Level after) (second : after.Level last) :
    before.Level last where
  registers account := (second.registers account).trans (first.registers account)
  within id := (second.within id).trans (first.within id)
  disturbs moving id := (second.disturbs moving id).trans (first.disturbs moving id)

theorem Alike.level (alike : before.Alike after) : before.Level after :=
  ⟨alike.still.registers, alike.accountOf?, fun _ => alike.mayDisturb⟩

omit [Scalar α] in
theorem level_modifySplit {change : Split α → Split α} (keeps : Split.KeepsPlace change) :
    ledger.Level (ledger.modifySplit split change) where
  registers _ := rfl
  within id := accountOf?_congr
    (Table.map_get?_modify ledger.splits split change (·.account) keeps.account id)
  disturbs _ := mayDisturb_modifySplit keeps.parent

theorem absorbed_level {amount? : Option α} : ledger.Level (ledger.absorbed split amount?) := by
  refine Level.trans ?_ absorbed_alike.level
  cases amount? with
  | none => exact ⟨fun _ => rfl, fun _ => rfl, fun _ _ => rfl⟩
  | some amount => exact level_modifySplit (.of_place (by exact fun _ => rfl))

omit [Scalar α] in
theorem IsQuiet.level (quiet : before.IsQuiet moving account) (level : before.Level after) :
    after.IsQuiet moving account := by
  intro holder held id inside
  obtain ⟨former, was, same⟩ := holder_of_registers (level.registers account) held
  exact (level.disturbs moving id).trans (quiet former was id (same ▸ inside))

end Ledger

/-- A pass that adds no split keeps registers tidy. -/
theorem Action.ends_settle_tidy (tidy : ledger.Tidy aspect moving none) (edited : SplitId) :
    (settle (fun _ _ => pure ()) edited).Ends ledger fun _ after =>
      after.Tidy aspect moving none ∧ ledger.Level after := by
  have still : ledger.Level ledger := ⟨fun _ => rfl, fun _ => rfl, fun _ _ => rfl⟩
  rw [ends_settle]
  rcases ledger.settlement edited with _ | _ | ⟨transaction, target, base⟩ | _
  · exact ⟨tidy, still⟩
  · exact ⟨tidy, still⟩
  · dsimp only
    cases ledger.absorption transaction target base with
    | error _ => exact ⟨tidy, still⟩
    | ok _ => exact ⟨tidy.absorbed, absorbed_level⟩
  · exact ⟨tidy, still⟩

namespace Ledger

section Counterpart

variable {entry : Split α} (small : ledger.minted < 2 ^ 128)

include small

omit [Scalar α] in
/-- The split that is numbered next is in no register. -/
theorem Shelved.new (shelved : ledger.Shelved) : ledger.split? ledger.nextSplit = none := by
  by_contra live
  have below := shelved.numbered (Option.isSome_iff_ne_none.mpr live)
  simp [nextSplit, toNat_ofNat small] at below

omit [Scalar α] in
theorem Shelved.new_not_registered (shelved : ledger.Shelved) :
    ¬ledger.IsRegistered ledger.nextSplit := by
  rintro ⟨account, holder, held, inside⟩
  have live := shelved.live held inside
  simp [shelved.new small] at live

/-- A new split comes into the ledger, and into no register. -/
theorem Tidy.insertSplit (tidy : ledger.Tidy aspect moving none) : Tidy aspect moving none { ledger with
    splits := ledger.splits.insert ledger.nextSplit entry
    minted := ledger.minted + 1 } := by
  have found (id : SplitId) : ({ ledger with
      splits := ledger.splits.insert ledger.nextSplit entry
      minted := ledger.minted + 1 } : Ledger α J).split? id =
        if id = ledger.nextSplit then some entry else ledger.split? id := Table.get?_insert ..
  refine tidy.steady (steady_entries (Nat.le_succ _) (fun id live => ?_) (fun _ => rfl)
    (fun id registered => ?_) fun _ _ _ _ _ => rfl)
  · rw [found] at live
    split at live
    · subst_vars
      exact .inr (by simp [nextSplit, toNat_ofNat small])
    · exact .inl live
  · rw [found, if_neg]
    rintro rfl
    exact tidy.new_not_registered small registered

/-- A counterpart goes to its transaction, and into no register yet. -/
theorem Tidy.withCounterpart (tidy : ledger.Tidy aspect moving none) :
    (ledger.withCounterpart owner entry).Tidy aspect moving none := by
  refine Tidy.steady ?_ steady_mark
  refine Tidy.steady ?_ (steady_modifyTransaction fun _ _ => .inr rfl)
  refine Tidy.steady (tidy.insertSplit small) (steady_modifySplit (fun _ _ => .rfl) fun registered => ?_)
  exact absurd registered (tidy.new_not_registered small)

/-- A quiet register stays quiet while a counterpart comes into the ledger. -/
theorem IsQuiet.withCounterpart (shelved : ledger.Shelved) (quiet : ledger.IsQuiet moving account) :
    (ledger.withCounterpart owner entry).IsQuiet moving account := by
  intro holder held id inside
  obtain ⟨former, was, same⟩ := holder_of_registers
    ((mark_alike _ ledger.nextSplit).still.registers account) held
  have was : ledger.account? account = some former := was
  rw [← same] at inside
  have different : id ≠ ledger.nextSplit := by
    rintro rfl
    exact shelved.new_not_registered small ⟨account, former, was, inside⟩
  refine (mayDisturb_congr ?_ fun other _ => ?_).trans (quiet former was id inside)
  · rw [parentOf?, split?_withCounterpart different, parentOf?]
  · rw [transaction?_withCounterpart]
    split
    · rw [Option.map_map]
      rfl
    · rfl

end Counterpart

end Ledger

/-- A counterpart enters the register of the source: if its transaction is open it may stand anywhere, and
otherwise it comes to its place in a quiet register. -/
theorem Action.ends_addCounterpart_tidy {source : SplitId} {entry : Split α}
    (tidy : ledger.Tidy aspect moving none) (small : ledger.minted < 2 ^ 128)
    (found : ledger.split? source = some entry) (parent : entry.parent = some owner)
    (settled : aspect = .order → ledger.isLoose source = true ∨
      ∀ account, entry.account = some account → ledger.IsQuiet moving account) :
    (addCounterpart owner source).Ends ledger fun _ after => after.Tidy aspect moving none := by
  rw [ends_addCounterpart (split_eq_ok_iff.mpr found)]
  have coming : (ledger.withCounterpart owner entry).Tidy aspect moving none := tidy.withCounterpart small
  refine (ends_settle_tidy coming _).imp fun result after ⟨tidied, level⟩ => ?_
  cases result with
  | error _ => exact tidied
  | ok _ =>
    cases home : entry.account with
    | none => exact tidied
    | some account =>
      have within : after.accountOf? ledger.nextSplit = some account := by
        rw [level.within, accountOf?_eq split?_next]
        exact home
      refine Tidy.recompute ((tidied.weaken (some account)).registered within fun order => ?_)
      -- The counterpart is as loose as its source, since both are in one transaction.
      rcases settled order with loose | quiet
      · left
        have opens : (ledger.transaction? owner).all (·.edit.isOpen) = true := by
          simpa [isLoose, parentOf?, found, parent] using loose
        rw [level.disturbs, mayDisturb, isLoose, parentOf?, split?_next]
        simp only [Option.bind_some, Option.any_some, transaction?_withCounterpart, if_true,
          Option.all_map, Bool.or_eq_true]
        exact .inr opens
      · exact .inr (((quiet account home).withCounterpart small tidy.toShelved).level level)

/-- Whether a counterpart of a split would have a place: its transaction is open, or the register quiet. -/
def Ledger.HasRoom (ledger : Ledger α J) (moving : Option SplitId) (id : SplitId) : Prop :=
  ledger.parentOf? id = none ∨ ledger.isLoose id = true ∨
    ∀ account, ledger.accountOf? id = some account → ledger.IsQuiet moving account

instance : Decidable (ledger.HasRoom moving id) :=
  inferInstanceAs (Decidable (ledger.parentOf? id = none ∨ ledger.isLoose id = true ∨
    ∀ account ∈ ledger.accountOf? id, ledger.IsQuiet moving account))

/-- Rebalancing keeps registers tidy, unless a counterpart comes to stand beside loose splits while its
transaction is closed. -/
theorem Action.ends_rebalanceSplit_tidy (tidy : WhileFresh (Tidy aspect moving none) ledger)
    (room : aspect = .order → ledger.HasRoom moving id) :
    (rebalanceSplit id).Ends ledger fun _ after => WhileFresh (Tidy aspect moving none) after := by
  rw [rebalanceSplit, ends_settle]
  rcases decided : ledger.settlement id with _ | _ | ⟨transaction, target, base⟩ | ⟨owner, source⟩
  · exact tidy
  · exact tidy
  · dsimp only
    cases ledger.absorption transaction target base with
    | error _ => exact tidy
    | ok _ => exact fun fresh => (tidy (absorbed_sameLinks.minted.ge.trans fresh)).absorbed
  · obtain ⟨rfl, entry, _, _, active, -⟩ := settlement_eq_pair decided
    dsimp only
    by_cases small : ledger.minted < 2 ^ 128
    · refine (ends_addCounterpart_tidy (tidy small.le) small active.isSplit active.parent fun order => ?_).imp
        fun _ _ tidied _ => tidied
      have parent : ledger.parentOf? source ≠ none := by simp [parentOf?, active.isSplit, active.parent]
      simpa only [accountOf?_eq active.isSplit] using (room order).resolve_left parent
    · exact (ends_addCounterpart_minted active.isSplit).imp fun _ after minted fresh => absurd fresh (by omega)


namespace Upkeep

/-! ## What stays open -/

/-- The same transactions are open. -/
def SameEdits (before after : Ledger α J) : Prop :=
  ∀ id, (after.transaction? id).map (·.edit) = (before.transaction? id).map (·.edit)

omit [Scalar α] in
theorem SameEdits.isOpen (same : SameEdits before after) (isOpen : before.checkOpen owner = .ok ()) :
    after.checkOpen owner = .ok () := by
  obtain ⟨transaction, found, isOpen⟩ := checkOpen_eq_ok_iff.mp isOpen
  have again := same owner
  rw [found, Option.map_some] at again
  obtain ⟨later, found, edit⟩ := Option.map_eq_some_iff.mp again
  exact checkOpen_eq_ok_iff.mpr ⟨later, found, edit ▸ isOpen⟩

omit [Scalar α] in
theorem sameEdits_modifyTransaction {change : Transaction → Transaction}
    (stays : ∀ transaction, (change transaction).edit = transaction.edit) :
    SameEdits ledger (ledger.modifyTransaction owner change) :=
  Table.map_get?_modify ledger.transactions owner change (·.edit) stays

theorem transactions_absorbed {amount? : Option α} :
    (ledger.absorbed split amount?).transactions = ledger.transactions := by
  refine absorbed_alike.transactions.trans ?_
  cases amount? <;> rfl

theorem ends_settle_transactions (edited : SplitId) :
    (settle (fun _ _ => pure ()) edited).Ends ledger fun _ after =>
      after.transactions = ledger.transactions := by
  rw [ends_settle]
  rcases ledger.settlement edited with _ | _ | ⟨transaction, target, base⟩ | _
  · rfl
  · rfl
  · dsimp only
    cases ledger.absorption transaction target base with
    | error _ => rfl
    | ok _ => exact transactions_absorbed
  · rfl

theorem ends_rebalanceSplit_sameEdits (edited : SplitId) :
    (rebalanceSplit edited).Ends ledger fun _ after => SameEdits ledger after := by
  rw [rebalanceSplit, ends_settle]
  rcases decided : ledger.settlement edited with _ | _ | ⟨transaction, target, base⟩ | ⟨owner, source⟩
  · exact fun _ => rfl
  · exact fun _ => rfl
  · dsimp only
    cases ledger.absorption transaction target base with
    | error _ => exact fun _ => rfl
    | ok _ => exact fun id => by rw [transaction?, transactions_absorbed, transaction?]
  · obtain ⟨rfl, entry, _, _, active, -⟩ := settlement_eq_pair decided
    dsimp only
    rw [ends_addCounterpart (split_eq_ok_iff.mpr active.isSplit)]
    refine (ends_settle_transactions _).imp fun result after same => ?_
    have edits : SameEdits ledger after := by
      intro id
      rw [transaction?, same]
      change ((ledger.withCounterpart owner entry).transaction? id).map (·.edit) = _
      rw [transaction?_withCounterpart]
      split
      · rw [Option.map_map]
        rfl
      · rfl
    cases result with
    | error _ => exact edits
    | ok _ =>
      cases entry.account with
      | none => exact edits
      | some account =>
        intro id
        have same : (after.enrolled ledger.nextSplit (some account)).transactions = after.transactions :=
          (recompute_alike _ _).transactions
        rw [transaction?, same]
        exact edits id

theorem keeps_rebalanceSplit_edits (edited : SplitId) :
    Keeps (SameEdits before) (rebalanceSplit (α := α) (J := J) edited) := fun _ same =>
  (ends_rebalanceSplit_sameEdits edited).imp fun _ _ onward id => (onward id).trans (same id)

end Upkeep

end DoubleEntry
