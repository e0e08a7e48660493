import DoubleEntry.Ledger.Rebalance
import DoubleEntry.Proofs.Action
import DoubleEntry.Proofs.Views

/-! # What rebalancing decides and what it does

A pass first decides, without changing anything, whether to rest, which split takes up the difference in
which commodity, or that a lone source gets a counterpart: `Ledger.settlement`. A split that takes up the
difference first finds its new amount, or that it has none: `Ledger.absorption`. Only then is the ledger
changed, in one step that does not fail: `Ledger.absorbed`.
-/

namespace DoubleEntry

/-- What a pass has to do. -/
inductive Settlement where
  | rest
  | absorb (transaction : TransactionId) (target : SplitId) (base : Option Commodity)
  | pair (transaction : TransactionId) (source : SplitId)

/-- The split that takes up the difference after an edit: the source, or the second split if the source
itself was edited. -/
def Transaction.target? (transaction : Transaction) (edited : SplitId) : Option SplitId :=
  match transaction.splits with
  | [] => none
  | source :: others => if edited ≠ source then some source else others.head?

theorem Transaction.target?_eq_none {transaction : Transaction} {edited : SplitId}
    (nonempty : transaction.splits ≠ []) :
    transaction.target? edited = none ↔ transaction.splits = [edited] := by
  unfold target?
  rcases shape : transaction.splits with _ | ⟨source, _ | ⟨second, rest⟩⟩
  · exact absurd shape nonempty
  · by_cases same : edited = source
    · simp [same]
    · simp [same, Ne.symm same]
  · by_cases same : edited = source <;> simp [same]

theorem Transaction.mem_of_target? {transaction : Transaction} {edited target : SplitId}
    (isTarget : transaction.target? edited = some target) : target ∈ transaction.splits := by
  unfold target? at isTarget
  rcases shape : transaction.splits with _ | ⟨source, others⟩
  · simp [shape] at isTarget
  · simp only [shape] at isTarget
    split at isTarget
    · obtain rfl := Option.some.inj isTarget
      exact List.mem_cons_self
    · exact List.mem_cons_of_mem source (List.mem_of_mem_head? isTarget)

/-- A split that takes up the difference is there beside the one that was edited. -/
theorem Transaction.several_of_target? {transaction : Transaction} {edited target : SplitId}
    (listed : edited ∈ transaction.splits) (isTarget : transaction.target? edited = some target) :
    2 ≤ transaction.splits.length := by
  unfold target? at isTarget
  rcases shape : transaction.splits with _ | ⟨source, _ | ⟨second, rest⟩⟩
  · simp [shape] at isTarget
  · obtain rfl : edited = source := by simpa [shape] using listed
    simp [shape] at isTarget
  · simp

/-- The amount that makes a split worth a value, if there is one. -/
def Valuation.amountFor? {α : Type} [Scalar α] (split : Split α) (value : α) : Valuation → Option α
  | .priced => if Scalar.isZero split.price then none else some (value / split.price)
  | .shares => some value
  | .inexpressible => none

namespace Ledger

variable {α J : Type} [Scalar α]

/-- What a pass from an edited split has to do. -/
def settlement (ledger : Ledger α J) (edited : SplitId) : Except Fault Settlement := do
  let split ← ledger.split edited
  match split.parent with
  | none => .ok .rest
  | some parent =>
    let transaction ← ledger.transaction parent
    if transaction.edit.defers || split.account.any ledger.accounts.defers then .ok .rest
    else
      match transaction.splits with
      | [] => .ok .rest
      | source :: others =>
        let base ← ledger.commonCommodity parent edited
        if edited ≠ source then .ok (.absorb parent source base)
        else
          match others with
          | second :: _ => .ok (.absorb parent second base)
          | [] =>
            let first ← ledger.split source
            if ledger.enforces && Scalar.isSignificant first.amount then .ok (.pair parent source)
            else .ok .rest

/-- A split from which a pass goes on: neither its transaction nor its account puts rebalancing off. -/
structure Active (ledger : Ledger α J) (edited : SplitId) (split : Split α) (owner : TransactionId)
    (transaction : Transaction) : Prop where
  isSplit : ledger.split? edited = some split
  parent : split.parent = some owner
  isOwner : ledger.transaction? owner = some transaction
  undeferred : transaction.edit.defers = false
  ready : split.account.any ledger.accounts.defers = false

/-- The amount with which a split takes up the sum of the others, or that it keeps its amount. -/
def absorption (ledger : Ledger α J) (transaction : TransactionId) (target : SplitId)
    (base : Option Commodity) : Except Fault (Option α) := do
  let sum ← ledger.transactionValue transaction (some target) base
  let split ← ledger.split target
  let amount? := (← ledger.valuation target split base).amountFor? split (-sum)
  if amount?.isNone && ledger.enforces && Scalar.isSignificant sum then
    .error (.invalid (.cannotAbsorb target transaction (Scalar.text split.price)))
  else .ok amount?

section Deciding

variable {ledger : Ledger α J} {edited : SplitId} {split : Split α} {owner : TransactionId}
  {transaction : Transaction}

theorem Active.settlement (active : ledger.Active edited split owner transaction) :
    ledger.settlement edited =
      if transaction.splits = [] then .ok .rest
      else ledger.commonCommodity owner edited >>= fun base =>
        match transaction.target? edited with
        | some target => .ok (.absorb owner target base)
        | none =>
          if ledger.enforces && Scalar.isSignificant split.amount then .ok (.pair owner edited)
          else .ok .rest := by
  obtain ⟨isSplit, parent, isOwner, undeferred, ready⟩ := active
  simp only [Ledger.settlement, Ledger.split, isSplit, parent, Ledger.transaction, isOwner, undeferred,
    ready, ok_bind, Bool.or_self, Bool.false_eq_true, if_false]
  unfold Transaction.target?
  rcases transaction.splits with _ | ⟨source, _ | ⟨second, rest⟩⟩
  · rfl
  · by_cases same : edited = source
    · subst same
      simp [isSplit, ok_bind]
    · simp [same]
  · by_cases same : edited = source <;> simp [same]

/-- A pass rests where the transaction or the account of the edited split puts rebalancing off. -/
theorem settlement_of_deferred (isSplit : ledger.split? edited = some split)
    (parent : split.parent = some owner) (isOwner : ledger.transaction? owner = some transaction)
    (deferred : (transaction.edit.defers || split.account.any ledger.accounts.defers) = true) :
    ledger.settlement edited = .ok .rest := by
  rw [settlement, split_eq_ok_iff.mpr isSplit, ok_bind, parent]
  dsimp only
  rw [transaction_eq_ok_iff.mpr isOwner, ok_bind, if_pos deferred]

/-- A pass that does not rest has a split to go on from. -/
theorem active_of_settlement {settlement : Settlement}
    (decided : ledger.settlement edited = .ok settlement) (acts : settlement ≠ .rest) :
    ∃ split owner transaction, ledger.Active edited split owner transaction := by
  obtain ⟨split, isSplit, decided⟩ := bind_eq_ok_iff.mp decided
  cases parent : split.parent with
  | none =>
    rw [parent] at decided
    exact absurd (Except.ok.inj decided).symm acts
  | some owner =>
    rw [parent] at decided
    obtain ⟨transaction, isOwner, decided⟩ := bind_eq_ok_iff.mp decided
    split at decided
    · exact absurd (Except.ok.inj decided).symm acts
    · rename_i goes
      rw [Bool.or_eq_true, not_or, Bool.not_eq_true, Bool.not_eq_true] at goes
      exact ⟨split, owner, transaction, split_eq_ok_iff.mp isSplit, parent,
        transaction_eq_ok_iff.mp isOwner, goes.1, goes.2⟩

/-- The difference is taken up by a split of the transaction of the edited one. -/
theorem settlement_eq_absorb {parent : TransactionId} {target : SplitId} {base : Option Commodity}
    (decided : ledger.settlement edited = .ok (.absorb parent target base)) :
    ∃ split transaction, ledger.Active edited split parent transaction ∧
      transaction.target? edited = some target ∧ ledger.commonCommodity parent edited = .ok base := by
  obtain ⟨split, owner, transaction, active⟩ := active_of_settlement decided nofun
  rw [active.settlement] at decided
  split at decided
  · cases decided
  · obtain ⟨base, common, decided⟩ := bind_eq_ok_iff.mp decided
    cases isTarget : transaction.target? edited with
    | some target =>
      rw [isTarget] at decided
      cases decided
      exact ⟨split, transaction, active, isTarget, common⟩
    | none =>
      rw [isTarget] at decided
      dsimp only at decided
      split at decided <;> cases decided

/-- Only a lone source that matters under enforcement gets a counterpart. -/
theorem settlement_eq_pair {source : SplitId}
    (decided : ledger.settlement edited = .ok (.pair owner source)) :
    source = edited ∧ ∃ split transaction base, ledger.Active edited split owner transaction ∧
      transaction.splits = [edited] ∧ ledger.commonCommodity owner edited = .ok base ∧
      ledger.enforces = true ∧ Scalar.isSignificant split.amount = true := by
  obtain ⟨split, parent, transaction, active⟩ := active_of_settlement decided nofun
  rw [active.settlement] at decided
  split at decided
  · cases decided
  · rename_i nonempty
    obtain ⟨base, common, decided⟩ := bind_eq_ok_iff.mp decided
    cases target : transaction.target? edited with
    | some _ =>
      rw [target] at decided
      cases decided
    | none =>
      rw [target] at decided
      dsimp only at decided
      split at decided
      · rename_i matters
        rw [Bool.and_eq_true] at matters
        cases decided
        have alone := (Transaction.target?_eq_none nonempty).mp target
        exact ⟨rfl, split, transaction, base, active, alone, common, matters⟩
      · cases decided

end Deciding

/-- The ledger once a split has a new amount, if it gets one. -/
def withAmount (ledger : Ledger α J) (target : SplitId) : Option α → Ledger α J
  | some amount => ledger.modifySplit target fun s => { s with amount }
  | none => ledger

omit [Scalar α] in
theorem enforces_withAmount {ledger : Ledger α J} {target : SplitId} {amount? : Option α} :
    (ledger.withAmount target amount?).enforces = ledger.enforces := by
  cases amount? <;> rfl

/-- A split stays in its account while it gets a new amount and is marked. -/
theorem split_mark_withAmount {ledger : Ledger α J} {target : SplitId} {split : Split α}
    (found : ledger.split target = .ok split) (amount? : Option α) :
    ∃ after, ((ledger.withAmount target amount?).mark target).split target = .ok after ∧
      after.account = split.account := by
  have marked := (mark_alike (ledger.withAmount target amount?) target).map_split?
    (·.account) (fun _ => rfl) target
  have kept : ((ledger.withAmount target amount?).split? target).map (·.account) =
      some split.account := by
    rw [split_eq_ok_iff] at found
    cases amount? with
    | none => simp [withAmount, found]
    | some _ => simp [withAmount, split?_modifySplit, found]
  obtain ⟨after, isSplit, same⟩ := Option.map_eq_some_iff.mp (marked.trans kept)
  exact ⟨after, split_eq_ok_iff.mpr isSplit, same⟩

/-- The ledger once a split took up the sum of the others. -/
def absorbed (ledger : Ledger α J) (target : SplitId) (amount? : Option α) : Ledger α J :=
  ((ledger.withAmount target amount?).mark target).recompute? (ledger.accountOf? target)

end Ledger

namespace Action

variable {α J : Type} [Scalar α]

theorem settle_eq (lone : TransactionId → SplitId → Action α J Unit) (edited : SplitId) :
    settle lone edited = ask (·.settlement edited) >>= fun settlement =>
      match settlement with
      | .rest => pure ()
      | .absorb transaction target base => absorb transaction target base
      | .pair transaction source => lone transaction source := by
  funext ledger
  rw [settle, ask_bind, ask_bind, Ledger.settlement]
  cases ledger.split edited with
  | error _ => rfl
  | ok split =>
    simp only [ok_bind]
    cases split.parent with
    | none => rfl
    | some owner =>
      dsimp only
      rw [ask_bind]
      cases ledger.transaction owner with
      | error _ => rfl
      | ok transaction =>
        simp only [ok_bind, read_bind]
        split
        · rfl
        · cases transaction.splits with
          | nil => rfl
          | cons source others =>
            dsimp only
            rw [ask_bind]
            cases ledger.commonCommodity owner edited with
            | error _ => rfl
            | ok base =>
              simp only [ok_bind]
              split
              · rfl
              · cases others with
                | cons second _ => rfl
                | nil =>
                  dsimp only
                  rw [ask_bind]
                  cases ledger.split source with
                  | error _ => rfl
                  | ok first =>
                    simp only [ok_bind, read_bind]
                    split <;> rfl

variable {ledger : Ledger α J} {id target : SplitId} {transaction : TransactionId}
  {base : Option Commodity} {value : α} {split : Split α} {valuation : Valuation}

theorem ends_applyWorth {property : Except Fault Bool → Ledger α J → Prop}
    (found : ledger.split id = .ok split) (valued : ledger.valuation id split base = .ok valuation) :
    (applyWorth id value base).Ends ledger property ↔
      property (.ok (valuation.amountFor? split value).isSome)
        (ledger.withAmount id (valuation.amountFor? split value)) := by
  simp only [applyWorth, ends_bind, ends_ask, found, valued]
  cases valuation with
  | priced =>
    simp only [Valuation.amountFor?, ends_ite, ends_bind, ends_report, ends_update, ends_pure]
    split <;> exact .rfl
  | shares => exact .rfl
  | inexpressible => exact .rfl

/-- A split takes up the sum of the others as `absorption` decides. -/
theorem ends_absorb {property : Except Fault Unit → Ledger α J → Prop} :
    (absorb transaction target base).Ends ledger property ↔
      match ledger.absorption transaction target base with
      | .ok amount? => property (.ok ()) (ledger.absorbed target amount?)
      | .error fault => property (.error fault) ledger := by
  rw [absorb, Ledger.absorption, ends_bind, ends_ask]
  cases ledger.transactionValue transaction (some target) base with
  | error _ => exact .rfl
  | ok sum =>
    simp only [ok_bind, ends_bind]
    cases found : ledger.split target with
    | error fault => simp only [applyWorth, ends_bind, ends_ask, found, error_bind]
    | ok split =>
      cases valued : ledger.valuation target split base with
      | error fault => simp only [applyWorth, ends_bind, ends_ask, found, valued, ok_bind, error_bind]
      | ok valuation =>
        rw [ends_applyWorth found valued]
        simp only [ok_bind, ends_read, ends_ite, ends_bind, ends_update, ends_ask, ends_raise,
          valued, Ledger.enforces_withAmount]
        generalize valuation.amountFor? split (-sum) = amount?
        obtain ⟨after, marked, account⟩ := Ledger.split_mark_withAmount found amount?
        have within := Ledger.accountOf?_eq (Ledger.split_eq_ok_iff.mp found)
        rw [marked]
        simp only [Ledger.absorbed, within, account]
        cases amount? with
        | none =>
          rw [Ledger.withAmount, found]
          simp only [Option.isSome_none, Option.isNone_none, Bool.not_false]
          split <;> exact .rfl
        | some _ =>
          simp only [Option.isSome_some, Option.isNone_some, Bool.not_true, Bool.false_and,
            Bool.false_eq_true, if_false]

/-- A pass does what `settlement` decides. -/
theorem ends_settle {lone : TransactionId → SplitId → Action α J Unit} {edited : SplitId}
    {property : Except Fault Unit → Ledger α J → Prop} :
    (settle lone edited).Ends ledger property ↔
      match ledger.settlement edited with
      | .ok .rest => property (.ok ()) ledger
      | .ok (.absorb transaction target base) =>
        match ledger.absorption transaction target base with
        | .ok amount? => property (.ok ()) (ledger.absorbed target amount?)
        | .error fault => property (.error fault) ledger
      | .ok (.pair transaction source) => (lone transaction source).Ends ledger property
      | .error fault => property (.error fault) ledger := by
  rw [settle_eq, ends_bind, ends_ask]
  rcases ledger.settlement edited with _ | _ | _ | _
  · exact .rfl
  · exact .rfl
  · exact ends_absorb
  · exact .rfl

/-! ## Counterparts -/

omit [Scalar α] in
/-- Entering the register of an unknown account changes nothing, and neither would the entry. -/
theorem ends_enterRegister {account : AccountId} {property : Except Fault Unit → Ledger α J → Prop} :
    (enterRegister account id).Ends ledger property ↔
      property (.ok ()) (ledger.registered account id) := by
  simp only [enterRegister, ends_bind, ends_read, ends_ite, ends_update, ends_report]
  split
  · exact .rfl
  · rename_i absent
    rw [Ledger.registered, Book.insertSplit, Table.modify_of_absent (by simpa using absent)]

end Action

namespace Ledger

variable {α J : Type} [Scalar α] {ledger : Ledger α J}

/-- The split that is numbered next. -/
def nextSplit (ledger : Ledger α J) : SplitId := ⟨Ident.ofNat ledger.minted⟩

/-- The ledger with the counterpart of a split at the end of its transaction. -/
def withCounterpart (ledger : Ledger α J) (transaction : TransactionId) (split : Split α) :
    Ledger α J :=
  let created := { ledger with
    splits := ledger.splits.insert ledger.nextSplit split.counterpart
    minted := ledger.minted + 1 }
  ((created.modifySplit ledger.nextSplit fun s => { s with parent := some transaction }).modifyTransaction
    transaction (·.push ledger.nextSplit)).mark ledger.nextSplit

/-- The ledger with a split entered into the register of its account, if it has one. -/
def enrolled (ledger : Ledger α J) (split : SplitId) : Option AccountId → Ledger α J
  | some account => (ledger.registered account split).recompute account
  | none => ledger

end Ledger

namespace Action

variable {α J : Type} [Scalar α] {ledger : Ledger α J}

/-- The counterpart is settled before it enters a register, and does not if that fails. -/
theorem ends_addCounterpart {transaction : TransactionId} {source : SplitId} {split : Split α}
    {property : Except Fault Unit → Ledger α J → Prop} (found : ledger.split source = .ok split) :
    (addCounterpart transaction source).Ends ledger property ↔
      (settle (fun _ _ => pure ()) ledger.nextSplit).Ends (ledger.withCounterpart transaction split)
        fun result after =>
          match result with
          | .ok () => property (.ok ()) (after.enrolled ledger.nextSplit split.account)
          | .error fault => property (.error fault) after := by
  simp only [addCounterpart, adopt, ends_bind, ends_ask, found, ends_mint, ends_update]
  refine iff_of_eq (congrArg _ (funext fun result => funext fun after => ?_))
  cases result with
  | error _ => rfl
  | ok _ =>
    cases split.account with
    | none => rfl
    | some account => exact propext (by rw [ends_bind, ends_enterRegister]; exact .rfl)

end Action

end DoubleEntry
