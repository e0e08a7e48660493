import DoubleEntry.Proofs.Appending

/-! # What a rejected request leaves behind

A request is rejected if it ends with an `invalid` fault. Most commands reject before they change anything,
or not at all (`Action.Grants`). What is left are the commands that rebalance after an edit of their own: if
the split that is to take up the difference cannot, they are rejected with their edit in place.
`Command.leftover` is the ledger with that edit, and nothing else is ever left.
-/

namespace DoubleEntry

open DoubleEntry.Action Ledger

/-- The fault that what was asked for cannot be had. -/
def Fault.isRejection : Fault → Bool
  | .invalid _ => true
  | _ => false

/-- An answer that turns nothing down. -/
def Granted {β : Type} (answer : Except Fault β) : Prop :=
  ∀ fault, answer = .error fault → fault.isRejection = false

section Answers

variable {β γ : Type} {answer : Except Fault β} {next : β → Except Fault γ} {fault : Fault}
  {cause : Invalid}

theorem granted_ok {value : β} : Granted (.ok value : Except Fault β) := nofun

theorem granted_error (other : fault.isRejection = false) : Granted (.error fault : Except Fault β) :=
  fun _ same => Except.error.inj same ▸ other

theorem Granted.ne_invalid (granted : Granted answer) : answer ≠ .error (.invalid cause) :=
  fun rejected => Bool.noConfusion (granted (.invalid cause) rejected)

theorem Granted.bind (first : Granted answer) (rest : ∀ value, Granted (next value)) :
    Granted (answer >>= next) := by
  cases answer with
  | error fault => exact granted_error (first fault rfl)
  | ok value => exact rest value

/-- If the first question is granted, it is the one after it that is turned down. -/
theorem Granted.goesOn (first : Granted answer)
    (rejected : (answer >>= next) = .error (.invalid cause)) :
    ∃ value, answer = .ok value ∧ next value = .error (.invalid cause) := by
  cases answer with
  | error fault =>
    rw [error_bind] at rejected
    exact ((granted_error (first fault rfl)).ne_invalid rejected).elim
  | ok value => exact ⟨value, rfl, rejected⟩

theorem Granted.ite {condition : Prop} [Decidable condition] {other : Except Fault β}
    (left : Granted answer) (right : Granted other) :
    Granted (if condition then answer else other) := by
  split
  · exact left
  · exact right

end Answers

namespace Ledger

variable {α J : Type} {ledger : Ledger α J} {id : SplitId} {owner : TransactionId} {split : Split α}
  {base : Option Commodity}

theorem granted_split : Granted (ledger.split id) := by
  unfold Ledger.split
  cases ledger.split? id with
  | none => exact granted_error rfl
  | some _ => exact granted_ok

theorem granted_transaction : Granted (ledger.transaction owner) := by
  unfold Ledger.transaction
  cases ledger.transaction? owner with
  | none => exact granted_error rfl
  | some _ => exact granted_ok

theorem granted_account {account : AccountId} : Granted (ledger.account account) := by
  unfold Ledger.account
  cases ledger.account? account with
  | none => exact granted_error rfl
  | some _ => exact granted_ok

theorem granted_checkOpen : Granted (ledger.checkOpen owner) :=
  granted_transaction.bind fun _ => granted_ok.ite (granted_error rfl)

theorem granted_checkEditable : Granted (ledger.checkEditable id) := by
  refine granted_split.bind fun entry => ?_
  cases entry.parent with
  | none => exact granted_ok
  | some owner => exact granted_checkOpen

theorem granted_snapshot : Granted (ledger.snapshot owner) :=
  granted_transaction.bind fun _ => granted_ok

theorem granted_accountOf : Granted (ledger.accountOf id split) := by
  unfold Ledger.accountOf
  cases split.account with
  | none => exact granted_ok
  | some account =>
    dsimp only
    cases ledger.account? account with
    | none => exact granted_error rfl
    | some _ => exact granted_ok

theorem granted_valuation : Granted (ledger.valuation id split base) := by
  refine granted_accountOf.bind fun place => ?_
  cases place with
  | none => exact (granted_error rfl).ite granted_ok
  | some _ => exact granted_ok

theorem granted_narrowBy {start : AccountId × Account} (splits : List SplitId) (candidate : Candidate) :
    Granted (ledger.narrowBy start candidate splits) := by
  induction splits generalizing candidate with
  | nil => exact granted_ok
  | cons entry rest ih =>
    refine granted_split.bind fun split => granted_accountOf.bind fun place => ?_
    cases place with
    | none => exact (granted_error rfl).ite (ih candidate)
    | some _ => exact (granted_error rfl).ite (ih _)

theorem granted_commonCommodity : Granted (ledger.commonCommodity owner id) := by
  refine granted_transaction.bind fun transaction => granted_split.bind fun split =>
    granted_accountOf.bind fun place => ?_
  cases place with
  | none => exact (granted_error rfl).ite granted_ok
  | some _ => exact (granted_narrowBy _ _).bind fun _ => granted_ok

variable [Scalar α]

theorem granted_addWorths (splits : List SplitId) (sum : α) :
    Granted (ledger.addWorths owner base sum splits) := by
  induction splits generalizing sum with
  | nil => exact granted_ok
  | cons entry rest ih =>
    refine granted_split.bind fun split => granted_valuation.bind fun valuation => ?_
    cases valuation.worth? split with
    | none => exact granted_error rfl
    | some worth => exact ih (sum + worth)

theorem granted_transactionValue {skip : Option SplitId} :
    Granted (ledger.transactionValue owner skip base) :=
  granted_transaction.bind fun _ => granted_addWorths _ _

theorem granted_imbalance : Granted (ledger.imbalance owner) := by
  refine granted_transaction.bind fun transaction => ?_
  cases transaction.source? with
  | none => exact granted_ok
  | some source => exact granted_commonCommodity.bind fun _ => granted_transactionValue

theorem granted_isBalanced : Granted (ledger.isBalanced owner) :=
  granted_imbalance.bind fun _ => granted_ok

/-- What a pass has to do is found out without turning anything down. -/
theorem granted_settlement : Granted (ledger.settlement id) := by
  refine granted_split.bind fun entry => ?_
  cases entry.parent with
  | none => exact granted_ok
  | some parent =>
    refine granted_transaction.bind fun transaction => granted_ok.ite ?_
    cases transaction.splits with
    | nil => exact granted_ok
    | cons source others =>
      refine granted_commonCommodity.bind fun base => granted_ok.ite ?_
      cases others with
      | cons _ _ => exact granted_ok
      | nil => exact granted_split.bind fun _ => granted_ok.ite granted_ok

end Ledger

/-! ## The one cause after a change -/

/-- A split was to take up a sum that it cannot take up. -/
def Invalid.IsAbsorption (cause : Invalid) : Prop :=
  ∃ target owner price, cause = .cannotAbsorb target owner price

/-- An answer that turns nothing down but that a split takes up a sum. -/
def Absorbing {β : Type} (answer : Except Fault β) : Prop :=
  ∀ cause, answer = .error (.invalid cause) → cause.IsAbsorption

theorem Granted.absorbing {β : Type} {answer : Except Fault β} (granted : Granted answer) :
    Absorbing answer :=
  fun _ rejected => (granted.ne_invalid rejected).elim

section Causes

variable {α J : Type} [Scalar α] {ledger : Ledger α J}

theorem Ledger.absorbing_absorption {owner : TransactionId} {target : SplitId}
    {base : Option Commodity} : Absorbing (ledger.absorption owner target base) := by
  intro cause rejected
  obtain ⟨sum, -, rejected⟩ := granted_transactionValue.goesOn rejected
  obtain ⟨split, -, rejected⟩ := granted_split.goesOn rejected
  obtain ⟨valuation, -, rejected⟩ := granted_valuation.goesOn rejected
  dsimp only at rejected
  split at rejected
  · rw [Except.error.injEq, Fault.invalid.injEq] at rejected
    exact ⟨target, owner, _, rejected.symm⟩
  · cases rejected

namespace Action

theorem absorbing_settle {lone : TransactionId → SplitId → Action α J Unit}
    (counterpart : ∀ owner source, (lone owner source).Ends ledger fun result _ => Absorbing result)
    (edited : SplitId) : (settle lone edited).Ends ledger fun result _ => Absorbing result := by
  rw [ends_settle]
  rcases decided : ledger.settlement edited with fault | _ | ⟨owner, target, base⟩ | ⟨owner, source⟩
  · exact (granted_error (granted_settlement fault decided)).absorbing
  · exact granted_ok.absorbing
  · dsimp only
    cases absorbs : ledger.absorption owner target base with
    | error fault =>
      intro cause rejected
      rw [Except.error.injEq] at rejected
      exact absorbing_absorption cause (rejected ▸ absorbs)
    | ok _ => exact granted_ok.absorbing
  · exact counterpart owner source

/-- Rebalancing is rejected for no other cause. -/
theorem absorbing_rebalanceSplit (edited : SplitId) :
    (rebalanceSplit edited).Ends ledger fun result _ => Absorbing result := by
  apply absorbing_settle
  intro owner source
  cases isSplit : ledger.split source with
  | error fault =>
    rw [addCounterpart, ends_bind, ends_ask, isSplit]
    exact (granted_error (granted_split fault isSplit)).absorbing
  | ok entry =>
    have settles : (settle (fun _ _ => pure ()) ledger.nextSplit).Ends
        (ledger.withCounterpart owner entry) fun result _ => Absorbing result :=
      absorbing_settle (fun _ _ => ends_pure.mpr granted_ok.absorbing) _
    rw [ends_addCounterpart isSplit]
    refine settles.imp fun result _ absorbing => ?_
    cases result with
    | error _ => exact absorbing
    | ok _ => exact granted_ok.absorbing

end Action

end Causes

/-! ## Actions that reject nothing -/

namespace Action

variable {α J β γ : Type} {action : Action α J β} {next : β → Action α J γ} {ledger : Ledger α J}
  {fault : Fault}

/-- The action is never rejected. -/
def Grants (action : Action α J β) : Prop := ∀ ledger, Granted (action ledger).result

theorem grants_pure {value : β} : Grants (pure value : Action α J β) := fun _ => granted_ok

theorem grants_raise (other : fault.isRejection = false) :
    Grants (raise fault : Action α J β) := fun _ => granted_error other

theorem grants_fail (other : fault.isRejection = false) :
    Grants (fail fault : Action α J β) := fun _ => granted_error other

theorem grants_report {notice : Notice} : Grants (report notice : Action α J Unit) :=
  fun _ => granted_ok

theorem grants_read {view : Ledger α J → β} : Grants (read view) := fun _ => granted_ok

theorem grants_update {change : Ledger α J → Ledger α J} : Grants (update change) :=
  fun _ => granted_ok

theorem grants_ask {query : Ledger α J → Except Fault β} (answers : ∀ ledger, Granted (query ledger)) :
    Grants (ask query) := by
  intro ledger
  unfold ask
  cases answer : query ledger with
  | error fault => exact granted_error (answers ledger fault answer)
  | ok _ => exact granted_ok

theorem Grants.bind (first : Grants action) (rest : ∀ value, Grants (next value)) :
    Grants (action >>= next) := by
  intro ledger
  change Granted (andThen action next ledger).result
  unfold andThen
  dsimp only
  cases result : (action ledger).result with
  | error fault => exact granted_error (first ledger fault result)
  | ok value => exact rest value _

theorem Grants.ite {condition : Prop} [Decidable condition] {other : Action α J β}
    (left : Grants action) (right : Grants other) :
    Grants (if condition then action else other) := by
  split
  · exact left
  · exact right

theorem grants_forM {ι : Type} {items : List ι} {step : ι → Action α J Unit}
    (each : ∀ item, Grants (step item)) : Grants (items.forM step) := by
  induction items with
  | nil => exact grants_pure
  | cons item rest ih => exact (each item).bind fun _ => ih

section Looking

variable {id : SplitId} {owner : TransactionId} {rest : Split α → Action α J β}
  {goesOn : Transaction → Action α J β}

/-- To look a split up is not what is turned down. -/
theorem grants_split_bind (each : ∀ entry, Grants (rest entry)) :
    Grants (ask (·.split id) >>= rest) :=
  (grants_ask fun _ => granted_split).bind each

theorem grants_transaction_bind (each : ∀ transaction, Grants (goesOn transaction)) :
    Grants (ask (·.transaction owner) >>= goesOn) :=
  (grants_ask fun _ => granted_transaction).bind each

end Looking

/-! ### Guards and single steps -/

theorem grants_ensureOpen (id : TransactionId) : Grants (ensureOpen (α := α) (J := J) id) := by
  rw [ensureOpen_eq]
  exact grants_ask fun _ => granted_checkOpen

theorem grants_ensureEditable (id : SplitId) : Grants (ensureEditable (α := α) (J := J) id) := by
  rw [ensureEditable_eq]
  exact grants_ask fun _ => granted_checkEditable

theorem grants_mint : Grants (mint (α := α) (J := J)) :=
  grants_read.bind fun _ => grants_update.bind fun _ => grants_pure

theorem grants_enterRegister (account : AccountId) (id : SplitId) :
    Grants (enterRegister (α := α) (J := J) account id) :=
  grants_read.bind fun _ => grants_update.ite grants_report

/-- What a journal fails with is a fault of its own. -/
theorem grants_toJournal (call : J → Except JournalFault Unit × J) :
    Grants (toJournal (α := α) call) := by
  intro ledger
  unfold toJournal
  rcases call ledger.journal with ⟨_ | _, journal⟩
  · exact granted_error rfl
  · exact granted_ok

theorem grants_writeRecord [Journal J α] (kind : EventKind) (id : TransactionId) :
    Grants (writeRecord (J := J) kind id) :=
  (grants_ask fun _ => granted_snapshot).bind fun _ => grants_read.bind fun _ =>
    grants_mint.bind fun _ => grants_toJournal _

/-! ### Fields -/

theorem grants_editSplit (id : SplitId) (change : Split α → Split α) :
    Grants (editSplit (J := J) id change) :=
  (grants_ensureEditable id).bind fun _ => grants_update.bind fun _ => grants_update

theorem grants_editTransaction (id : TransactionId) (change : Transaction → Transaction) :
    Grants (editTransaction (α := α) (J := J) id change) :=
  (grants_ensureOpen id).bind fun _ => grants_update.bind fun _ => grants_update

theorem grants_reposition (id : SplitId) : Grants (reposition (α := α) (J := J) id) := by
  refine grants_read.bind fun account => ?_
  cases account with
  | none => exact grants_pure
  | some account => exact grants_update.bind fun _ => grants_enterRegister account id

theorem grants_setPosted (id : TransactionId) (date : Instant) :
    Grants (setPosted (α := α) (J := J) id date) :=
  (grants_ensureOpen id).bind fun _ => grants_update.bind fun _ => grants_read.bind fun _ =>
    (grants_forM grants_reposition).bind fun _ => grants_update

theorem grants_setDates (id : TransactionId) (date : Instant) :
    Grants (setDates (α := α) (J := J) id date) :=
  (grants_ensureOpen id).bind fun _ => grants_update.bind fun _ => grants_setPosted id date

theorem grants_setCaptionOf (id : SplitId) (caption : Caption) (text : String) :
    Grants (setCaptionOf (α := α) (J := J) id caption text) :=
  grants_split_bind fun _ => grants_update.bind fun _ => grants_update

variable [Scalar α]

theorem grants_setReconcile (id : SplitId) (state : Reconcile) :
    Grants (setReconcile (α := α) (J := J) id state) :=
  (grants_editSplit id _).bind fun _ => grants_split_bind fun _ => grants_update

theorem grants_applyWorth (id : SplitId) (value : α) (base : Option Commodity) :
    Grants (applyWorth (J := J) id value base) := by
  refine grants_split_bind fun entry => (grants_ask fun _ => granted_valuation).bind fun valuation => ?_
  cases valuation with
  | priced =>
    exact (grants_report.bind fun _ => grants_pure).ite (grants_update.bind fun _ => grants_pure)
  | shares => exact grants_update.bind fun _ => grants_pure
  | inexpressible => exact grants_report.bind fun _ => grants_pure

theorem grants_setCaption (id : TransactionId) (caption : Caption) (text : String) :
    Grants (setCaption (α := α) (J := J) id caption text) := by
  have sets (entry : SplitId) := grants_setCaptionOf (α := α) (J := J) entry caption text
  refine (grants_ensureOpen id).bind fun _ => grants_transaction_bind fun transaction => ?_
  rcases transaction.splits with _ | ⟨first, _ | ⟨second, _ | ⟨third, rest⟩⟩⟩
  · exact grants_raise rfl
  · refine grants_read.bind fun _ => Grants.ite (grants_split_bind fun _ => ?_) (sets first)
    exact (sets first).ite (grants_raise rfl)
  · exact (sets first).bind fun _ => sets second
  · exact sets first

theorem grants_splitWorth (id : SplitId) (base : Option Commodity) :
    Grants (splitWorth (α := α) (J := J) id base) := by
  refine grants_read.bind fun found => ?_
  cases found with
  | none => exact grants_pure
  | some entry =>
    refine (grants_ask fun _ => granted_valuation).bind fun valuation => ?_
    cases valuation.worth? entry with
    | some _ => exact grants_pure
    | none => exact grants_report.bind fun _ => grants_pure

omit [Scalar α] in
theorem grants_otherSplit (id : SplitId) : Grants (otherSplit (α := α) (J := J) id) := by
  refine grants_read.bind fun found => ?_
  cases found with
  | none => exact grants_pure
  | some entry =>
    dsimp only
    cases entry.parent with
    | none => exact grants_report.bind fun _ => grants_fail rfl
    | some owner => exact grants_transaction_bind fun _ => grants_pure

/-! ### Membership and sessions -/

theorem grants_createSplit : Grants (createSplit (α := α) (J := J)) :=
  grants_mint.bind fun _ => grants_update.bind fun _ => grants_pure

theorem grants_createTransaction : Grants (createTransaction (α := α) (J := J)) :=
  grants_mint.bind fun _ => grants_mint.bind fun _ => grants_update.bind fun _ => grants_pure

theorem grants_enterAccount (account : AccountId) (id : SplitId) :
    Grants (enterAccount (α := α) (J := J) account id) :=
  (grants_ask fun _ => granted_account).bind fun _ => (grants_ensureEditable id).bind fun _ =>
    grants_update.bind fun _ => grants_update.bind fun _ =>
      (grants_enterRegister account id).bind fun _ => grants_update

theorem grants_leaveAccount (id : SplitId) : Grants (leaveAccount (α := α) (J := J) id) :=
  (grants_ensureEditable id).bind fun _ => grants_update.bind fun _ => grants_update

variable [Journal J α]

omit [Scalar α] in
theorem grants_beginEdit (id : TransactionId) (defer : Bool) :
    Grants (beginEdit (α := α) (J := J) id defer) :=
  grants_transaction_bind fun _ => grants_update.bind fun _ => (grants_toJournal _).bind fun _ =>
    grants_writeRecord _ id

theorem grants_closeEdit (id : TransactionId) : Grants (closeEdit (α := α) (J := J) id) :=
  grants_transaction_bind fun _ => grants_update.bind fun _ => grants_update.bind fun _ =>
    grants_update.bind fun _ => grants_writeRecord _ id

theorem grants_discardTransaction (id : TransactionId) :
    Grants (discardTransaction (α := α) (J := J) id) :=
  (grants_writeRecord _ id).bind fun _ => grants_transaction_bind fun _ => grants_update.bind fun _ =>
    grants_update

end Action

/-! ## What is left -/

/-- How an action ends that makes an edit of its own and rebalances after: if it is rejected, the ledger is
as it was, or it has the edit and is rejected when it is rebalanced. -/
def Ledger.Leaves {α J β : Type} [Scalar α] (ledger : Ledger α J) (edited? : Option (Ledger α J))
    (result : Except Fault β) (after : Ledger α J) : Prop :=
  after.minted ≤ 2 ^ 128 → ∀ cause, result = .error (.invalid cause) →
    after = ledger ∨ edited? = some after ∧
      ∃ edited, (rebalanceSplit edited after).result = .error (.invalid cause)

/-- The ledger in which a command has made its own edit before it rebalances. -/
def Command.leftover {α J : Type} [Scalar α] (ledger : Ledger α J) : Command α → Option (Ledger α J)
  | .setPriceAndAmount split price amount =>
    some ((ledger.mark split).modifySplit split fun s => { s with price, amount })
  | .setPrice split price => some ((ledger.mark split).modifySplit split fun s => { s with price })
  | .setAmount split amount => some ((ledger.mark split).modifySplit split fun s => { s with amount })
  | .setValue split value => some ((ledger.mark split).modifySplit split fun s =>
      { s with amount := value / ledger.price split })
  | .appendSplit owner split => some (((withdraw owner split ledger).ledger.joined owner split).mark split)
  | .commitEdit owner => some (ledger.resumed owner)
  | .destroySplit split => (ledger.parentOf? split).map fun owner => ledger.without owner split
  | _ => none

namespace Action

section Leaving

variable {α J β γ : Type} [Scalar α] {ledger : Ledger α J} {edited? : Option (Ledger α J)}
  {action : Action α J β} {next : β → Action α J γ}

theorem leaves_raise {fault : Fault} :
    (raise fault : Action α J β).Ends ledger (ledger.Leaves edited?) :=
  fun _ _ _ => .inl rfl

theorem Grants.leaves (grants : Grants action) (start : Ledger α J) :
    action.Ends start (ledger.Leaves edited?) :=
  fun _ _ rejected => ((grants start).ne_invalid rejected).elim

theorem leaves_of_refused (refused : action.Ends ledger fun result after =>
      after.minted ≤ 2 ^ 128 → ∀ fault, result = .error fault → after = ledger) :
    action.Ends ledger (ledger.Leaves edited?) :=
  fun fresh cause rejected => .inl (refused fresh (.invalid cause) rejected)

/-- A question leaves the ledger as it was. -/
theorem leaves_ask {query : Ledger α J → Except Fault β}
    (goes : ∀ value, query ledger = .ok value → (next value).Ends ledger (ledger.Leaves edited?)) :
    (ask query >>= next).Ends ledger (ledger.Leaves edited?) := by
  rw [ends_bind, ends_ask]
  cases answer : query ledger with
  | error _ => exact fun _ _ _ => .inl rfl
  | ok value => exact goes value answer

theorem leaves_finite {role : NumberRole} {number : α} {next : Unit → Action α J Unit}
    (goes : (next ()).Ends ledger (ledger.Leaves edited?)) :
    (ensureFinite role number >>= next).Ends ledger (ledger.Leaves edited?) := by
  rw [ensureFinite_eq, ends_bind, ends_ite]
  split
  · exact goes
  · exact leaves_raise

theorem leaves_reply {reply : β → γ} (leaves : action.Ends ledger (ledger.Leaves edited?)) :
    (action >>= fun value => pure (reply value)).Ends ledger (ledger.Leaves edited?) := by
  rw [ends_bind]
  refine leaves.imp fun result after leaves => ?_
  cases result with
  | error fault =>
    intro fresh cause rejected
    rw [Except.error.injEq] at rejected
    exact leaves fresh cause (congrArg _ rejected)
  | ok _ => exact fun _ _ => nofun

theorem leaves_discardSplit (id : SplitId) :
    (discardSplit id).Ends ledger (ledger.Leaves edited?) := by
  refine leaves_ask fun entry _ => ?_
  cases entry.parent with
  | some _ => exact leaves_raise
  | none => exact grants_update.leaves ledger

theorem leaves_removeSplit (owner : TransactionId) (id : SplitId) :
    (removeSplit owner id).Ends ledger (ledger.Leaves edited?) := by
  rw [removeSplit, ensureOpen_eq]
  refine leaves_ask fun _ _ => leaves_ask fun transaction _ => ?_
  simp only [ends_ite]
  split
  · exact leaves_raise
  · split
    · exact leaves_raise
    · exact (grants_update.bind fun _ => grants_update.bind fun _ => grants_update).leaves ledger

theorem leaves_setDay (id : TransactionId) (day month : Nat) (year : Int) :
    (setDay id day month year).Ends ledger (ledger.Leaves edited?) := by
  unfold setDay
  split
  · exact (grants_setDates id _).leaves ledger
  · exact leaves_raise

theorem leaves_setSplitWorth (id : SplitId) (value : α) (base : Option Commodity) :
    (setSplitWorth id value base).Ends ledger (ledger.Leaves edited?) :=
  leaves_finite <| Grants.leaves ((grants_ensureEditable id).bind fun _ =>
    (grants_applyWorth id value base).bind fun _ => grants_update) ledger

end Leaving

/-! ### Rebalancing after an edit -/

section Rebalancing

variable {α J : Type} [Scalar α] [ZeroPriced α] {ledger edit : Ledger α J} {owner : TransactionId}
  {split : SplitId}

/-- Rebalancing that is rejected leaves the edit that came before it, and is rejected again. -/
theorem leaves_rebalanceSplit
    (new : edit.minted < 2 ^ 128 → edit.split? edit.nextSplit = none) (edited : SplitId) :
    (rebalanceSplit edited).Ends edit (ledger.Leaves (some edit)) := by
  intro fresh cause rejected
  have same := ends_rebalanceSplit_refused new edited fresh (.invalid cause) rejected
  refine .inr ⟨congrArg some same.symm, edited, ?_⟩
  rwa [same]

theorem leaves_rebalanceTransaction
    (new : edit.minted < 2 ^ 128 → edit.split? edit.nextSplit = none) (owner : TransactionId) :
    (rebalanceTransaction owner).Ends edit (ledger.Leaves (some edit)) := by
  rw [rebalanceTransaction, ends_bind, ends_ask]
  cases found : edit.transaction owner with
  | error fault =>
    intro _ cause rejected
    rw [Except.error.injEq] at rejected
    exact (granted_transaction.ne_invalid (rejected ▸ found)).elim
  | ok transaction =>
    dsimp only
    cases transaction.source? with
    | none => exact grants_pure.leaves edit
    | some source => exact leaves_rebalanceSplit new source

theorem leaves_editNumbers (owned : ledger.Owned) {change : Split α → Split α}
    (keeps : Split.KeepsLinks change) :
    (editNumbers split change).Ends ledger
      (ledger.Leaves (some ((ledger.mark split).modifySplit split change))) := by
  rw [editNumbers, ensureEditable_eq]
  refine leaves_ask fun _ _ => ?_
  rw [ends_update_bind, ends_update_bind]
  have sound := Ownership.ofLinks.modifySplit keeps split _
    (Ownership.ofLinks.alike (ledger.mark_alike split) fun _ => owned)
  exact leaves_rebalanceSplit (fun small => (sound small.le).new small) split

theorem leaves_setValue (owned : ledger.Owned) (value : α) :
    (setValue split value).Ends ledger
      (ledger.Leaves ((Command.setValue split value).leftover ledger)) := by
  rw [setValue]
  refine leaves_finite ?_
  rw [ensureEditable_eq]
  refine leaves_ask fun _ _ => leaves_ask fun entry isSplit => ?_
  have price : ledger.price split = entry.price := by
    rw [price, split_eq_ok_iff.mp isSplit]
    rfl
  rw [ends_ite, Command.leftover, price]
  split
  · exact leaves_raise
  · exact leaves_editNumbers owned (by constructor <;> exact fun _ => rfl)

theorem leaves_appendSplit (owned : ledger.Owned) :
    (appendSplit owner split).Ends ledger
      (ledger.Leaves (some (((withdraw owner split ledger).ledger.joined owner split).mark split))) := by
  have withdraws := ends_withdraw owned owner split
  unfold Ends at withdraws ⊢
  cases withdrawn : (withdraw owner split ledger).result with
  | error _ =>
    obtain ⟨-, after⟩ := appendSplit_of_refused withdrawn
    rw [withdrawn] at withdraws
    rw [after]
    exact fun fresh _ _ => .inl (withdraws fresh)
  | ok _ =>
    obtain ⟨same, after⟩ := appendSplit_of_withdrawn withdrawn
    rw [withdrawn] at withdraws
    rw [same, after]
    apply leaves_rebalanceSplit
    intro small
    have middle := (mark_alike ((withdraw owner split ledger).ledger.joined owner split) split).minted
    rw [middle] at small
    exact (withdraws small.le).owned.new (middle ▸ small)

variable [Journal J α]

theorem leaves_commitEdit (owned : ledger.Owned) :
    (commitEdit owner).Ends ledger (ledger.Leaves (some (ledger.resumed owner))) := by
  rw [commitEdit_eq, ensureOpen_eq]
  refine leaves_ask fun _ _ => ?_
  rw [setEditState, ends_update_bind, ends_bind]
  have rebalances : (rebalanceTransaction owner).Ends (ledger.resumed owner)
      (ledger.Leaves (some (ledger.resumed owner))) :=
    leaves_rebalanceTransaction (owned.resumed owner).new owner
  refine rebalances.imp fun result after leaves => ?_
  cases result with
  | error _ => exact leaves
  | ok _ => exact (grants_closeEdit owner).leaves after

theorem leaves_destroySplit (owned : ledger.Owned) :
    (destroySplit split).Ends ledger
      (ledger.Leaves ((ledger.parentOf? split).map fun owner => ledger.without owner split)) := by
  refine leaves_ask fun entry isSplit => ?_
  rw [split_eq_ok_iff] at isSplit
  cases parent : entry.parent with
  | none =>
    have detached : Grants (fail (.detached split) : Action α J Unit) := grants_fail rfl
    exact (grants_report.bind fun _ => detached).leaves ledger
  | some owner =>
    have named : ledger.ownership.named split = some (some owner) :=
      parent_eq_iff.mpr ⟨entry, isSplit, parent⟩
    dsimp only
    rw [parentOf?_eq_some_iff.mpr named, Option.map_some, ensureOpen_eq]
    refine leaves_ask fun _ _ => leaves_ask fun transaction isOwner => ?_
    rw [transaction_eq_ok_iff] at isOwner
    simp only [ends_ite]
    split
    · exact leaves_raise
    · split
      · exact (grants_discardTransaction owner).leaves ledger
      · have sound := Ownership.owned_without owned named isOwner (by omega)
        rw [ends_update_bind, ends_update_bind, ends_update_bind]
        exact leaves_rebalanceTransaction sound.new owner

/-! ### All commands -/

theorem leaves_act (owned : ledger.Owned) (command : Command α) :
    (command.act (J := J)).Ends ledger (ledger.Leaves (command.leftover ledger)) := by
  have granted {β : Type} {action : Action α J β} {reply : β → Reply α} {edited? : Option (Ledger α J)}
      (grants : Grants action) :
      (action >>= fun value => pure (reply value)).Ends ledger (ledger.Leaves edited?) :=
    (grants.bind fun _ => grants_pure).leaves ledger
  cases command with
  | createSplit => exact granted grants_createSplit
  | createTransaction => exact granted grants_createTransaction
  | discardSplit split => exact leaves_reply (leaves_discardSplit split)
  | setPriceAndAmount split price amount =>
    exact leaves_reply <| leaves_finite <| leaves_finite <|
      leaves_editNumbers owned (by constructor <;> exact fun _ => rfl)
  | setPrice split _ | setAmount split _ =>
    exact leaves_reply <| leaves_finite <|
      leaves_editNumbers owned (by constructor <;> exact fun _ => rfl)
  | setValue split value => exact leaves_reply (leaves_setValue owned value)
  | setMemo split _ | setAction split _ | setSplitDocref split _ | setReconciledOn split _ =>
    exact granted (grants_editSplit split _)
  | setReconcile split state => exact granted (grants_setReconcile split state)
  | setNum transaction _ | setDescription transaction _ | setDocref transaction _
  | setEntered transaction _ => exact granted (grants_editTransaction transaction _)
  | setPosted transaction date => exact granted (grants_setPosted transaction date)
  | setDay transaction day month year => exact leaves_reply (leaves_setDay transaction day month year)
  | setToday transaction =>
    exact granted (grants_read.bind fun _ => grants_setDates transaction _)
  | setCaption transaction caption text => exact granted (grants_setCaption transaction caption text)
  | appendSplit transaction split => exact leaves_reply (leaves_appendSplit owned)
  | removeSplit transaction split => exact leaves_reply (leaves_removeSplit transaction split)
  | enterAccount account split => exact granted (grants_enterAccount account split)
  | leaveAccount split => exact granted (grants_leaveAccount split)
  | otherSplit split => exact granted (grants_otherSplit split)
  | beginEdit transaction defer => exact granted (grants_beginEdit transaction defer)
  | commitEdit transaction => exact leaves_reply (leaves_commitEdit owned)
  | destroyTransaction transaction =>
    exact granted ((grants_ensureOpen transaction).bind fun _ => grants_discardTransaction transaction)
  | destroySplit split => exact leaves_reply (leaves_destroySplit owned)
  | splitWorth split base => exact granted (grants_splitWorth split base)
  | setSplitWorth split value base => exact leaves_reply (leaves_setSplitWorth split value base)
  | transactionValue transaction skip base =>
    exact granted (grants_ask fun _ => granted_transactionValue)
  | commonCommodity transaction trigger =>
    exact granted (grants_ask fun _ => granted_commonCommodity)
  | imbalance transaction =>
    exact granted (grants_ask fun _ => granted_imbalance)
  | isBalanced transaction =>
    exact granted (grants_ask fun _ => granted_isBalanced)
  | rebalanceSplit split =>
    exact leaves_reply (leaves_of_refused (ends_rebalanceSplit_refused owned.new split))
  | rebalanceTransaction transaction =>
    exact leaves_reply (leaves_of_refused (ends_rebalanceTransaction_refused owned.new transaction))

end Rebalancing

end Action

section Rejecting

variable {α J : Type} [Scalar α] [ZeroPriced α] [Journal J α] {ledger : Ledger α J}

/-- A command that is rejected, in any ledger that can be reached, leaves the ledger exactly as it was, unless
it was to balance a transaction after an edit of its own and the split that was to take up the sum could
not. Then the ledger has that edit and no other, and is rejected for the same cause when it is rebalanced. -/
theorem Reachable.rejection_leaves (reached : Reachable (fun _ => True) ledger) (command : Command α)
    (cause : Invalid) (rejected : (command.run ledger).result = .error (.invalid cause))
    (fresh : (command.run ledger).ledger.minted ≤ 2 ^ 128) :
    let after := (command.run ledger).ledger
    after = ledger ∨
      (∃ target owner price, cause = .cannotAbsorb target owner price) ∧
        command.leftover ledger = some after ∧
        ∃ edited, (rebalanceSplit edited after).result = .error (.invalid cause) := by
  rcases leaves_act reached.owned command fresh cause rejected with same | ⟨left, edited, again⟩
  · exact .inl same
  · exact .inr ⟨absorbing_rebalanceSplit edited cause again, left, edited, again⟩

omit [Scalar α] [ZeroPriced α] [Journal J α] in
/-- The last split of a transaction stays in it; a split that is destroyed is gone. -/
theorem Reachable.rejection_leaves_threeSided :
    let removal : Command Float := .removeSplit ⟨.ofNat 7⟩ ⟨.ofNat 6⟩
    let destruction : Command Float := .destroySplit ⟨.ofNat 5⟩
    (removal.run threeSided).ledger = threeSided ∧
      destruction.leftover threeSided = some (destruction.run threeSided).ledger := by
  intro removal destruction
  have alone : (removal.run threeSided).result =
      .error (.invalid (.onlySplit ⟨.ofNat 6⟩ ⟨.ofNat 7⟩)) := by decide +kernel
  have stuck : (destruction.run threeSided).result =
      .error (.invalid (.cannotAbsorb ⟨.ofNat 4⟩ ⟨.ofNat 2⟩ "0")) := by decide +kernel
  constructor
  · rcases Reachable.rejection_leaves reachable_threeSided removal _ alone (by decide +kernel) with
      same | ⟨⟨_, _, _, absorption⟩, -⟩
    · exact same
    · cases absorption
  · rcases Reachable.rejection_leaves reachable_threeSided destruction _ stuck (by decide +kernel) with
      same | ⟨-, left, -⟩
    · have gone : (destruction.run threeSided).ledger.split? ⟨.ofNat 5⟩ = none := by decide +kernel
      have stands : (threeSided.split? ⟨.ofNat 5⟩).isSome = true := by decide +kernel
      rw [same] at gone
      rw [gone] at stands
      cases stands
    · exact left

omit [Scalar α] [ZeroPriced α] [Journal J α] in
/-- Split 4, at a price of zero, takes up nothing. The amount of split 1 is rejected and stays, and split 5
is gone although its destruction is rejected. -/
theorem Reachable.rejection_leaves_trace :
    let edit : Command Float := .setAmount ⟨.ofNat 1⟩ 50
    let destruction : Command Float := .destroySplit ⟨.ofNat 5⟩
    let cause := Invalid.cannotAbsorb ⟨.ofNat 4⟩ ⟨.ofNat 2⟩ "0"
    Reachable (fun _ => True) threeSided ∧
      (edit.run threeSided).result = .error (.invalid cause) ∧
      threeSided.amount ⟨.ofNat 1⟩ = -10 ∧ (edit.run threeSided).ledger.amount ⟨.ofNat 1⟩ = 50 ∧
      (destruction.run threeSided).result = .error (.invalid cause) ∧
      (threeSided.split? ⟨.ofNat 5⟩).isSome = true ∧
      (destruction.run threeSided).ledger.split? ⟨.ofNat 5⟩ = none := by
  refine ⟨reachable_threeSided, ?_, ?_, ?_, ?_, ?_, ?_⟩ <;> decide +kernel

end Rejecting

end DoubleEntry
