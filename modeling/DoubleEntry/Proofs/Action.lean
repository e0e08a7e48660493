import DoubleEntry.Ledger.Guard

/-! # How actions end

What counts of an action is its result and the ledger that it leaves. `Action.Ends` states a property
of both for one start, and has one law for every way of putting actions together. `Action.Keeps` is
the case of a property of ledgers alone that is passed on, whether or not the action fails.

The guards ask and change nothing, so each is a single question: `ensureOpen_eq`, `ensureEditable_eq`.
-/

namespace DoubleEntry

section Answers

variable {β γ : Type} {fault : Fault} {answer : Except Fault β} {next : β → Except Fault γ}

theorem ok_bind {value : β} : (Except.ok value >>= next) = next value := rfl

theorem error_bind : (Except.error fault >>= next) = .error fault := rfl

theorem bind_eq_ok_iff {value : γ} :
    (answer >>= next) = .ok value ↔ ∃ middle, answer = .ok middle ∧ next middle = .ok value := by
  cases answer with
  | error _ => simp [error_bind]
  | ok middle => simp [ok_bind]

end Answers

namespace Action

variable {α J β γ : Type}

/-- A property of the result of an action and of the ledger that it leaves. -/
def Ends (action : Action α J β) (before : Ledger α J)
    (property : Except Fault β → Ledger α J → Prop) : Prop :=
  property (action before).result (action before).ledger

variable {before : Ledger α J} {property : Except Fault β → Ledger α J → Prop}

theorem ends_pure {value : β} :
    (pure value : Action α J β).Ends before property ↔ property (.ok value) before := .rfl

theorem ends_raise {fault : Fault} :
    (raise fault : Action α J β).Ends before property ↔ property (.error fault) before := .rfl

theorem ends_report {notice : Notice} {property : Except Fault Unit → Ledger α J → Prop} :
    (report notice : Action α J Unit).Ends before property ↔ property (.ok ()) before := .rfl

theorem ends_read {view : Ledger α J → β} :
    (read view).Ends before property ↔ property (.ok (view before)) before := .rfl

theorem ends_update {change : Ledger α J → Ledger α J}
    {property : Except Fault Unit → Ledger α J → Prop} :
    (update change).Ends before property ↔ property (.ok ()) (change before) := .rfl

theorem ends_ask {query : Ledger α J → Except Fault β} :
    (ask query).Ends before property ↔ property (query before) before := by
  unfold Ends ask
  cases query before <;> exact .rfl

theorem ends_bind {action : Action α J β} {next : β → Action α J γ}
    {property : Except Fault γ → Ledger α J → Prop} :
    (action >>= next).Ends before property ↔ action.Ends before fun result after =>
      match result with
      | .ok value => (next value).Ends after property
      | .error fault => property (.error fault) after := by
  change property (andThen action next before).result (andThen action next before).ledger ↔ _
  unfold Ends andThen
  rcases action before with ⟨_ | _, _, _⟩ <;> exact .rfl

theorem ends_update_bind {change : Ledger α J → Ledger α J} {next : Unit → Action α J β} :
    (update change >>= next).Ends before property ↔ (next ()).Ends (change before) property := .rfl

theorem ends_onFault {action : Action α J β} {undo : Ledger α J → Ledger α J} :
    (action.onFault undo).Ends before property ↔ action.Ends before fun result after =>
      match result with
      | .ok value => property (.ok value) after
      | .error fault => property (.error fault) (undo after) := by
  unfold Ends onFault
  rcases action before with ⟨_ | _, _, _⟩ <;> exact .rfl

theorem ends_ite {condition : Prop} [Decidable condition] {yes no : Action α J β} :
    (if condition then yes else no).Ends before property ↔
      if condition then yes.Ends before property else no.Ends before property := by
  split <;> exact .rfl

theorem Ends.imp {weaker : Except Fault β → Ledger α J → Prop} {action : Action α J β}
    (ends : action.Ends before property)
    (step : ∀ result after, property result after → weaker result after) :
    action.Ends before weaker := step _ _ ends

theorem Ends.and {other : Except Fault β → Ledger α J → Prop} {action : Action α J β}
    (ends : action.Ends before property) (also : action.Ends before other) :
    action.Ends before fun result after => property result after ∧ other result after := ⟨ends, also⟩

/-- A question that fails is a fault; otherwise its answer is gone on with. -/
theorem ask_bind (query : Ledger α J → Except Fault β) (next : β → Action α J γ)
    (ledger : Ledger α J) : (ask query >>= next) ledger =
      match query ledger with
      | .ok value => next value ledger
      | .error fault => raise fault ledger := by
  change andThen (ask query) next ledger = _
  unfold andThen ask
  cases query ledger <;> rfl

theorem ends_ask_or {query : Ledger α J → Except Fault β} {next : β → Action α J γ}
    {property : Except Fault γ → Ledger α J → Prop} (refused : ∀ fault, property (.error fault) before)
    (goesOn : ∀ value, query before = .ok value → (next value).Ends before property) :
    (ask query >>= next).Ends before property := by
  rw [ends_bind, ends_ask]
  cases answer : query before with
  | error fault => exact refused fault
  | ok value => exact goesOn value answer

/-- A question changes nothing, so what holds is only to be looked at again once it is answered. -/
theorem ends_ask_bind {query : Ledger α J → Except Fault β} {next : β → Action α J γ}
    {holds : Ledger α J → Prop} (start : holds before)
    (goesOn : ∀ value, query before = .ok value → (next value).Ends before fun _ after => holds after) :
    (ask query >>= next).Ends before fun _ after => holds after :=
  ends_ask_or (fun _ => start) goesOn

/-- What an action replies does not change the ledger. -/
theorem ends_reply {action : Action α J β} {reply : β → γ} {holds : Ledger α J → Prop}
    (ends : action.Ends before fun _ after => holds after) :
    (action >>= fun value => pure (reply value)).Ends before fun _ after => holds after := by
  rw [ends_bind]
  refine ends.imp fun result after held => ?_
  cases result <;> exact held

theorem read_bind (view : Ledger α J → β) (next : β → Action α J γ) (ledger : Ledger α J) :
    (read view >>= next) ledger = next (view ledger) ledger := rfl

/-- What holds of a ledger still holds of the one that the action leaves. -/
def Keeps (holds : Ledger α J → Prop) (action : Action α J β) : Prop :=
  ∀ before, holds before → action.Ends before fun _ after => holds after

section Keeping

variable {holds : Ledger α J → Prop}

theorem keeps_pure {value : β} : Keeps holds (pure value : Action α J β) := fun _ start => start

theorem keeps_raise {fault : Fault} : Keeps holds (raise fault : Action α J β) :=
  fun _ start => start

theorem keeps_fail {fault : Fault} : Keeps holds (fail fault : Action α J β) := fun _ start => start

theorem keeps_report {notice : Notice} : Keeps holds (report notice : Action α J Unit) :=
  fun _ start => start

theorem keeps_read {view : Ledger α J → β} : Keeps holds (read view) := fun _ start => start

theorem keeps_ask {query : Ledger α J → Except Fault β} : Keeps holds (ask query) :=
  fun _ start => ends_ask.mpr start

theorem keeps_update {change : Ledger α J → Ledger α J}
    (step : ∀ ledger, holds ledger → holds (change ledger)) : Keeps holds (update change) :=
  fun _ start => step _ start

theorem Keeps.bind {action : Action α J β} {next : β → Action α J γ} (first : Keeps holds action)
    (second : ∀ value, Keeps holds (next value)) : Keeps holds (action >>= next) := by
  intro before start
  rw [ends_bind]
  refine (first before start).imp fun result after held => ?_
  cases result with
  | error _ => exact held
  | ok value => exact second value after held

theorem Keeps.and {also : Ledger α J → Prop} {action : Action α J β} (keeps : Keeps holds action)
    (other : Keeps also action) : Keeps (fun ledger => holds ledger ∧ also ledger) action :=
  fun before start => ⟨keeps before start.1, other before start.2⟩

theorem Keeps.ite {condition : Prop} [Decidable condition] {yes no : Action α J β}
    (left : Keeps holds yes) (right : Keeps holds no) :
    Keeps holds (if condition then yes else no) := by
  split
  · exact left
  · exact right

theorem keeps_forM {ι : Type} {items : List ι} {step : ι → Action α J Unit}
    (each : ∀ item ∈ items, Keeps holds (step item)) : Keeps holds (items.forM step) := by
  induction items with
  | nil => exact keeps_pure
  | cons item rest ih =>
    exact (each item List.mem_cons_self).bind fun _ =>
      ih fun other later => each other (List.mem_cons_of_mem item later)

end Keeping

end Action

/-! ## Guards -/

namespace Ledger

variable {α J : Type}

/-- Whether a transaction exists and is open. -/
def checkOpen (ledger : Ledger α J) (id : TransactionId) : Except Fault Unit := do
  let transaction ← ledger.transaction id
  if transaction.edit.isOpen then .ok () else .error (.notOpen id)

/-- Whether a split exists and may be changed. -/
def checkEditable (ledger : Ledger α J) (id : SplitId) : Except Fault Unit := do
  match (← ledger.split id).parent with
  | some parent => ledger.checkOpen parent
  | none => .ok ()

theorem split_eq_ok_iff {ledger : Ledger α J} {id : SplitId} {split : Split α} :
    ledger.split id = .ok split ↔ ledger.split? id = some split := by
  unfold Ledger.split
  cases ledger.split? id <;> simp

theorem transaction_eq_ok_iff {ledger : Ledger α J} {id : TransactionId} {transaction : Transaction} :
    ledger.transaction id = .ok transaction ↔ ledger.transaction? id = some transaction := by
  unfold Ledger.transaction
  cases ledger.transaction? id <;> simp

theorem account_eq_ok_iff {ledger : Ledger α J} {id : AccountId} {account : Account} :
    ledger.account id = .ok account ↔ ledger.account? id = some account := by
  unfold Ledger.account
  cases ledger.account? id <;> simp

theorem checkOpen_eq_ok_iff {ledger : Ledger α J} {id : TransactionId} :
    ledger.checkOpen id = .ok () ↔
      ∃ transaction, ledger.transaction? id = some transaction ∧ transaction.edit.isOpen := by
  unfold checkOpen Ledger.transaction
  cases ledger.transaction? id <;> simp [bind, Except.bind]

end Ledger

namespace Action

variable {α J : Type}

theorem ensureOpen_eq (id : TransactionId) : ensureOpen (α := α) (J := J) id = ask (·.checkOpen id) := by
  funext ledger
  simp only [ensureOpen, bind, andThen, ask, Ledger.checkOpen, Except.bind]
  cases ledger.transaction id with
  | error _ => rfl
  | ok transaction =>
    dsimp only
    split <;> rfl

theorem ensureEditable_eq (id : SplitId) :
    ensureEditable (α := α) (J := J) id = ask (·.checkEditable id) := by
  funext ledger
  simp only [ensureEditable, bind, andThen, ask, Ledger.checkEditable, Except.bind]
  cases ledger.split id with
  | error _ => rfl
  | ok split =>
    dsimp only
    cases split.parent with
    | none => rfl
    | some parent => exact congrFun (ensureOpen_eq parent) ledger

theorem ensureFinite_eq [Scalar α] (role : NumberRole) (number : α) :
    ensureFinite (J := J) role number = if Scalar.isFinite number then pure ()
      else raise (.invalid (.notFinite role (Scalar.text number))) := rfl

theorem ends_finite_or [Scalar α] {before : Ledger α J} {property : Except Fault Unit → Ledger α J → Prop}
    {role : NumberRole} {number : α} {next : Unit → Action α J Unit}
    (refused : ∀ fault, property (.error fault) before) (goes : (next ()).Ends before property) :
    (ensureFinite role number >>= next).Ends before property := by
  rw [ensureFinite_eq, ends_bind, ends_ite]
  split
  · exact goes
  · exact refused _

/-- A number that is not finite is refused before anything is changed. -/
theorem ends_finite [Scalar α] {before : Ledger α J} {holds : Ledger α J → Prop} {role : NumberRole}
    {number : α} {next : Unit → Action α J Unit} (start : holds before)
    (goes : (next ()).Ends before fun _ after => holds after) :
    (ensureFinite role number >>= next).Ends before fun _ after => holds after :=
  ends_finite_or (fun _ => start) goes

section Keeping

variable {holds : Ledger α J → Prop}

theorem keeps_ensureOpen (id : TransactionId) : Keeps holds (ensureOpen id) := by
  rw [ensureOpen_eq]
  exact keeps_ask

theorem keeps_ensureEditable (id : SplitId) : Keeps holds (ensureEditable id) := by
  rw [ensureEditable_eq]
  exact keeps_ask

theorem keeps_ensureFinite [Scalar α] (role : NumberRole) (number : α) :
    Keeps holds (ensureFinite role number) := by
  rw [ensureFinite_eq]
  exact keeps_pure.ite keeps_raise

end Keeping

theorem ends_mint {before : Ledger α J} {property : Except Fault Ident → Ledger α J → Prop} :
    mint.Ends before property ↔
      property (.ok (Ident.ofNat before.minted)) { before with minted := before.minted + 1 } := .rfl

end Action

end DoubleEntry
