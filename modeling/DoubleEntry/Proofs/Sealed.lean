import DoubleEntry.Proofs.Locality

/-! # Closed transactions

A closed transaction stays as it is, with all its splits, until a session is opened on it or it is
rebalanced directly. Commands that change other entries are kept off by `Shelter.keeps_act`; those
that would change the transaction itself or one of its splits are refused, and a refused command leaves
the whole ledger as it was, also when the refusal comes from a guard deep inside.
-/

namespace DoubleEntry

open DoubleEntry.Action

/-- The commands that change the split or the transaction that they name in the course of a session.
Opening a session and rebalancing are not among them. -/
def Command.edits {α : Type} : Command α → Bool
  | .createSplit | .createTransaction | .otherSplit _ | .beginEdit _ _ | .splitWorth _ _
  | .transactionValue _ _ _ | .commonCommodity _ _ | .rebalanceSplit _ | .rebalanceTransaction _
  | .imbalance _ | .isBalanced _ => false
  | _ => true

/-- The commands that only ask for something. -/
def Command.asks {α : Type} : Command α → Bool
  | .otherSplit _ | .splitWorth _ _ | .transactionValue _ _ _ | .commonCommodity _ _ | .imbalance _
  | .isBalanced _ => true
  | _ => false

/-- What changes a transaction that is closed: a new session, or rebalancing it directly. -/
def Deed.Unseals {α J : Type} (ledger : Ledger α J) (owner : TransactionId) : Deed α J → Prop
  | .command (.beginEdit transaction _) => transaction = owner
  | .command (.rebalanceTransaction transaction) => transaction = owner
  | .command (.rebalanceSplit split) => ledger.parentOf? split = some owner
  | _ => False

/-- A command about a transaction or about one of its splits. -/
def Command.Concerns {α : Type} (command : Command α) (owner : TransactionId)
    (transaction : Transaction) : Prop :=
  command.transaction? = some owner ∨ ∃ split ∈ transaction.splits, command.split? = some split

namespace Action

theorem keeps_of_asks {α J : Type} [Scalar α] [Journal J α] {holds : Ledger α J → Prop}
    {command : Command α} (asks : command.asks = true) : Keeps holds (command.act (J := J)) := by
  cases command with
  | otherSplit split => exact (keeps_otherSplit split).bind fun _ => keeps_pure
  | splitWorth split base => exact (keeps_splitWorth split base).bind fun _ => keeps_pure
  | transactionValue | commonCommodity | imbalance | isBalanced =>
    exact keeps_ask.bind fun _ => keeps_pure
  | _ => nomatch asks

variable {α J β γ : Type} {ledger : Ledger α J}

/-- An action that fails and changes nothing. -/
def Refuses (action : Action α J β) (ledger : Ledger α J) : Prop :=
  action.Ends ledger fun result after => (∃ fault, result = .error fault) ∧ after = ledger

theorem refuses_raise {fault : Fault} : (raise fault : Action α J β).Refuses ledger :=
  ⟨⟨fault, rfl⟩, rfl⟩

theorem Refuses.bind {action : Action α J β} (refuses : action.Refuses ledger)
    (next : β → Action α J γ) : (action >>= next).Refuses ledger := by
  refine ends_bind.mpr (refuses.imp fun result after ends => ?_)
  obtain ⟨⟨fault, rfl⟩, rfl⟩ := ends
  exact ⟨⟨fault, rfl⟩, rfl⟩

/-- A question comes before what is refused, whether or not it has an answer. -/
theorem refuses_ask {query : Ledger α J → Except Fault β} {next : β → Action α J γ}
    (rest : ∀ value, query ledger = .ok value → (next value).Refuses ledger) :
    (ask query >>= next).Refuses ledger := by
  refine ends_bind.mpr (ends_ask.mpr ?_)
  cases answer : query ledger with
  | error fault => exact ⟨⟨fault, rfl⟩, rfl⟩
  | ok value => exact rest value answer

theorem refuses_ite {condition : Prop} [Decidable condition] {yes no : Action α J β}
    (left : condition → yes.Refuses ledger) (right : ¬ condition → no.Refuses ledger) :
    (if condition then yes else no).Refuses ledger := by
  split
  · exact left ‹_›
  · exact right ‹_›

theorem refuses_ensureFinite [Scalar α] {role : NumberRole} {number : α}
    {next : Unit → Action α J γ} (rest : (next ()).Refuses ledger) :
    (ensureFinite role number >>= next).Refuses ledger := by
  rw [ensureFinite_eq]
  refine ends_bind.mpr (ends_ite.mpr ?_)
  split
  · exact rest
  · exact ⟨⟨_, rfl⟩, rfl⟩

end Action

namespace Ledger

variable {α J : Type}

/-- A transaction without a session, and the splits that are part of it. -/
structure Sealed (ledger : Ledger α J) (owner : TransactionId) (transaction : Transaction) : Prop where
  isOwner : ledger.transaction? owner = some transaction
  closed : transaction.edit = .closed
  owned : ledger.Owned

namespace Sealed

variable {ledger : Ledger α J} {owner : TransactionId} {transaction : Transaction} {split : SplitId}
  (shut : ledger.Sealed owner transaction)

include shut

theorem parent (listed : split ∈ transaction.splits) :
    ∃ entry, ledger.split? split = some entry ∧ entry.parent = some owner :=
  parent_eq_iff.mp ((shut.owned.mem_iff shut.isOwner).mp listed)

theorem refuses_ensureOpen : (ensureOpen owner).Refuses ledger := by
  have answer : ledger.checkOpen owner = .error (.notOpen owner) := by
    simp [checkOpen, transaction_eq_ok_iff.mpr shut.isOwner, ok_bind, shut.closed, EditState.isOpen]
  rw [ensureOpen_eq]
  refine ends_ask.mpr ?_
  rw [answer]
  exact ⟨⟨_, rfl⟩, rfl⟩

theorem refuses_ensureEditable (listed : split ∈ transaction.splits) :
    (ensureEditable split).Refuses ledger := by
  obtain ⟨entry, isSplit, parent⟩ := shut.parent listed
  refine refuses_ask fun value found => ?_
  obtain rfl : entry = value := Option.some.inj (isSplit.symm.trans (split_eq_ok_iff.mp found))
  rw [parent]
  exact shut.refuses_ensureOpen

/-! ## Edits of the transaction -/

theorem refuses_setPosted (date : Instant) : (setPosted owner date).Refuses ledger :=
  shut.refuses_ensureOpen.bind _

theorem refuses_setDates (date : Instant) : (setDates owner date).Refuses ledger :=
  shut.refuses_ensureOpen.bind _

theorem refuses_setDay (day month : Nat) (year : Int) :
    (setDay owner day month year).Refuses ledger := by
  unfold setDay
  split
  · exact shut.refuses_setDates _
  · exact refuses_raise

theorem refuses_setToday : (setToday owner).Refuses ledger :=
  ends_bind.mpr (ends_read.mpr (shut.refuses_setDates ledger.now))

theorem refuses_appendSplit (split : SplitId) [Scalar α] : (appendSplit owner split).Refuses ledger :=
  shut.refuses_ensureOpen.bind _

theorem refuses_removeSplit (split : SplitId) : (removeSplit owner split).Refuses ledger :=
  shut.refuses_ensureOpen.bind _

/-! ## Edits of its splits -/

theorem refuses_editSplit (listed : split ∈ transaction.splits) (change : Split α → Split α) :
    (editSplit split change).Refuses ledger :=
  (shut.refuses_ensureEditable listed).bind _

variable [Scalar α]

theorem refuses_editNumbers (listed : split ∈ transaction.splits) (change : Split α → Split α) :
    (editNumbers split change).Refuses ledger :=
  (shut.refuses_ensureEditable listed).bind _

theorem refuses_setValue (listed : split ∈ transaction.splits) (value : α) :
    (setValue split value).Refuses ledger :=
  refuses_ensureFinite ((shut.refuses_ensureEditable listed).bind _)

theorem refuses_setSplitWorth (listed : split ∈ transaction.splits) (value : α)
    (base : Option Commodity) : (setSplitWorth split value base).Refuses ledger :=
  refuses_ensureFinite ((shut.refuses_ensureEditable listed).bind _)

theorem refuses_enterAccount (listed : split ∈ transaction.splits) (account : AccountId) :
    (enterAccount account split).Refuses ledger :=
  refuses_ask fun _ _ => (shut.refuses_ensureEditable listed).bind _

theorem refuses_leaveAccount (listed : split ∈ transaction.splits) :
    (Action.leaveAccount split).Refuses ledger :=
  (shut.refuses_ensureEditable listed).bind _

theorem refuses_discardSplit (listed : split ∈ transaction.splits) :
    (discardSplit split).Refuses ledger := by
  obtain ⟨entry, isSplit, parent⟩ := shut.parent listed
  refine refuses_ask fun value found => ?_
  obtain rfl : entry = value := Option.some.inj (isSplit.symm.trans (split_eq_ok_iff.mp found))
  rw [parent]
  exact refuses_raise

/-- A split does not leave for a transaction that is open. -/
theorem refuses_appendSplit_elsewhere (listed : split ∈ transaction.splits) (id : TransactionId) :
    (appendSplit id split).Refuses ledger := by
  obtain ⟨entry, isSplit, parent⟩ := shut.parent listed
  by_cases same : id = owner
  · exact same ▸ shut.refuses_appendSplit split
  · rw [appendSplit, ensureOpen_eq]
    refine refuses_ask fun _ _ => refuses_ask fun value found => ?_
    obtain rfl : entry = value := Option.some.inj (isSplit.symm.trans (split_eq_ok_iff.mp found))
    rw [parent]
    dsimp only
    rw [if_neg (Ne.symm same)]
    have released : (release owner split).Refuses ledger := shut.refuses_ensureOpen.bind _
    exact released.bind _

omit [Scalar α] in
/-- An open transaction does not list a split of a closed one. -/
theorem refuses_removeSplit_elsewhere (listed : split ∈ transaction.splits) (id : TransactionId) :
    (removeSplit id split).Refuses ledger := by
  by_cases same : id = owner
  · exact same ▸ shut.refuses_removeSplit split
  · rw [removeSplit, ensureOpen_eq]
    refine refuses_ask fun _ _ => refuses_ask fun other found => ?_
    have outside : split ∉ other.splits := fun inside => same <| by
      have named := (shut.owned.mem_iff (transaction_eq_ok_iff.mp found)).mp inside
      have own := (shut.owned.mem_iff shut.isOwner).mp listed
      exact Option.some.inj (Option.some.inj (named.symm.trans own))
    refine refuses_ite (fun _ => refuses_raise) fun contained => ?_
    simp [outside] at contained

/-! ## All edits -/

variable [Journal J α]

theorem refuses_commitEdit : (commitEdit owner).Refuses ledger := shut.refuses_ensureOpen.bind _

theorem refuses_destroyTransaction : (destroyTransaction owner).Refuses ledger :=
  shut.refuses_ensureOpen.bind _

theorem refuses_destroySplit (listed : split ∈ transaction.splits) :
    (destroySplit split).Refuses ledger := by
  obtain ⟨entry, isSplit, parent⟩ := shut.parent listed
  refine refuses_ask fun value found => ?_
  obtain rfl : entry = value := Option.some.inj (isSplit.symm.trans (split_eq_ok_iff.mp found))
  rw [parent]
  exact shut.refuses_ensureOpen.bind _

/-- Every edit that names the transaction is refused. -/
theorem refuses_of_transaction {command : Command α} (edits : command.edits = true)
    (names : command.transaction? = some owner) : (command.act (J := J)).Refuses ledger := by
  cases command with
  | setNum _ _ | setDescription _ _ | setDocref _ _ | setEntered _ _ =>
    obtain rfl := Option.some.inj names
    have refused (change) : (editTransaction _ change).Refuses ledger := shut.refuses_ensureOpen.bind _
    exact (refused _).bind _
  | setPosted _ date =>
    obtain rfl := Option.some.inj names
    exact (shut.refuses_setPosted date).bind _
  | setDay _ day month year =>
    obtain rfl := Option.some.inj names
    exact (shut.refuses_setDay day month year).bind _
  | setToday _ =>
    obtain rfl := Option.some.inj names
    exact (shut.refuses_setToday).bind _
  | setCaption _ caption text =>
    obtain rfl := Option.some.inj names
    have refused : (setCaption _ caption text).Refuses ledger := shut.refuses_ensureOpen.bind _
    exact refused.bind _
  | appendSplit _ split =>
    obtain rfl := Option.some.inj names
    exact (shut.refuses_appendSplit split).bind _
  | removeSplit _ split =>
    obtain rfl := Option.some.inj names
    exact (shut.refuses_removeSplit split).bind _
  | commitEdit _ =>
    obtain rfl := Option.some.inj names
    exact shut.refuses_commitEdit.bind _
  | destroyTransaction _ =>
    obtain rfl := Option.some.inj names
    exact shut.refuses_destroyTransaction.bind _
  | createSplit | createTransaction | otherSplit | beginEdit | splitWorth | transactionValue
  | commonCommodity | rebalanceSplit | rebalanceTransaction | imbalance | isBalanced => nomatch edits
  | _ => nomatch names

/-- Every edit that names one of its splits is refused. -/
theorem refuses_of_split {command : Command α} (edits : command.edits = true)
    (listed : split ∈ transaction.splits) (names : command.split? = some split) :
    (command.act (J := J)).Refuses ledger := by
  cases command with
  | discardSplit _ =>
    obtain rfl := Option.some.inj names
    exact (shut.refuses_discardSplit listed).bind _
  | setPriceAndAmount _ price amount =>
    obtain rfl := Option.some.inj names
    have refused : (setPriceAndAmount _ price amount).Refuses ledger :=
      refuses_ensureFinite (refuses_ensureFinite (shut.refuses_editNumbers listed _))
    exact refused.bind _
  | setPrice _ price =>
    obtain rfl := Option.some.inj names
    have refused : (setPrice _ price).Refuses ledger :=
      refuses_ensureFinite (shut.refuses_editNumbers listed _)
    exact refused.bind _
  | setAmount _ amount =>
    obtain rfl := Option.some.inj names
    have refused : (setAmount _ amount).Refuses ledger :=
      refuses_ensureFinite (shut.refuses_editNumbers listed _)
    exact refused.bind _
  | setValue _ value =>
    obtain rfl := Option.some.inj names
    exact (shut.refuses_setValue listed value).bind _
  | setMemo _ _ | setAction _ _ | setSplitDocref _ _ | setReconciledOn _ _ =>
    obtain rfl := Option.some.inj names
    exact (shut.refuses_editSplit listed _).bind _
  | setReconcile _ state =>
    obtain rfl := Option.some.inj names
    have refused : (setReconcile _ state).Refuses ledger := (shut.refuses_editSplit listed _).bind _
    exact refused.bind _
  | appendSplit id _ =>
    obtain rfl := Option.some.inj names
    exact (shut.refuses_appendSplit_elsewhere listed id).bind _
  | removeSplit id _ =>
    obtain rfl := Option.some.inj names
    exact (shut.refuses_removeSplit_elsewhere listed id).bind _
  | enterAccount account _ =>
    obtain rfl := Option.some.inj names
    exact (shut.refuses_enterAccount listed account).bind _
  | leaveAccount _ =>
    obtain rfl := Option.some.inj names
    exact (shut.refuses_leaveAccount listed).bind _
  | destroySplit _ =>
    obtain rfl := Option.some.inj names
    exact (shut.refuses_destroySplit listed).bind _
  | setSplitWorth _ value base =>
    obtain rfl := Option.some.inj names
    exact (shut.refuses_setSplitWorth listed value base).bind _
  | otherSplit | splitWorth | transactionValue | commonCommodity | rebalanceSplit => nomatch edits
  | _ => nomatch names

theorem refuses {command : Command α} (edits : command.edits = true)
    (concerns : command.Concerns owner transaction) : (command.act (J := J)).Refuses ledger := by
  rcases concerns with names | ⟨split, listed, names⟩
  · exact shut.refuses_of_transaction edits names
  · exact shut.refuses_of_split edits listed names

/-! ## What does not concern it -/

omit [Scalar α] [Journal J α] in
/-- A command about the transaction that is neither refused nor a question opens or rebalances it. -/
theorem unseals {command : Command α} (acts : command.asks = false) (passes : command.edits = false)
    (concerns : command.Concerns owner transaction) :
    (Deed.command (J := J) command).Unseals ledger owner := by
  rcases concerns with names | ⟨split, listed, names⟩
  · cases command with
    | beginEdit _ _ | rebalanceTransaction _ => exact Option.some.inj names
    | createSplit | createTransaction | rebalanceSplit _ => cases names
    | transactionValue _ _ _ | commonCommodity _ _ | imbalance _ | isBalanced _ | otherSplit _
    | splitWorth _ _ => cases acts
    | _ => cases passes
  · cases command with
    | rebalanceSplit _ =>
      obtain rfl := Option.some.inj names
      obtain ⟨entry, isSplit, parent⟩ := shut.parent listed
      simp [Deed.Unseals, parentOf?, isSplit, parent]
    | createSplit | createTransaction | beginEdit _ _ | rebalanceTransaction _ => cases names
    | transactionValue _ _ _ | commonCommodity _ _ | imbalance _ | isBalanced _ | otherSplit _
    | splitWorth _ _ => cases acts
    | _ => cases passes

theorem stays {deed : Deed α J} (keeps : ¬ deed.Unseals ledger owner) :
    (Shelter.around owner transaction).Stays ledger (deed.apply ledger) := by
  have spares := shut.owned.spares shut.isOwner
  cases deed with
  | command request =>
    change (request.act (J := J)).Ends ledger fun _ after =>
      (Shelter.around owner transaction).Stays ledger after
    cases asks : request.asks with
    | true => exact keeps_of_asks asks ledger fun _ => spares
    | false =>
      by_cases concerns : request.Concerns owner transaction
      · cases edits : request.edits with
        | true => exact (shut.refuses edits concerns).imp fun _ _ ends _ => ends.2 ▸ spares
        | false => exact absurd (shut.unseals asks edits concerns) keeps
      · refine Shelter.keeps_act request (fun split names listed => concerns ?_)
          (fun id names same => concerns ?_) (fun _ _ => Set.notMem_empty _) ledger fun _ => spares
        · exact .inr ⟨split, listed, names⟩
        · obtain rfl : id = owner := same
          exact .inl names
  | openAccount _ _ _ => exact fun _ => spares.rebook rfl rfl (Nat.le_succ _)
  | setDefers _ _ | clearChanged _ | markChanged _ | setClock _ | setJournal _ | setAccounts _ =>
    exact fun _ => spares.rebook rfl rfl le_rfl

end Sealed

end Ledger

open Ledger

variable {α J : Type} [Scalar α] [Journal J α] {ledger : Ledger α J}

/-- A closed transaction and its splits, apart from running balances, stay as they are through
everything but a new session and direct rebalancing, whether or not it fails. Every edit of the
transaction or of one of its splits fails and leaves the whole ledger as it was. -/
theorem Reachable.closed_immutable (reached : Reachable (fun _ => True) ledger)
    {owner : TransactionId} {transaction : Transaction}
    (isOwner : ledger.transaction? owner = some transaction) (closed : transaction.edit = .closed) :
    (∀ deed : Deed α J, ¬ deed.Unseals ledger owner → (deed.apply ledger).minted ≤ 2 ^ 128 →
      (deed.apply ledger).transaction? owner = some transaction ∧
        ∀ split ∈ transaction.splits, ∃ entry again, ledger.split? split = some entry ∧
          (deed.apply ledger).split? split = some again ∧ again.bare = entry.bare) ∧
    ∀ command : Command α, command.edits = true → command.Concerns owner transaction →
      (∃ fault, (command.run ledger).result = .error fault) ∧ (command.run ledger).ledger = ledger := by
  have shut : ledger.Sealed owner transaction := ⟨isOwner, closed, reached.owned⟩
  refine ⟨fun deed keeps fresh => ?_, fun command edits concerns => shut.refuses edits concerns⟩
  have spares := shut.stays keeps fresh
  refine ⟨(spares.transaction rfl).trans isOwner, fun split listed => ?_⟩
  obtain ⟨entry, isSplit, -⟩ := shut.parent listed
  have same := spares.split listed
  rw [isSplit, Option.map_some] at same
  obtain ⟨again, found, bare⟩ := Option.map_eq_some_iff.mp same
  exact ⟨entry, again, isSplit, found, bare⟩

/-- Transaction 1 with split 0, which is closed, and transaction 3, which is open. -/
def Ledger.closedBesideOpen : Ledger Float (MemoryLog Float) :=
  (Ledger.start ⟨.forceBalance⟩ {}).after [.command .createTransaction, .command .createTransaction,
    .command (.beginEdit ⟨.ofNat 3⟩ false)]

/-- The split of the closed transaction cannot be appended to the open one, and a commit of the open
one leaves the closed one alone. -/
theorem Reachable.closed_immutable_closedBesideOpen :
    ((∃ fault, ((Command.appendSplit ⟨.ofNat 3⟩ ⟨.ofNat 0⟩).run closedBesideOpen).result =
        .error fault) ∧
      ((Command.appendSplit ⟨.ofNat 3⟩ ⟨.ofNat 0⟩).run closedBesideOpen).ledger = closedBesideOpen) ∧
    ((Deed.command (.commitEdit ⟨.ofNat 3⟩)).apply closedBesideOpen).transaction? ⟨.ofNat 1⟩ =
      some (.ofSource ⟨.ofNat 0⟩) := by
  have reached : Reachable (fun _ => True) closedBesideOpen :=
    (Reachable.start _ _).after _ (fun _ _ => trivial) (by decide +kernel)
  have isOwner : closedBesideOpen.transaction? ⟨.ofNat 1⟩ = some (.ofSource ⟨.ofNat 0⟩) := by
    decide +kernel
  have other : ¬ (Deed.command (.commitEdit ⟨.ofNat 3⟩) : Deed Float (MemoryLog Float)).Unseals
      closedBesideOpen ⟨.ofNat 1⟩ := fun unseals => unseals
  refine ⟨(Reachable.closed_immutable reached isOwner rfl).2 _ rfl (.inr ⟨_, ?_, rfl⟩),
    ((Reachable.closed_immutable reached isOwner rfl).1 _ other (by decide +kernel)).1⟩
  exact List.mem_singleton.mpr rfl

end DoubleEntry
