import DoubleEntry.Proofs.Figures
import DoubleEntry.Proofs.Moving

/-! # Amounts that are given and amounts that are computed

Numbers that a caller gives are refused unless they are finite. But amounts are also computed: a value is
divided by a price, and rebalancing sums up, divides and multiplies; what comes out of that is stored as it
is. `Command.computed` lists these amounts. No price is computed, so all prices are finite; and so are all
amounts as long as none that was computed has overflowed.
-/

namespace DoubleEntry

open DoubleEntry.Action

/-- What comes of an answer, and nothing if it is a fault. -/
def onAnswer {α β : Type} (answer : Except Fault β) (amounts : β → List α) : List α :=
  match answer with
  | .ok value => amounts value
  | .error _ => []

namespace Ledger

variable {α J : Type} [Scalar α] (ledger : Ledger α J)

/-- The amount with which a split takes up the difference in a pass that adds no split. -/
def taken (edited : SplitId) : List α :=
  onAnswer (ledger.settlement edited) fun settlement =>
    match settlement with
    | .absorb transaction target base =>
      onAnswer (ledger.absorption transaction target base) Option.toList
    | _ => []

/-- The amounts that rebalancing gives to splits: to one that takes up the difference, or to a counterpart
and then to its source. -/
def balancing (edited : SplitId) : List α :=
  onAnswer (ledger.settlement edited) fun settlement =>
    match settlement with
    | .pair owner source => onAnswer (ledger.split source) fun entry =>
      entry.counterpart.amount :: (ledger.withCounterpart owner entry).taken ledger.nextSplit
    | _ => ledger.taken edited

/-- The amounts that rebalancing from the source of a transaction gives to splits. -/
def balancingOf (id : TransactionId) : List α :=
  onAnswer (ledger.transaction id) fun transaction => transaction.source?.elim [] ledger.balancing

/-- What a change of a split computes with given numbers, and what rebalancing computes after it. -/
def editing (given : List α) (split : SplitId) (computed : List α) (change : Split α → Split α) : List α :=
  if given.all Scalar.isFinite then
    onAnswer (ledger.checkEditable split) fun _ =>
      computed ++ ((ledger.mark split).modifySplit split change).balancing split
  else []

/-- What is computed for the transaction that a split leaves. -/
def balancingWithout (owner : TransactionId) (split : SplitId) : List α :=
  onAnswer (ledger.checkOpen owner) fun _ => onAnswer (ledger.transaction owner) fun transaction =>
    if transaction.splits.length ≤ 1 then [] else (ledger.parted owner split).balancingOf owner

/-- What is computed for the transaction that a split comes to, and before for the one that it leaves. -/
def balancingWith (id : TransactionId) (split : SplitId) : List α :=
  onAnswer (ledger.checkOpen id) fun _ => onAnswer (ledger.split split) fun entry =>
    match entry.parent with
    | none => ((ledger.joined id split).mark split).balancing split
    | some owner =>
      if owner = id then (((ledger.modifyTransaction id (·.drop split)).joined id split).mark split).balancing split
      else
        let released := release owner split ledger
        ledger.balancingWithout owner split ++
          onAnswer released.result fun _ => ((released.ledger.joined id split).mark split).balancing split

end Ledger

/-- The amounts that a command computes and stores. -/
def Command.computed {α J : Type} [Scalar α] (ledger : Ledger α J) : Command α → List α
  | .setPriceAndAmount split price amount =>
    ledger.editing [price, amount] split [] fun s => { s with price, amount }
  | .setPrice split price => ledger.editing [price] split [] fun s => { s with price }
  | .setAmount split amount => ledger.editing [amount] split [] fun s => { s with amount }
  | .setValue split value =>
    onAnswer (ledger.split split) fun entry =>
      if Scalar.isZero entry.price then []
      else
        let amount := value / entry.price
        ledger.editing [value] split [amount] fun s => { s with amount }
  | .setSplitWorth split value base =>
    if Scalar.isFinite value then
      onAnswer (ledger.checkEditable split) fun _ => onAnswer (ledger.split split) fun entry =>
        onAnswer (ledger.valuation split entry base) fun valuation =>
          (valuation.amountFor? entry value).toList
    else []
  | .appendSplit transaction split => ledger.balancingWith transaction split
  | .commitEdit transaction =>
    onAnswer (ledger.checkOpen transaction) fun _ =>
      (ledger.modifyTransaction transaction fun t => { t with edit := .editing false }).balancingOf
        transaction
  | .destroySplit split =>
    onAnswer (ledger.split split) fun entry => entry.parent.elim [] fun owner =>
      onAnswer (ledger.checkOpen owner) fun _ => onAnswer (ledger.transaction owner) fun transaction =>
        if transaction.splits.contains split && 2 < transaction.splits.length then
          (ledger.without owner split).balancingOf owner
        else []
  | .rebalanceSplit split => ledger.balancing split
  | .rebalanceTransaction transaction => ledger.balancingOf transaction
  | _ => []

namespace Overflow

open Ledger DoubleEntry.Figures

variable {α J : Type} {amounts prices : α → Prop} [Scalar α]

/-- Every number that may be given is of these kinds, and so are those of a new split. -/
structure Accepts (amounts prices : α → Prop) : Prop where
  zero : amounts 0
  one : prices 1
  amount : ∀ {number}, Scalar.isFinite number = true → amounts number
  price : ∀ {number}, Scalar.isFinite number = true → prices number

variable {ledger : Ledger α J} {split edited : SplitId} {owner : TransactionId}

/-! ## Passes -/

omit [Scalar α] in
theorem figures_withAmount {amount? : Option α} (figures : ledger.Figures amounts prices)
    (computed : ∀ amount ∈ amount?.toList, amounts amount) :
    (ledger.withAmount split amount?).Figures amounts prices := by
  cases amount? with
  | none => exact figures
  | some amount =>
    exact figures.modifySplit fun entry isSplit =>
      ⟨computed amount (by simp), (figures split entry isSplit).2⟩

theorem figures_absorbed {amount? : Option α} (figures : ledger.Figures amounts prices)
    (computed : ∀ amount ∈ amount?.toList, amounts amount) :
    (ledger.absorbed split amount?).Figures amounts prices :=
  Figures.alike (figures_withAmount figures computed) absorbed_alike

/-- A pass that adds no split gives out the amount that it took. -/
theorem ends_settle_figures (figures : ledger.Figures amounts prices)
    (computed : ∀ amount ∈ ledger.taken edited, amounts amount) :
    (settle (fun _ _ => pure ()) edited).Ends ledger fun _ after => after.Figures amounts prices := by
  rw [ends_settle]
  rcases decided : ledger.settlement edited with _ | _ | ⟨transaction, target, base⟩ | _
  · exact figures
  · exact figures
  · dsimp only
    cases absorbs : ledger.absorption transaction target base with
    | error _ => exact figures
    | ok amount? =>
      simp only [taken, onAnswer, decided, absorbs] at computed
      exact figures_absorbed figures computed
  · exact figures

theorem figures_joined (figures : ledger.Figures amounts prices) :
    ((ledger.joined owner split).mark split).Figures amounts prices := by
  have named : (ledger.modifySplit split fun s => { s with parent := some owner }).Figures amounts prices :=
    figures.editSplit (by constructor <;> exact fun _ => rfl)
  have listed : (ledger.joined owner split).Figures amounts prices := named.of_splits rfl
  exact listed.alike (mark_alike _ split)

omit [Scalar α] in
theorem figures_parted (figures : ledger.Figures amounts prices) :
    (ledger.parted owner split).Figures amounts prices := by
  have dropped : (ledger.modifyTransaction owner (·.drop split)).Figures amounts prices :=
    figures.of_splits rfl
  exact dropped.editSplit (by constructor <;> exact fun _ => rfl)

omit [Scalar α] in
theorem figures_rejoined (figures : ledger.Figures amounts prices) (place : Option Nat) :
    (ledger.rejoined owner split place).Figures amounts prices := by
  cases place with
  | none => exact figures
  | some index =>
    have listed : (ledger.modifyTransaction owner (·.insertAt index split)).Figures amounts prices :=
      figures.of_splits rfl
    exact listed.editSplit (by constructor <;> exact fun _ => rfl)

theorem figures_withCounterpart {entry : Split α} (figures : ledger.Figures amounts prices)
    (one : prices 1) (computed : amounts entry.counterpart.amount) :
    (ledger.withCounterpart owner entry).Figures amounts prices :=
  figures_joined (figures.insertSplit _ _ computed one (ledger.minted + 1))

theorem ends_rebalanceSplit (figures : ledger.Figures amounts prices) (one : prices 1)
    (computed : ∀ amount ∈ ledger.balancing edited, amounts amount) :
    (rebalanceSplit edited).Ends ledger fun _ after => after.Figures amounts prices := by
  rw [rebalanceSplit, ends_settle]
  rcases decided : ledger.settlement edited with _ | _ | ⟨transaction, target, base⟩ | ⟨owner, source⟩
  · exact figures
  · exact figures
  · dsimp only
    cases absorbs : ledger.absorption transaction target base with
    | error _ => exact figures
    | ok amount? =>
      simp only [balancing, taken, onAnswer, decided, absorbs] at computed
      exact figures_absorbed figures computed
  · obtain ⟨rfl, entry, transaction, _, active, -⟩ := settlement_eq_pair decided
    have isSource := split_eq_ok_iff.mpr active.isSplit
    simp only [balancing, onAnswer, decided, isSource] at computed
    obtain ⟨product, taken⟩ := List.forall_mem_cons.mp computed
    dsimp only
    rw [ends_addCounterpart isSource]
    refine (ends_settle_figures (figures_withCounterpart figures one product) taken).imp
      fun result after settled => ?_
    cases result with
    | error _ => exact settled
    | ok _ =>
      dsimp only
      cases entry.account with
      | none => exact settled
      | some account =>
        have entered : (after.registered account ledger.nextSplit).Figures amounts prices :=
          settled.of_splits rfl
        exact entered.alike (recompute_alike _ account)

theorem ends_rebalanceTransaction (figures : ledger.Figures amounts prices) (one : prices 1)
    (computed : ∀ amount ∈ ledger.balancingOf owner, amounts amount) :
    (rebalanceTransaction owner).Ends ledger fun _ after => after.Figures amounts prices := by
  refine ends_ask_bind figures fun transaction found => ?_
  simp only [balancingOf, onAnswer, found] at computed
  cases isSource : transaction.source? with
  | none => exact figures
  | some source =>
    rw [isSource] at computed
    exact ends_rebalanceSplit figures one computed

/-! ## Edits of numbers -/

theorem ends_editNumbers {change : Split α → Split α} {given computed : List α}
    (figures : ledger.Figures amounts prices) (one : prices 1)
    (finite : given.all Scalar.isFinite = true)
    (stored : ∀ amount ∈ ledger.editing given split computed change, amounts amount)
    (each : ∀ entry, ledger.split? split = some entry → (∀ amount ∈ computed, amounts amount) →
      amounts (change entry).amount ∧ prices (change entry).price) :
    (editNumbers split change).Ends ledger fun _ after => after.Figures amounts prices := by
  rw [editNumbers, ensureEditable_eq]
  refine ends_ask_bind figures fun _ editable => ?_
  simp only [editing, if_pos finite, onAnswer, editable] at stored
  obtain ⟨first, rest⟩ := List.forall_mem_append.mp stored
  have marked : (ledger.mark split).Figures amounts prices := figures.alike (mark_alike ledger split)
  simp only [ends_bind, ends_update]
  exact ends_rebalanceSplit (marked.modifySplit fun entry isSplit =>
    each entry ((split?_mark split split).symm.trans isSplit) first) one rest

/-- A number that is not finite is refused, so that what follows may take it to be finite. -/
theorem ends_given {number : α} {role : NumberRole} {next : Unit → Action α J Unit}
    (figures : ledger.Figures amounts prices) (goes : Scalar.isFinite number = true →
      (next ()).Ends ledger fun _ after => after.Figures amounts prices) :
    (ensureFinite role number >>= next).Ends ledger fun _ after => after.Figures amounts prices := by
  rw [ensureFinite_eq, ends_bind, ends_ite]
  split
  · exact goes ‹_›
  · exact figures

section Numbers

variable (figures : ledger.Figures amounts prices) (accepts : Accepts amounts prices)

include figures accepts

theorem ends_setPriceAndAmount {price amount : α}
    (stored : ∀ other ∈ (Command.setPriceAndAmount split price amount).computed ledger, amounts other) :
    (setPriceAndAmount split price amount).Ends ledger fun _ after => after.Figures amounts prices :=
  ends_given figures fun first => ends_given figures fun second =>
    ends_editNumbers figures accepts.one (by simp [first, second]) stored fun _ _ _ =>
      ⟨accepts.amount second, accepts.price first⟩

theorem ends_setPrice {price : α}
    (stored : ∀ other ∈ (Command.setPrice split price).computed ledger, amounts other) :
    (setPrice split price).Ends ledger fun _ after => after.Figures amounts prices :=
  ends_given figures fun first =>
    ends_editNumbers figures accepts.one (by simp [first]) stored fun entry isSplit _ =>
      ⟨(figures split entry isSplit).1, accepts.price first⟩

theorem ends_setAmount {amount : α}
    (stored : ∀ other ∈ (Command.setAmount split amount).computed ledger, amounts other) :
    (setAmount split amount).Ends ledger fun _ after => after.Figures amounts prices :=
  ends_given figures fun first =>
    ends_editNumbers figures accepts.one (by simp [first]) stored fun entry isSplit _ =>
      ⟨accepts.amount first, (figures split entry isSplit).2⟩

theorem ends_setValue {value : α}
    (stored : ∀ other ∈ (Command.setValue split value).computed ledger, amounts other) :
    (setValue split value).Ends ledger fun _ after => after.Figures amounts prices := by
  refine ends_given figures fun first => ?_
  rw [ensureEditable_eq]
  refine ends_ask_bind figures fun _ _ => ends_ask_bind figures fun entry isSplit => ?_
  simp only [Command.computed, onAnswer, isSplit] at stored
  rw [ends_ite]
  split
  · exact figures
  · rename_i priced
    rw [if_neg priced] at stored
    exact ends_editNumbers figures accepts.one (by simp [first]) stored fun entry isSplit quotient =>
      ⟨quotient _ (by simp), (figures split entry isSplit).2⟩

omit accepts in
theorem ends_setSplitWorth {value : α} {base : Option Commodity}
    (stored : ∀ other ∈ (Command.setSplitWorth split value base).computed ledger, amounts other) :
    (setSplitWorth split value base).Ends ledger fun _ after => after.Figures amounts prices := by
  refine ends_given figures fun first => ?_
  rw [ensureEditable_eq]
  refine ends_ask_bind figures fun _ editable => ?_
  rw [ends_bind]
  cases found : ledger.split split with
  | error _ => simpa only [applyWorth, ends_bind, ends_ask, found] using figures
  | ok entry =>
    cases valued : ledger.valuation split entry base with
    | error _ => simpa only [applyWorth, ends_bind, ends_ask, found, valued] using figures
    | ok valuation =>
      simp only [Command.computed, if_pos first, onAnswer, editable, found, valued] at stored
      rw [ends_applyWorth found valued]
      exact Figures.alike (figures_withAmount figures stored) (mark_alike _ split)

end Numbers

/-! ## Moves and sessions -/

section Moves

variable (figures : ledger.Figures amounts prices) (one : prices 1)

include figures one

theorem ends_release (computed : ∀ amount ∈ ledger.balancingWithout owner split, amounts amount) :
    (release owner split).Ends ledger fun _ after => after.Figures amounts prices := by
  refine ends_release_of (fun _ => figures) (fun _ _ _ => figures_parted figures)
    fun transaction source releases isSource => ?_
  have isOpen : ledger.checkOpen owner = .ok () :=
    checkOpen_eq_ok_iff.mpr ⟨transaction, releases.isOwner, releases.isOpen⟩
  have found := transaction_eq_ok_iff.mpr releases.isOwner
  have rest := transaction_eq_ok_iff.mpr (transaction?_parted split releases.isOwner)
  simp only [balancingWithout, onAnswer, isOpen, found, if_neg releases.several.not_ge, balancingOf, rest,
    isSource] at computed
  refine (ends_rebalanceSplit (figures_parted figures) one computed).imp fun result after settled => ?_
  cases result with
  | ok _ => exact settled
  | error _ => exact figures_rejoined settled _

theorem ends_adopt
    (computed : ∀ amount ∈ ((ledger.joined owner split).mark split).balancing split, amounts amount) :
    (adopt rebalanceSplit owner split).Ends ledger fun _ after => after.Figures amounts prices :=
  Action.ends_adopt.mpr (ends_rebalanceSplit (figures_joined figures) one computed)

theorem ends_appendSplit
    (stored : ∀ amount ∈ (Command.appendSplit owner split).computed ledger, amounts amount) :
    (appendSplit owner split).Ends ledger fun _ after => after.Figures amounts prices := by
  refine ends_appendSplit_of (fun _ => figures) fun entry isOpen isSplit => ?_
  simp only [Command.computed, balancingWith, onAnswer, isOpen, split_eq_ok_iff.mpr isSplit] at stored
  cases parent : entry.parent with
  | none =>
    rw [parent] at stored
    exact ends_adopt figures one stored
  | some former =>
    rw [parent] at stored
    dsimp only at stored ⊢
    split
    · rename_i same
      rw [if_pos same] at stored
      have dropped : (ledger.modifyTransaction owner (·.drop split)).Figures amounts prices :=
        figures.of_splits rfl
      exact ends_adopt dropped one stored
    · rename_i different
      rw [if_neg different] at stored
      obtain ⟨first, rest⟩ := List.forall_mem_append.mp stored
      have released := ends_release figures one first
      unfold Ends at released ⊢
      cases result : (release former split ledger).result with
      | error _ => exact released
      | ok _ =>
        rw [result] at rest
        exact ends_adopt released one rest

theorem ends_commitEdit [Journal J α]
    (stored : ∀ amount ∈ (Command.commitEdit owner).computed ledger, amounts amount) :
    (commitEdit owner).Ends ledger fun _ after => after.Figures amounts prices := by
  rw [commitEdit_eq, ensureOpen_eq]
  refine ends_ask_bind figures fun _ isOpen => ?_
  simp only [Command.computed, onAnswer, isOpen] at stored
  have opened : (ledger.modifyTransaction owner fun t => { t with edit := .editing false }).Figures
      amounts prices := figures.of_splits rfl
  rw [ends_bind, setEditState, ends_update]
  dsimp only
  rw [ends_bind]
  refine (ends_rebalanceTransaction opened one stored).imp fun result after settled => ?_
  cases result with
  | error _ => exact settled
  | ok _ => exact keeps_closeEdit after settled

theorem ends_destroySplit [Journal J α]
    (stored : ∀ amount ∈ (Command.destroySplit split).computed ledger, amounts amount) :
    (destroySplit split).Ends ledger fun _ after => after.Figures amounts prices := by
  refine ends_destroySplit_of figures (fun _ _ _ => keeps_discardTransaction ledger figures)
    fun owner transaction member several => ?_
  obtain ⟨entry, isSplit, parent⟩ := Option.bind_eq_some_iff.mp member.parent
  have isOpen : ledger.checkOpen owner = .ok () :=
    checkOpen_eq_ok_iff.mpr ⟨transaction, member.isOwner, member.isOpen⟩
  simp only [Command.computed, onAnswer, split_eq_ok_iff.mpr isSplit, parent, Option.elim_some, isOpen,
    transaction_eq_ok_iff.mpr member.isOwner] at stored
  rw [if_pos (by simp [member.inside, several])] at stored
  have marked : (ledger.mark split).Figures amounts prices := figures.alike (mark_alike ledger split)
  have dropped : ((ledger.mark split).modifyTransaction owner (·.drop split)).Figures amounts prices :=
    marked.of_splits rfl
  exact ends_rebalanceTransaction dropped.eraseSplit one stored

end Moves

/-! ## Commands and runs -/

omit [Scalar α] in
theorem ends_done {action : Action α J Unit}
    (ends : action.Ends ledger fun _ after => after.Figures amounts prices) :
    (Command.act.done action).Ends ledger fun _ after => after.Figures amounts prices :=
  ends_reply ends

/-- A command leaves figures of the same kinds if all amounts that it computes are. -/
theorem ends_act [Journal J α] (accepts : Accepts amounts prices)
    (figures : ledger.Figures amounts prices) (command : Command α)
    (stored : ∀ amount ∈ command.computed ledger, amounts amount) :
    (command.act (J := J)).Ends ledger fun _ after => after.Figures amounts prices := by
  cases command with
  | createSplit => exact ends_reply (keeps_createSplit accepts.zero accepts.one ledger figures)
  | createTransaction => exact ends_reply (keeps_createTransaction accepts.zero accepts.one ledger figures)
  | discardSplit _ => exact ends_done (keeps_discardSplit ledger figures)
  | setPriceAndAmount _ _ _ => exact ends_done (ends_setPriceAndAmount figures accepts stored)
  | setPrice _ _ => exact ends_done (ends_setPrice figures accepts stored)
  | setAmount _ _ => exact ends_done (ends_setAmount figures accepts stored)
  | setValue _ _ => exact ends_done (ends_setValue figures accepts stored)
  | setMemo _ _ | setAction _ _ | setSplitDocref _ _ | setReconciledOn _ _ =>
    exact ends_done (keeps_editSplit (by constructor <;> exact fun _ => rfl) ledger figures)
  | setReconcile _ state => exact ends_done (keeps_setReconcile state ledger figures)
  | setNum _ _ | setDescription _ _ | setDocref _ _ | setEntered _ _ =>
    exact ends_done (keeps_editTransaction ledger figures)
  | setPosted _ date => exact ends_done (keeps_setPosted date ledger figures)
  | setDay _ day month year => exact ends_done (keeps_setDay day month year ledger figures)
  | setToday _ => exact ends_done ((keeps_read.bind fun _ => keeps_setDates _) ledger figures)
  | setCaption _ caption text => exact ends_done (keeps_setCaption caption text ledger figures)
  | appendSplit _ _ => exact ends_done (ends_appendSplit figures accepts.one stored)
  | removeSplit _ _ => exact ends_done (keeps_removeSplit ledger figures)
  | enterAccount account _ => exact ends_done (keeps_enterAccount account ledger figures)
  | leaveAccount _ => exact ends_done (keeps_leaveAccount ledger figures)
  | otherSplit split => exact ends_reply (keeps_otherSplit split ledger figures)
  | beginEdit _ defer => exact ends_done (keeps_beginEdit defer ledger figures)
  | commitEdit _ => exact ends_done (ends_commitEdit figures accepts.one stored)
  | destroyTransaction transaction =>
    exact ends_done (((keeps_ensureOpen transaction).bind fun _ => keeps_discardTransaction) ledger figures)
  | destroySplit _ => exact ends_done (ends_destroySplit figures accepts.one stored)
  | splitWorth split base => exact ends_reply (keeps_splitWorth split base ledger figures)
  | setSplitWorth _ _ _ => exact ends_done (ends_setSplitWorth figures stored)
  | transactionValue | commonCommodity | imbalance | isBalanced =>
    exact ends_reply (keeps_ask ledger figures)
  | rebalanceSplit _ => exact ends_done (ends_rebalanceSplit figures accepts.one stored)
  | rebalanceTransaction _ => exact ends_done (ends_rebalanceTransaction figures accepts.one stored)

end Overflow

/-- Every amount that a command computes is finite. -/
def Deed.InRange {α J : Type} [Scalar α] (ledger : Ledger α J) : Deed α J → Prop
  | .command request => ∀ amount ∈ request.computed ledger, Scalar.isFinite amount = true
  | _ => True

instance {α J : Type} [Scalar α] (ledger : Ledger α J) : DecidablePred (Deed.InRange ledger)
  | .command request =>
    inferInstanceAs (Decidable (∀ amount ∈ request.computed ledger, Scalar.isFinite amount = true))
  | .openAccount _ _ _ | .setDefers _ _ | .clearChanged _ | .markChanged _ | .setClock _ | .setJournal _
  | .setAccounts _ => inferInstanceAs (Decidable True)

namespace Overflow

variable {α J : Type} {amounts prices : α → Prop} [Scalar α] [Journal J α] {ledger : Ledger α J}

omit [Scalar α] [Journal J α] in
theorem figures_start (settings : Settings) (journal : J) :
    (Ledger.start settings journal : Ledger α J).Figures amounts prices := by
  intro id split found
  cases found

theorem figures_apply (accepts : Accepts amounts prices) (figures : ledger.Figures amounts prices)
    (deed : Deed α J)
    (stored : ∀ request, deed = .command request → ∀ amount ∈ request.computed ledger, amounts amount) :
    (deed.apply ledger).Figures amounts prices := by
  cases deed with
  | command request => exact ends_act accepts figures request (stored request rfl)
  | openAccount _ _ _ | setDefers _ _ | clearChanged _ | markChanged _ | setClock _ | setJournal _
  | setAccounts _ => exact figures.of_splits rfl

theorem accepts_finite : Accepts (α := Float) (Scalar.isFinite · = true) (Scalar.isFinite · = true) where
  zero := by decide +kernel
  one := by decide +kernel
  amount := id
  price := id

end Overflow

/-- All prices are finite, and all amounts are as long as none that a command computed has overflowed. -/
theorem Reachable.figures_finite {J : Type} [Journal J Float] :
    (∀ ledger : Ledger Float J, Reachable (fun _ => True) ledger →
      ∀ id split, ledger.split? id = some split → split.price.isFinite = true) ∧
    ∀ ledger : Ledger Float J, Guarded Deed.InRange ledger →
      ∀ id split, ledger.split? id = some split → split.amount.isFinite = true := by
  constructor
  · intro ledger reached id split found
    have figures : ledger.Figures (fun _ => True) (Scalar.isFinite · = true) :=
      reached.induct Overflow.figures_start fun deed _ ledger figures =>
        Overflow.figures_apply ⟨trivial, Overflow.accepts_finite.one, fun _ => trivial, fun finite => finite⟩
          figures deed fun _ _ _ _ => trivial
    exact (figures id split found).2
  · intro ledger guarded
    have figures : ledger.Figures (Scalar.isFinite · = true) (Scalar.isFinite · = true) := by
      induction guarded with
      | start settings journal => exact Overflow.figures_start settings journal
      | step _ deed inRange _ ih =>
        refine Overflow.figures_apply Overflow.accepts_finite ih deed ?_
        rintro request rfl
        exact inRange
    exact fun id split found => (figures id split found).1

section Runs

/-- The ledger after commands, with account 0 opened before them. -/
def Ledger.reckoned (enforcement : Enforcement) (commands : List (Command Float)) :
    Ledger Float (MemoryLog Float) :=
  (Ledger.start ⟨enforcement⟩ {}).after (.openAccount "Cash" .dollar none :: commands.map Deed.command)

/-- Split 1 gets its amount by a value, and split 4 as its counterpart. -/
def Ledger.mirrored : Ledger Float (MemoryLog Float) :=
  .reckoned .forceBalance [.createTransaction, .beginEdit ⟨.ofNat 2⟩ false,
    .enterAccount ⟨.ofNat 0⟩ ⟨.ofNat 1⟩, .setPrice ⟨.ofNat 1⟩ 2, .setValue ⟨.ofNat 1⟩ 30]

theorem Reachable.figures_finite_mirrored :
    (Ledger.mirrored.split? ⟨.ofNat 1⟩).map (·.amount) = some 15 ∧ ∃ split,
      Ledger.mirrored.split? ⟨.ofNat 4⟩ = some split ∧ split.amount = -30 ∧
      split.price.isFinite = true ∧ split.amount.isFinite = true := by
  have reached : Reachable (fun _ => True) Ledger.mirrored :=
    (Reachable.start _ _).after _ (fun _ _ => trivial) (by decide +kernel)
  have guarded : Guarded Deed.InRange Ledger.mirrored :=
    (Guarded.start _ _).after _ (by decide +kernel) (by decide +kernel)
  have amount : (Ledger.mirrored.split? ⟨.ofNat 4⟩).map (·.amount) = some (-30) := by decide +kernel
  obtain ⟨split, found, amount⟩ := Option.map_eq_some_iff.mp amount
  exact ⟨by decide +kernel, split, found, amount, Reachable.figures_finite.1 _ reached _ _ found,
    Reachable.figures_finite.2 _ guarded _ _ found⟩

/-- A large value at a small price. -/
def Ledger.divided : Ledger Float (MemoryLog Float) :=
  .reckoned .tolerant [.createSplit, .setPrice ⟨.ofNat 1⟩ 1e-10, .setValue ⟨.ofNat 1⟩ 1e300]

/-- Split 1 gets a counterpart that is worth more than a number can tell. -/
def Ledger.multiplied : Ledger Float (MemoryLog Float) :=
  .reckoned .forceBalance [.createTransaction, .beginEdit ⟨.ofNat 2⟩ false,
    .enterAccount ⟨.ofNat 0⟩ ⟨.ofNat 1⟩, .setPriceAndAmount ⟨.ofNat 1⟩ 1e200 1e200]

/-- Split 1 takes up two large amounts. -/
def Ledger.added : Ledger Float (MemoryLog Float) :=
  .reckoned .tolerant [.createTransaction, .beginEdit ⟨.ofNat 2⟩ false, .createSplit, .createSplit,
    .appendSplit ⟨.ofNat 2⟩ ⟨.ofNat 4⟩, .appendSplit ⟨.ofNat 2⟩ ⟨.ofNat 5⟩,
    .setAmount ⟨.ofNat 4⟩ 1.5e308, .setAmount ⟨.ofNat 5⟩ 1.5e308]

/-- Numbers that are finite give amounts that are not, by division, multiplication and addition. -/
theorem Reachable.amount_overflows :
    (Reachable (fun _ => True) Ledger.divided ∧
      (Ledger.divided.split? ⟨.ofNat 1⟩).map (·.amount.isFinite) = some false) ∧
    (Reachable (fun _ => True) Ledger.multiplied ∧
      (Ledger.multiplied.split? ⟨.ofNat 4⟩).map (·.amount.isFinite) = some false) ∧
    (Reachable (fun _ => True) Ledger.added ∧
      (Ledger.added.split? ⟨.ofNat 1⟩).map (·.amount.isFinite) = some false) := by
  refine ⟨⟨?_, by decide +kernel⟩, ⟨?_, by decide +kernel⟩, ?_, by decide +kernel⟩
  · exact (Reachable.start _ _).after _ (fun _ _ => trivial) (by decide +kernel)
  · exact (Reachable.start _ _).after _ (fun _ _ => trivial) (by decide +kernel)
  · exact (Reachable.start _ _).after _ (fun _ _ => trivial) (by decide +kernel)

end Runs

end DoubleEntry
