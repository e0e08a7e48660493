import DoubleEntry.Proofs.Atomicity
import DoubleEntry.Proofs.Undamaged

/-! # Notices that match results

A fault that tells of a damaged ledger, or of a split that cannot take up a difference, comes with one
notice of an error, and nothing else does; and a refusal because a transaction is not open comes with one
notice of it. Most faults are raised together with their notice. What has to be shown is that no fault is
raised that should have a notice and has none: the ones without are that a split names an account that the
book does not have, and two contradictions between splits and transactions.
-/

namespace DoubleEntry

open DoubleEntry.Action Ledger

/-- A fault that is to be told as an error: a fatal one, or that a split cannot take up a difference. -/
def Fault.isAlarming : Fault → Bool
  | .invalid (.cannotAbsorb ..) => true
  | fault => fault.isFatal

/-- The fault that a transaction is not open. -/
def Fault.isRefusal : Fault → Bool
  | .notOpen _ => true
  | _ => false

/-- A fault that is to be told as an error and has no notice of its own. -/
def Fault.isSilent (fault : Fault) : Bool := fault.isAlarming && fault.notice?.isNone

/-- How many notices of errors belong to a result. -/
def alarms {β : Type} : Except Fault β → Nat
  | .ok _ => 0
  | .error fault => if fault.isAlarming then 1 else 0

/-- How many notices that a transaction is not open belong to a result. -/
def refusals {β : Type} : Except Fault β → Nat
  | .ok _ => 0
  | .error fault => if fault.isRefusal then 1 else 0

/-- What was told while an action ran is what belongs to its result. -/
structure Outcome.Told {α J β : Type} (outcome : Outcome α J β) : Prop where
  errors : outcome.notices.countP (·.severity = .error) = alarms outcome.result
  refused : outcome.notices.count .notOpen = refusals outcome.result

/-- The notice of a fault is of an error if the fault is alarming, and tells of a transaction that is not
open only for that fault. -/
theorem Fault.told_notice? {α J β : Type} {ledger : Ledger α J} {fault : Fault}
    (vocal : fault.isSilent = false) :
    (⟨.error fault, ledger, fault.notice?.toList⟩ : Outcome α J β).Told := by
  refine ⟨?_, ?_⟩
  · rcases fault with (_ | _) | (_ | _) | _ | _ | _ | _ | _ | _ | _ <;>
      simp_all [isSilent, isAlarming, isFatal, notice?, alarms, Notice.severity]
  · rcases fault with (_ | _) | (_ | _) | _ | _ | _ | _ | _ | _ | _ <;>
      simp [notice?, refusals, isRefusal]

/-! ## Answers -/

/-- An answer that is not a fault without a notice. -/
def Vocal {β : Type} (answer : Except Fault β) : Prop :=
  ∀ fault, answer = .error fault → fault.isSilent = false

section Answers

variable {β γ : Type} {answer : Except Fault β} {next : β → Except Fault γ} {fault : Fault}

theorem vocal_ok {value : β} : Vocal (.ok value : Except Fault β) := nofun

theorem vocal_error (vocal : fault.isSilent = false) : Vocal (.error fault : Except Fault β) :=
  fun _ same => Except.error.inj same ▸ vocal

theorem Vocal.bind (first : Vocal answer) (second : ∀ value, answer = .ok value → Vocal (next value)) :
    Vocal (answer >>= next) := by
  cases answered : answer with
  | error fault => exact vocal_error (first fault answered)
  | ok value => exact second value answered

theorem Vocal.ite {condition : Prop} [Decidable condition] {other : Except Fault β}
    (left : Vocal answer) (right : Vocal other) : Vocal (if condition then answer else other) := by
  split
  · exact left
  · exact right

end Answers

namespace Ledger

variable {α J : Type}

/-- Every account that a split names is in the book. -/
def Housed (ledger : Ledger α J) : Prop :=
  ∀ split account, ledger.accountOf? split = some account → (ledger.account? account).isSome

variable {ledger after : Ledger α J} {id : SplitId} {owner : TransactionId} {split : Split α}
  {base : Option Commodity}

theorem vocal_split : Vocal (ledger.split id) := by
  unfold Ledger.split
  cases ledger.split? id with
  | none => exact vocal_error rfl
  | some _ => exact vocal_ok

theorem vocal_transaction : Vocal (ledger.transaction owner) := by
  unfold Ledger.transaction
  cases ledger.transaction? owner with
  | none => exact vocal_error rfl
  | some _ => exact vocal_ok

theorem vocal_account {account : AccountId} : Vocal (ledger.account account) := by
  unfold Ledger.account
  cases ledger.account? account with
  | none => exact vocal_error rfl
  | some _ => exact vocal_ok

theorem vocal_checkOpen : Vocal (ledger.checkOpen owner) :=
  vocal_transaction.bind fun _ _ => vocal_ok.ite (vocal_error rfl)

theorem vocal_checkEditable : Vocal (ledger.checkEditable id) := by
  refine vocal_split.bind fun entry _ => ?_
  cases entry.parent with
  | none => exact vocal_ok
  | some owner => exact vocal_checkOpen

namespace Housed

variable (housed : ledger.Housed)

include housed

theorem accountOf (isSplit : ledger.split? id = some split) : Vocal (ledger.accountOf id split) := by
  unfold Ledger.accountOf
  cases within : split.account with
  | none => exact vocal_ok
  | some account =>
    have held := housed id account ((accountOf?_eq isSplit).trans within)
    obtain ⟨holder, held⟩ := Option.isSome_iff_exists.mp held
    simp only [held]
    exact vocal_ok

theorem valuation (isSplit : ledger.split? id = some split) : Vocal (ledger.valuation id split base) := by
  refine (housed.accountOf isSplit).bind fun place _ => ?_
  cases place with
  | some _ => exact vocal_ok
  | none => exact (vocal_error rfl).ite vocal_ok

theorem narrowBy {start : AccountId × Account} (splits : List SplitId) (candidate : Candidate) :
    Vocal (ledger.narrowBy start candidate splits) := by
  induction splits generalizing candidate with
  | nil => exact vocal_ok
  | cons entry rest ih =>
    refine vocal_split.bind fun split isSplit =>
      (housed.accountOf (split_eq_ok_iff.mp isSplit)).bind fun place _ => ?_
    cases place with
    | none => exact (vocal_error rfl).ite (ih _)
    | some place => exact (vocal_error rfl).ite (ih _)

theorem commonCommodity {trigger : SplitId} : Vocal (ledger.commonCommodity owner trigger) := by
  refine vocal_transaction.bind fun transaction _ => vocal_split.bind fun split isSplit =>
    (housed.accountOf (split_eq_ok_iff.mp isSplit)).bind fun place _ => ?_
  cases place with
  | none => exact (vocal_error rfl).ite vocal_ok
  | some place => exact (housed.narrowBy _ _).bind fun _ _ => vocal_ok

variable [Scalar α]

theorem addWorths (splits : List SplitId) (sum : α) :
    Vocal (ledger.addWorths owner base sum splits) := by
  induction splits generalizing sum with
  | nil => exact vocal_ok
  | cons entry rest ih =>
    refine vocal_split.bind fun split isSplit =>
      (housed.valuation (split_eq_ok_iff.mp isSplit)).bind fun valuation _ => ?_
    cases valuation.worth? split with
    | some worth => exact ih _
    | none => exact vocal_error rfl

theorem transactionValue {skip : Option SplitId} : Vocal (ledger.transactionValue owner skip base) :=
  vocal_transaction.bind fun _ _ => housed.addWorths _ _

theorem imbalance : Vocal (ledger.imbalance owner) := by
  refine vocal_transaction.bind fun transaction _ => ?_
  cases transaction.source? with
  | none => exact vocal_ok
  | some source => exact housed.commonCommodity.bind fun _ _ => housed.transactionValue

theorem isBalanced : Vocal (ledger.isBalanced owner) := housed.imbalance.bind fun _ _ => vocal_ok

theorem settlement : Vocal (ledger.settlement id) := by
  refine vocal_split.bind fun entry _ => ?_
  cases entry.parent with
  | none => exact vocal_ok
  | some parent =>
    refine vocal_transaction.bind fun transaction _ => vocal_ok.ite ?_
    cases transaction.splits with
    | nil => exact vocal_ok
    | cons source others =>
      refine housed.commonCommodity.bind fun base _ => vocal_ok.ite ?_
      cases others with
      | cons _ _ => exact vocal_ok
      | nil => exact vocal_split.bind fun _ _ => vocal_ok.ite vocal_ok

end Housed

/-! ## What keeps splits housed -/

theorem Housed.mono (housed : ledger.Housed)
    (splits : ∀ id account, after.accountOf? id = some account → ledger.accountOf? id = some account)
    (accounts : ∀ id, (ledger.account? id).isSome → (after.account? id).isSome) : after.Housed :=
  fun id account within => accounts account (housed id account (splits id account within))

theorem Housed.modifyAccount (housed : ledger.Housed) (account : AccountId)
    (change : Account → Account) :
    Housed { ledger with accounts := ledger.accounts.modify account change } := by
  refine housed.mono (fun _ _ within => within) fun id live => ?_
  simp only [account?, Table.get?_modify] at live ⊢
  split
  · subst_vars
    rw [Option.isSome_map]
    exact live
  · exact live

theorem Housed.modifySplit (housed : ledger.Housed) (id : SplitId) {change : Split α → Split α}
    (keeps : ∀ split, (change split).account = split.account) : (ledger.modifySplit id change).Housed := by
  refine housed.mono (fun other account within => ?_) fun _ live => live
  have same := Table.map_get?_modify ledger.splits id change Split.account keeps other
  exact (accountOf?_congr same).symm.trans within

/-- A split goes to an account of the book, or to none. -/
theorem Housed.setAccount (housed : ledger.Housed) (id : SplitId) (account : Option AccountId)
    (known : ∀ home, account = some home → (ledger.account? home).isSome) :
    (ledger.modifySplit id fun s => { s with account }).Housed := by
  intro other home within
  change (ledger.account? home).isSome
  rw [accountOf?, split?_modifySplit] at within
  split at within
  · obtain ⟨entry, changed, named⟩ := Option.bind_eq_some_iff.mp within
    obtain ⟨_, -, rfl⟩ := Option.map_eq_some_iff.mp changed
    exact known home named
  · exact housed other home within

theorem Housed.insert (housed : ledger.Housed) (id : SplitId) (entry : Split α) (minted : Nat)
    (known : ∀ home, entry.account = some home → (ledger.account? home).isSome) :
    Housed { ledger with splits := ledger.splits.insert id entry, minted } := by
  intro other home within
  change (ledger.account? home).isSome
  simp only [accountOf?, split?, Table.get?_insert] at within
  split at within
  · exact known home within
  · exact housed other home within

theorem ofLinks_housed : OfLinks (Housed (α := α) (J := J)) where
  linked before after _ membership _ housed := by
    intro id account within
    have named := membership ▸ account_eq_iff.mpr within
    have listed := congrArg Option.isSome (congrFun (congrArg Links.listed membership) account)
    simp only [Ledger.membership, Option.isSome_map] at listed
    rw [listed]
    exact housed id account (account_eq_iff.mp named)
  reentered ledger split account _ housed := housed.modifyAccount account _

variable [Scalar α]

/-- No account goes when a split leaves. -/
theorem isSome_account?_leaveAccount (account : AccountId) :
    ((ledger.leaveAccount id).account? account).isSome = (ledger.account? account).isSome := by
  unfold Ledger.leaveAccount
  split
  · rename_i home _
    have same := congrArg Option.isSome ((recompute_alike (ledger.leaveRegister home id) home).accounts
      account)
    rw [Option.isSome_map, Option.isSome_map] at same
    rw [same, leaveRegister, Book.removeSplit, account?, Table.get?_modify, account?]
    split
    · subst_vars
      exact Option.isSome_map
    · rfl
  · rfl

theorem Housed.leaveAccount (housed : ledger.Housed) (id : SplitId) : (ledger.leaveAccount id).Housed := by
  unfold Ledger.leaveAccount
  split
  · rename_i account _
    exact ofLinks_housed.alike (recompute_alike _ account) (housed.modifyAccount account _)
  · exact housed

theorem Housed.eraseSplit (housed : ledger.Housed) (id : SplitId) : (ledger.eraseSplit id).Housed := by
  refine (housed.leaveAccount id).mono (fun other account within => ?_) fun _ live => live
  obtain ⟨entry, isSplit, within⟩ := Option.bind_eq_some_iff.mp within
  rw [split?_eraseSplit] at isSplit
  split at isSplit
  · cases isSplit
  · rw [accountOf?, isSplit, Option.bind_some, within]

theorem Housed.eraseSplits (housed : ledger.Housed) (splits : List SplitId) :
    (splits.foldl (fun ledger split => (ledger.mark split).eraseSplit split) ledger).Housed := by
  induction splits generalizing ledger with
  | nil => exact housed
  | cons split rest ih =>
    exact ih ((ofLinks_housed.alike (mark_alike ledger split) housed).eraseSplit split)

end Ledger

/-- What was told belongs to the result, and every split is housed at the end. -/
structure Outcome.Reports {α J β : Type} (outcome : Outcome α J β) : Prop extends outcome.Told where
  housed : outcome.ledger.Housed

namespace Action

variable {α J β γ : Type} {ledger : Ledger α J} {fault : Fault}

/-! ## Ways of putting actions together -/

section Combining

variable (housed : ledger.Housed)

include housed

theorem reports_pure {value : β} : ((pure value : Action α J β) ledger).Reports := ⟨⟨rfl, rfl⟩, housed⟩

theorem reports_raise (vocal : fault.isSilent = false) : ((raise fault : Action α J β) ledger).Reports :=
  ⟨Fault.told_notice? vocal, housed⟩

/-- A warning other than that a transaction is not open belongs to no result. -/
theorem reports_warning {notice : Notice} (warns : notice.severity = .warning)
    (other : notice ≠ .notOpen) : (report notice ledger).Reports := by
  refine ⟨⟨?_, ?_⟩, housed⟩
  · change [notice].countP _ = 0
    simp [warns]
  · change [notice].count .notOpen = 0
    exact List.count_eq_zero.mpr fun inside => other (List.mem_singleton.mp inside).symm

/-- A split that is in no transaction where it should be is told of apart from the fault. -/
theorem reports_detached {notice : Notice} {split : SplitId} (told : notice.severity = .error) :
    ((report notice >>= fun _ => fail (.detached split) : Action α J β) ledger).Reports := by
  refine ⟨⟨?_, ?_⟩, housed⟩
  · change [notice].countP _ = 1
    simp [told]
  · change [notice].count .notOpen = 0
    rw [List.count_eq_zero]
    intro inside
    rw [← List.mem_singleton.mp inside] at told
    cases told

theorem reports_ask {query : Ledger α J → Except Fault β} (vocal : Vocal (query ledger)) :
    (ask query ledger).Reports := by
  unfold ask
  cases answer : query ledger with
  | error fault => exact reports_raise housed (vocal fault answer)
  | ok value => exact reports_pure housed

theorem reports_ask_bind {query : Ledger α J → Except Fault β} {next : β → Action α J γ}
    (vocal : Vocal (query ledger))
    (goesOn : ∀ value, query ledger = .ok value → (next value ledger).Reports) :
    ((ask query >>= next) ledger).Reports := by
  rw [ask_bind]
  cases answer : query ledger with
  | error fault => exact reports_raise housed (vocal fault answer)
  | ok value => exact goesOn value answer

theorem reports_open {next : Unit → Action α J γ} {owner : TransactionId}
    (rest : (next () ledger).Reports) : ((ensureOpen owner >>= next) ledger).Reports := by
  rw [ensureOpen_eq]
  exact reports_ask_bind housed vocal_checkOpen fun _ _ => rest

theorem reports_editable {next : Unit → Action α J γ} {split : SplitId}
    (rest : (next () ledger).Reports) : ((ensureEditable split >>= next) ledger).Reports := by
  rw [ensureEditable_eq]
  exact reports_ask_bind housed vocal_checkEditable fun _ _ => rest

end Combining

theorem reports_bind {action : Action α J β} {next : β → Action α J γ} (first : (action ledger).Reports)
    (rest : ∀ value after, after.Housed → (next value after).Reports) :
    ((action >>= next) ledger).Reports := by
  change (andThen action next ledger).Reports
  unfold andThen
  generalize action ledger = outcome at first
  obtain ⟨_ | value, after, told⟩ := outcome
  · exact ⟨⟨first.errors, first.refused⟩, first.housed⟩
  · have later := rest value after first.housed
    refine ⟨⟨?_, ?_⟩, later.housed⟩
    · have none := first.errors
      dsimp only at none ⊢
      rw [List.countP_append, none, later.errors]
      exact Nat.zero_add _
    · have none := first.refused
      dsimp only at none ⊢
      rw [List.count_append, none, later.refused]
      exact Nat.zero_add _

theorem reports_ite_of {condition : Prop} [Decidable condition] {yes no : Action α J β}
    (left : condition → (yes ledger).Reports) (right : ¬ condition → (no ledger).Reports) :
    ((if condition then yes else no) ledger).Reports := by
  split
  · exact left ‹_›
  · exact right ‹_›

theorem reports_ite {condition : Prop} [Decidable condition] {yes no : Action α J β}
    (left : (yes ledger).Reports) (right : (no ledger).Reports) :
    ((if condition then yes else no) ledger).Reports := reports_ite_of (fun _ => left) fun _ => right

theorem reports_onFault {action : Action α J β} {undo : Ledger α J → Ledger α J}
    (reports : (action ledger).Reports) (undoes : ∀ ledger, ledger.Housed → (undo ledger).Housed) :
    (action.onFault undo ledger).Reports := by
  unfold onFault
  generalize action ledger = outcome at reports
  obtain ⟨_ | _, _, _⟩ := outcome
  · exact ⟨⟨reports.errors, reports.refused⟩, undoes _ reports.housed⟩
  · exact reports

theorem reports_reply {action : Action α J β} {reply : β → γ} (reports : (action ledger).Reports) :
    ((action >>= fun value => pure (reply value)) ledger).Reports :=
  reports_bind reports fun _ _ housed => reports_pure housed

theorem reports_forM {ι : Type} {items : List ι} {step : ι → Action α J Unit} (housed : ledger.Housed)
    (each : ∀ item ledger, ledger.Housed → (step item ledger).Reports) :
    (items.forM step ledger).Reports := by
  induction items generalizing ledger with
  | nil => exact reports_pure housed
  | cons item rest ih => exact reports_bind (each item ledger housed) fun _ _ => ih

/-- A change that leaves every split housed. -/
theorem reports_update {change : Ledger α J → Ledger α J} (housed : (change ledger).Housed) :
    (update change ledger).Reports := ⟨⟨rfl, rfl⟩, housed⟩

theorem reports_update_bind {change : Ledger α J → Ledger α J} {next : Unit → Action α J γ}
    (rest : (next () (change ledger)).Reports) : ((update change >>= next) ledger).Reports :=
  ⟨⟨rest.errors, rest.refused⟩, rest.housed⟩

theorem reports_finite [Scalar α] {role : NumberRole} {number : α} {next : Unit → Action α J γ}
    (housed : ledger.Housed) (rest : (next () ledger).Reports) :
    ((ensureFinite role number >>= next) ledger).Reports := by
  rw [ensureFinite_eq]
  split
  · exact rest
  · exact reports_raise (β := γ) housed rfl

end Action

namespace Reporting

variable {α J : Type} {ledger : Ledger α J} {id split edited target : SplitId} {owner : TransactionId}
  {base : Option Commodity}

/-! ## Passes -/

section Passes

theorem reports_enterRegister {account : AccountId} (housed : ledger.Housed) :
    (enterRegister account split ledger).Reports := by
  rw [enterRegister, read_bind]
  split
  · exact reports_update (housed.modifyAccount account _)
  · exact reports_warning housed rfl (by simp)

variable [Scalar α]

theorem reports_applyWorth (housed : ledger.Housed) (value : α) :
    (applyWorth split value base ledger).Reports := by
  have renewed (amount : α) : (ledger.modifySplit split fun s => { s with amount }).Housed :=
    housed.modifySplit split fun _ => rfl
  refine reports_ask_bind housed vocal_split fun entry isSplit =>
    reports_ask_bind housed (housed.valuation (split_eq_ok_iff.mp isSplit)) fun valuation _ => ?_
  cases valuation with
  | priced =>
    exact reports_ite
      (reports_bind (reports_warning housed rfl (by simp)) fun _ _ housed => reports_pure housed)
      (reports_update_bind (reports_pure (renewed _)))
  | shares => exact reports_update_bind (reports_pure (renewed _))
  | inexpressible =>
    exact reports_bind (reports_warning housed rfl (by simp)) fun _ _ housed => reports_pure housed

/-- The fault that a split cannot take up a difference is raised with its notice. -/
theorem reports_absorb (housed : ledger.Housed) : (absorb owner target base ledger).Reports := by
  refine reports_ask_bind housed housed.transactionValue fun sum _ =>
    reports_bind (reports_applyWorth housed (-sum)) fun applied after housed => ?_
  rw [read_bind]
  refine reports_ite ?_ (reports_update_bind ?_)
  · exact reports_ask_bind housed vocal_split fun _ _ => reports_raise housed rfl
  · have marked := ofLinks_housed.alike (mark_alike _ target) housed
    exact reports_ask_bind marked vocal_split fun entry _ =>
      reports_update (ofLinks_housed.alike (recompute?_alike _ entry.account) marked)

theorem reports_settle {lone : TransactionId → SplitId → Action α J Unit} (housed : ledger.Housed)
    (pairs : ∀ owner source, (lone owner source ledger).Reports) : (settle lone edited ledger).Reports := by
  rw [settle_eq]
  refine reports_ask_bind housed housed.settlement fun settlement _ => ?_
  cases settlement with
  | rest => exact reports_pure housed
  | absorb _ _ _ => exact reports_absorb housed
  | pair owner source => exact pairs owner source

theorem reports_adopt {settle : SplitId → Action α J Unit} (housed : ledger.Housed)
    (settles : ∀ ledger, ledger.Housed → (settle split ledger).Reports) :
    (adopt settle owner split ledger).Reports := by
  have joined : (ledger.modifySplit split fun s => { s with parent := some owner }).Housed :=
    housed.modifySplit split fun _ => rfl
  have pushed : ((ledger.modifySplit split fun s => { s with parent := some owner }).modifyTransaction
      owner (·.push split)).Housed := joined
  exact reports_update_bind <| reports_update_bind <| reports_update_bind <|
    settles _ (ofLinks_housed.alike (mark_alike _ split) pushed)

/-- The counterpart of a split is in the account of that split. -/
theorem reports_addCounterpart (housed : ledger.Housed) : (addCounterpart owner edited ledger).Reports := by
  refine reports_ask_bind housed vocal_split fun entry isSplit => ?_
  have known (home : AccountId) (within : entry.account = some home) : (ledger.account? home).isSome :=
    housed edited home ((accountOf?_eq (split_eq_ok_iff.mp isSplit)).trans within)
  rw [mint_bind]
  refine reports_update_bind (reports_bind ?_ fun _ after housed => ?_)
  · exact reports_adopt (housed.insert _ _ _ known) fun _ housed =>
      reports_settle housed fun _ _ => reports_pure housed
  · cases entry.account with
    | none => exact reports_pure housed
    | some account =>
      exact reports_bind (reports_enterRegister housed) fun _ after housed =>
        reports_update (ofLinks_housed.alike (recompute_alike _ account) housed)

theorem reports_rebalanceSplit (housed : ledger.Housed) : (rebalanceSplit edited ledger).Reports :=
  reports_settle housed fun _ _ => reports_addCounterpart housed

theorem reports_rebalanceTransaction (housed : ledger.Housed) :
    (rebalanceTransaction owner ledger).Reports := by
  refine reports_ask_bind housed vocal_transaction fun transaction _ => ?_
  cases transaction.source? with
  | none => exact reports_pure housed
  | some source => exact reports_rebalanceSplit housed

end Passes

/-! ## Fields -/

theorem reports_editSplit {change : Split α → Split α} (housed : ledger.Housed)
    (keeps : Split.KeepsLinks change) [Scalar α] : (editSplit split change ledger).Reports :=
  reports_editable housed <| reports_update_bind <| reports_update <|
    ofLinks_housed.alike (mark_alike _ split) (housed.modifySplit split keeps.account)

theorem reports_editTransaction {change : Transaction → Transaction} (housed : ledger.Housed) [Scalar α] :
    (editTransaction owner change ledger).Reports := by
  have changed : (ledger.modifyTransaction owner change).Housed := housed
  exact reports_open housed <| reports_update_bind <| reports_update <|
    ofLinks_housed.alike (markTransaction_alike _ owner) changed

theorem reports_reposition (housed : ledger.Housed) : (reposition split ledger).Reports := by
  rw [reposition, read_bind]
  cases ledger.accountOf? split with
  | none => exact reports_pure housed
  | some account =>
    exact reports_update_bind (reports_enterRegister (housed.modifyAccount account _))

section Fields

variable [Scalar α]

theorem reports_setReconcile (housed : ledger.Housed) (state : Reconcile) :
    (setReconcile split state ledger).Reports :=
  reports_bind (reports_editSplit housed (by constructor <;> exact fun _ => rfl)) fun _ _ housed =>
    reports_ask_bind housed vocal_split fun entry _ =>
      reports_update (ofLinks_housed.alike (recompute?_alike _ entry.account) housed)

theorem reports_editNumbers {change : Split α → Split α} (housed : ledger.Housed)
    (keeps : Split.KeepsLinks change) : (editNumbers split change ledger).Reports :=
  reports_editable housed <| reports_update_bind <| reports_update_bind <| reports_rebalanceSplit <|
    (ofLinks_housed.alike (mark_alike _ split) housed).modifySplit split keeps.account

theorem reports_setValue (housed : ledger.Housed) (value : α) : (setValue split value ledger).Reports :=
  reports_finite housed <| reports_editable housed <| reports_ask_bind housed vocal_split fun _ _ =>
    reports_ite (reports_raise housed rfl)
      (reports_editNumbers housed (by constructor <;> exact fun _ => rfl))

theorem reports_setSplitWorth (housed : ledger.Housed) (value : α) :
    (setSplitWorth split value base ledger).Reports :=
  reports_finite housed <| reports_editable housed <|
    reports_bind (reports_applyWorth housed value) fun _ _ housed =>
      reports_update (ofLinks_housed.alike (mark_alike _ split) housed)

theorem reports_splitWorth (housed : ledger.Housed) : (splitWorth split base ledger).Reports := by
  rw [splitWorth, read_bind]
  cases isSplit : ledger.split? split with
  | none => exact reports_pure housed
  | some entry =>
    refine reports_ask_bind housed (housed.valuation isSplit) fun valuation _ => ?_
    cases valuation.worth? entry with
    | some _ => exact reports_pure housed
    | none =>
      exact reports_bind (reports_warning housed rfl (by simp)) fun _ _ housed => reports_pure housed

theorem reports_setPosted (housed : ledger.Housed) (date : Instant) :
    (setPosted owner date ledger).Reports := by
  have posted : (ledger.modifyTransaction owner fun t => { t with posted := date }).Housed := housed
  refine reports_open housed (reports_update_bind ?_)
  rw [read_bind]
  exact reports_bind (reports_forM posted fun _ _ => reports_reposition) fun _ _ housed =>
    reports_update (ofLinks_housed.alike (markTransaction_alike _ owner) housed)

theorem reports_setDates (housed : ledger.Housed) (date : Instant) :
    (setDates owner date ledger).Reports := by
  have entered : (ledger.modifyTransaction owner fun t => { t with entered := date }).Housed := housed
  exact reports_open housed (reports_update_bind (reports_setPosted entered date))

theorem reports_setDay (housed : ledger.Housed) (day month : Nat) (year : Int) :
    (setDay owner day month year ledger).Reports := by
  unfold setDay
  cases Instant.onDay? ⟨year, month, day⟩ postingHour with
  | some date => exact reports_setDates housed date
  | none => exact reports_raise housed rfl

theorem reports_setCaptionOf (housed : ledger.Housed) (caption : Caption) (text : String) :
    (setCaptionOf split caption text ledger).Reports :=
  reports_ask_bind housed vocal_split fun _ _ => reports_update_bind <| reports_update <|
    ofLinks_housed.alike (mark_alike _ split)
      (housed.modifySplit split (Split.keepsLinks_setCaption caption text).account)

/-- No transaction is without splits. -/
theorem reports_setCaption (housed : ledger.Housed) (owned : ledger.Owned) (caption : Caption)
    (text : String) : (setCaption owner caption text ledger).Reports := by
  refine reports_open housed (reports_ask_bind housed vocal_transaction fun transaction found => ?_)
  have occupied := owned.nonempty (transaction_eq_ok_iff.mp found)
  rcases shape : transaction.splits with _ | ⟨first, _ | ⟨second, _ | ⟨third, rest⟩⟩⟩
  · exact absurd shape occupied
  · dsimp only
    rw [read_bind]
    refine reports_ite ?_ (reports_setCaptionOf housed _ _)
    exact reports_ask_bind housed vocal_split fun _ _ =>
      reports_ite (reports_setCaptionOf housed _ _) (reports_raise housed rfl)
  · exact reports_bind (reports_setCaptionOf housed _ _) fun _ _ housed => reports_setCaptionOf housed _ _
  · exact reports_setCaptionOf housed _ _

end Fields

/-! ## Coming, going and moving -/

theorem reports_otherSplit (housed : ledger.Housed) : (otherSplit split ledger).Reports := by
  rw [otherSplit, read_bind]
  cases ledger.split? split with
  | none => exact reports_pure housed
  | some entry =>
    dsimp only
    cases entry.parent with
    | none => exact reports_detached housed rfl
    | some owner => exact reports_ask_bind housed vocal_transaction fun _ _ => reports_pure housed

section Moving

variable [Scalar α]

theorem reports_createSplit (housed : ledger.Housed) : (createSplit ledger).Reports := by
  have comes := housed.insert ledger.nextSplit .empty (ledger.minted + 1) nofun
  rw [createSplit, mint_bind]
  exact reports_update_bind (reports_pure comes)

theorem reports_createTransaction (housed : ledger.Housed) : (createTransaction ledger).Reports := by
  let source : Split α := { (.empty : Split α) with parent := some ⟨Ident.ofNat (ledger.minted + 1)⟩ }
  have comes := housed.insert ledger.nextSplit source (ledger.minted + 2) nofun
  exact ⟨⟨rfl, rfl⟩, comes⟩

theorem reports_discardSplit (housed : ledger.Housed) : (discardSplit split ledger).Reports := by
  refine reports_ask_bind housed vocal_split fun entry _ => ?_
  cases entry.parent with
  | some _ => exact reports_raise housed rfl
  | none => exact reports_update (housed.eraseSplit split)

omit [Scalar α] in
theorem housed_parted (housed : ledger.Housed) : (ledger.parted owner split).Housed := by
  have dropped : (ledger.modifyTransaction owner (·.drop split)).Housed := housed
  exact dropped.modifySplit split fun _ => rfl

omit [Scalar α] in
theorem housed_rejoined (housed : ledger.Housed) (place : Option Nat) :
    (ledger.rejoined owner split place).Housed := by
  cases place with
  | none => exact housed
  | some index =>
    have listed : (ledger.modifyTransaction owner (·.insertAt index split)).Housed := housed
    exact listed.modifySplit split fun _ => rfl

theorem reports_release (housed : ledger.Housed) : (release owner split ledger).Reports := by
  refine reports_open housed (reports_ask_bind housed vocal_transaction fun transaction _ =>
    reports_ite (reports_raise housed rfl) (reports_update_bind <| reports_update_bind ?_))
  have parted : (ledger.parted owner split).Housed := housed_parted housed
  refine reports_ask_bind parted vocal_transaction fun rest _ => ?_
  cases rest.source? with
  | none => exact reports_pure parted
  | some source =>
    exact reports_onFault (reports_rebalanceSplit parted) fun _ housed =>
      housed_rejoined housed (transaction.splits.idxOf? split)

theorem reports_appendSplit (housed : ledger.Housed) : (appendSplit owner split ledger).Reports := by
  have adopts {ledger : Ledger α J} (housed : ledger.Housed) :
      (adopt rebalanceSplit owner split ledger).Reports :=
    reports_adopt housed fun _ => reports_rebalanceSplit
  refine reports_open housed (reports_ask_bind housed vocal_split fun entry _ => ?_)
  cases entry.parent with
  | none => exact adopts housed
  | some former =>
    dsimp only
    split
    · have dropped : (ledger.modifyTransaction owner (·.drop split)).Housed := housed
      exact reports_update_bind (adopts dropped)
    · exact reports_bind (reports_release housed) fun _ _ => adopts

theorem reports_removeSplit (housed : ledger.Housed) : (removeSplit owner split ledger).Reports := by
  have parted : (ledger.parted owner split).Housed := housed_parted housed
  exact reports_open housed <| reports_ask_bind housed vocal_transaction fun _ _ =>
    reports_ite (reports_raise housed rfl) <| reports_ite (reports_raise housed rfl) <|
      reports_update_bind <| reports_update_bind <|
        reports_update (ofLinks_housed.alike (mark_alike _ split) parted)

/-- A split enters an account that is in the book. -/
theorem reports_enterAccount {account : AccountId} (housed : ledger.Housed) :
    (enterAccount account split ledger).Reports := by
  refine reports_ask_bind housed vocal_account fun holder held => reports_editable housed <|
    reports_update_bind <| reports_update_bind ?_
  have left := housed.leaveAccount split
  have known : ((ledger.leaveAccount split).account? account).isSome := by
    rw [isSome_account?_leaveAccount, account_eq_ok_iff.mp held]
    rfl
  have entered := left.setAccount split (some account) fun home same =>
    Option.some.inj same ▸ known
  exact reports_bind (reports_enterRegister entered) fun _ after housed =>
    reports_update (ofLinks_housed.alike (recompute_alike _ account) housed)

theorem reports_leaveAccount (housed : ledger.Housed) : (Action.leaveAccount split ledger).Reports :=
  reports_editable housed <| reports_update_bind <| reports_update <|
    (housed.leaveAccount split).setAccount split none nofun

end Moving

/-! ## Sessions -/

section Sessions

/-- What the journal refuses is told by its fault alone. -/
theorem reports_toJournal (housed : ledger.Housed) (call : J → Except JournalFault Unit × J) :
    (toJournal (α := α) call ledger).Reports := by
  change (Outcome.mk ((call ledger.journal).1.mapError JournalFault.toFault) _ []).Reports
  cases (call ledger.journal).1 with
  | ok _ => exact ⟨⟨rfl, rfl⟩, housed⟩
  | error reason => exact ⟨⟨rfl, rfl⟩, housed⟩

variable [Journal J α]

theorem reports_writeRecord (housed : ledger.Housed) (kind : EventKind) :
    (writeRecord kind owner ledger).Reports := by
  have vocal : Vocal (ledger.snapshot owner) := vocal_transaction.bind fun _ _ => vocal_ok
  refine reports_ask_bind housed vocal fun snapshot _ => ?_
  rw [read_bind, mint_bind]
  have numbered : Housed { ledger with minted := ledger.minted + 1 } := housed
  exact reports_toJournal numbered _

theorem reports_beginEdit (housed : ledger.Housed) (defer : Bool) :
    (beginEdit owner defer ledger).Reports := by
  have opened : (ledger.modifyTransaction owner fun t => { t with edit := .editing defer }).Housed :=
    housed
  exact reports_ask_bind housed vocal_transaction fun _ _ => reports_update_bind <|
    reports_bind (reports_toJournal opened _) fun _ _ housed => reports_writeRecord housed _

variable [Scalar α]

theorem reports_closeEdit (housed : ledger.Housed) : (closeEdit owner ledger).Reports := by
  refine reports_ask_bind housed vocal_transaction fun transaction _ =>
    reports_update_bind <| reports_update_bind <| reports_update_bind ?_
  have ordered := ofLinks_housed.restoreOrder transaction.splits ledger housed
  have renewed := ofLinks_housed.recomputeAll transaction.splits _ ordered
  have closed (close : Transaction → Transaction) :
      ((Ledger.recomputeAll transaction.splits _).modifyTransaction owner close).Housed := renewed
  exact reports_writeRecord (closed _) _

theorem reports_commitEdit (housed : ledger.Housed) : (commitEdit owner ledger).Reports := by
  rw [commitEdit_eq]
  have opened : (ledger.modifyTransaction owner fun t => { t with edit := .editing false }).Housed :=
    housed
  exact reports_open housed <| reports_update_bind <|
    reports_bind (reports_rebalanceTransaction opened) fun _ _ => reports_closeEdit

theorem reports_discardTransaction (housed : ledger.Housed) :
    (discardTransaction owner ledger).Reports := by
  refine reports_bind (reports_writeRecord housed _) fun _ after housed =>
    reports_ask_bind housed vocal_transaction fun transaction _ => reports_update_bind ?_
  have erased := housed.eraseSplits transaction.splits
  exact reports_update erased

/-- A transaction that a split names lists it. -/
theorem reports_destroySplit (housed : ledger.Housed) (owned : ledger.Owned) :
    (destroySplit split ledger).Reports := by
  refine reports_ask_bind housed vocal_split fun entry isSplit => ?_
  cases parent : entry.parent with
  | none => exact reports_detached housed rfl
  | some owner =>
    refine reports_open housed (reports_ask_bind housed vocal_transaction fun transaction found => ?_)
    have named := parent_eq_iff.mpr ⟨entry, split_eq_ok_iff.mp isSplit, parent⟩
    have inside := (owned.mem_iff (transaction_eq_ok_iff.mp found)).mpr named
    refine reports_ite_of (fun apart => absurd inside (by simpa using apart)) fun _ =>
      reports_ite (reports_discardTransaction housed) ?_
    have marked := ofLinks_housed.alike (mark_alike ledger split) housed
    have dropped : ((ledger.mark split).modifyTransaction owner (·.drop split)).Housed := marked
    exact reports_update_bind <| reports_update_bind <| reports_update_bind <|
      reports_rebalanceTransaction (dropped.eraseSplit split)

end Sessions

/-! ## All commands -/

theorem reports_act [Scalar α] [Journal J α] (housed : ledger.Housed) (owned : ledger.Owned)
    (command : Command α) : (command.act (J := J) ledger).Reports := by
  cases command with
  | createSplit => exact reports_reply (reports_createSplit housed)
  | createTransaction => exact reports_reply (reports_createTransaction housed)
  | discardSplit split => exact reports_reply (reports_discardSplit housed)
  | setPriceAndAmount split price amount =>
    exact reports_reply <| reports_finite housed <| reports_finite housed <|
      reports_editNumbers housed (by constructor <;> exact fun _ => rfl)
  | setPrice | setAmount =>
    exact reports_reply <| reports_finite housed <|
      reports_editNumbers housed (by constructor <;> exact fun _ => rfl)
  | setValue split value => exact reports_reply (reports_setValue housed value)
  | setMemo | setAction | setSplitDocref | setReconciledOn =>
    exact reports_reply (reports_editSplit housed (by constructor <;> exact fun _ => rfl))
  | setReconcile split state => exact reports_reply (reports_setReconcile housed state)
  | setNum | setDescription | setDocref | setEntered =>
    exact reports_reply (reports_editTransaction housed)
  | setPosted transaction date => exact reports_reply (reports_setPosted housed date)
  | setDay transaction day month year => exact reports_reply (reports_setDay housed day month year)
  | setToday transaction => exact reports_reply (reports_setDates housed ledger.now)
  | setCaption transaction caption text =>
    exact reports_reply (reports_setCaption housed owned caption text)
  | appendSplit => exact reports_reply (reports_appendSplit housed)
  | removeSplit => exact reports_reply (reports_removeSplit housed)
  | enterAccount => exact reports_reply (reports_enterAccount housed)
  | leaveAccount => exact reports_reply (reports_leaveAccount housed)
  | otherSplit => exact reports_reply (reports_otherSplit housed)
  | beginEdit transaction defer => exact reports_reply (reports_beginEdit housed defer)
  | commitEdit => exact reports_reply (reports_commitEdit housed)
  | destroyTransaction =>
    exact reports_reply (reports_open housed (reports_discardTransaction housed))
  | destroySplit => exact reports_reply (reports_destroySplit housed owned)
  | splitWorth => exact reports_reply (reports_splitWorth housed)
  | setSplitWorth split value base => exact reports_reply (reports_setSplitWorth housed value)
  | transactionValue => exact reports_reply (reports_ask housed housed.transactionValue)
  | commonCommodity => exact reports_reply (reports_ask housed housed.commonCommodity)
  | rebalanceSplit => exact reports_reply (reports_rebalanceSplit housed)
  | rebalanceTransaction => exact reports_reply (reports_rebalanceTransaction housed)
  | imbalance => exact reports_reply (reports_ask housed housed.imbalance)
  | isBalanced => exact reports_reply (reports_ask housed housed.isBalanced)

end Reporting

namespace Outcome.Told

variable {α J β : Type} {outcome : Outcome α J β}

theorem exists_error_iff (told : outcome.Told) : (∃ notice ∈ outcome.notices, notice.severity = .error) ↔
    ∃ fault, outcome.result = .error fault ∧ fault.isAlarming = true := by
  have counted : 0 < outcome.notices.countP (·.severity = .error) ↔
      ∃ notice ∈ outcome.notices, notice.severity = .error := by
    simp [List.countP_pos_iff]
  rw [← counted, told.errors]
  cases outcome.result with
  | ok _ => simp [alarms]
  | error fault => cases alarming : fault.isAlarming <;> simp [alarms, alarming]

theorem errors_le_one (told : outcome.Told) : outcome.notices.countP (·.severity = .error) ≤ 1 := by
  rw [told.errors]
  cases outcome.result with
  | ok _ => exact Nat.zero_le 1
  | error fault => cases alarming : fault.isAlarming <;> simp [alarms, alarming]

theorem notOpen_mem_iff (told : outcome.Told) : .notOpen ∈ outcome.notices ↔
    ∃ transaction, outcome.result = .error (.notOpen transaction) := by
  rw [← List.count_pos_iff, told.refused]
  cases outcome.result with
  | ok _ => simp [refusals]
  | error fault => cases fault <;> simp [refusals, Fault.isRefusal]

theorem refused_le_one (told : outcome.Told) : outcome.notices.count .notOpen ≤ 1 := by
  rw [told.refused]
  cases outcome.result with
  | ok _ => exact Nat.zero_le 1
  | error fault => cases refusal : fault.isRefusal <;> simp [refusals, refusal]

end Outcome.Told

theorem Fault.isAlarming_iff {fault : Fault} : fault.isAlarming = true ↔ fault.isFatal = true ∨
    ∃ split transaction price, fault = .invalid (.cannotAbsorb split transaction price) := by
  rcases fault with (_ | _) | _ | _ | _ | _ | _ | _ | _ | _ <;> simp [isAlarming, isFatal]

/-- Whatever was asked of a ledger before, and whatever a command names: an error is told of if and only
if the command fails with a fatal fault, or because a split cannot take up a difference, and then once;
and that a transaction is not open is told of if and only if the command fails for that, and then once. -/
theorem Reachable.command_reports {α J : Type} [Scalar α] [ZeroPriced α] [Journal J α]
    {ledger : Ledger α J} (reached : Reachable Deed.LeavesRegisters ledger) (command : Command α) :
    ((∃ notice ∈ (command.run ledger).notices, notice.severity = .error) ↔
      ∃ fault, (command.run ledger).result = .error fault ∧ (fault.isFatal = true ∨
        ∃ split transaction price, fault = .invalid (.cannotAbsorb split transaction price))) ∧
    (command.run ledger).notices.countP (·.severity = .error) ≤ 1 ∧
    (.notOpen ∈ (command.run ledger).notices ↔
      ∃ transaction, (command.run ledger).result = .error (.notOpen transaction)) ∧
    (command.run ledger).notices.count .notOpen ≤ 1 := by
  have housed : ledger.Housed := fun _ _ => reached.resolves.homes
  have told : (command.run ledger).Told := (Reporting.reports_act housed reached.owned command).toTold
  refine ⟨told.exists_error_iff.trans ?_, told.errors_le_one, told.notOpen_mem_iff, told.refused_le_one⟩
  exact exists_congr fun fault => and_congr_right fun _ => Fault.isAlarming_iff

/-- A commit that fails because the second split cannot take up a difference tells of one error, and not
that the transaction is not open. -/
theorem Reachable.command_reports_unabsorbed :
    let outcome := (Command.commitEdit ⟨.ofNat 3⟩).run unabsorbed
    outcome.notices.countP (·.severity = .error) = 1 ∧ .notOpen ∉ outcome.notices := by
  have reached : Reachable Deed.LeavesRegisters unabsorbed :=
    ((Reachable.start _ _).after _ (by decide) (by decide +kernel)).after _ (by decide)
      (by decide +kernel)
  have failed : ((Command.commitEdit ⟨.ofNat 3⟩).run unabsorbed).result =
      .error (.invalid (.cannotAbsorb ⟨.ofNat 5⟩ ⟨.ofNat 3⟩ "0/1")) := by
    decide +kernel
  obtain ⟨errors, once, refused, -⟩ := Reachable.command_reports reached (.commitEdit ⟨.ofNat 3⟩)
  obtain ⟨notice, told, isError⟩ := errors.mpr ⟨_, failed, .inr ⟨_, _, _, rfl⟩⟩
  refine ⟨le_antisymm once (List.countP_pos_iff.mpr ⟨notice, told, by simpa using isError⟩), ?_⟩
  rw [refused, failed]
  rintro ⟨_, same⟩
  cases same

end DoubleEntry
