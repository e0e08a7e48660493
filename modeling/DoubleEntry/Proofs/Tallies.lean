import DoubleEntry.Proofs.Concordance

/-! # Sessions as arithmetic

What a session does to amounts and prices can be told without the ledger, if all splits of its transaction
are in accounts of one currency that do not put rebalancing off. An edit writes the numbers that it names,
and a pass gives one split the opposite of what the others are worth, unless its price is zero. In a
session that puts rebalancing off there is no pass before its commit.
-/

namespace DoubleEntry

open DoubleEntry.Action Ledger

/-- The amounts and prices of all splits. -/
@[ext]
structure Tally where
  amount : SplitId → Rat
  price : SplitId → Rat

namespace Tally

def worth (tally : Tally) (entry : SplitId) : Rat := tally.amount entry * tally.price entry

/-- What all splits of a list but one are worth. -/
def others (tally : Tally) (splits : List SplitId) (target : SplitId) : Rat :=
  ((splits.filter fun entry => some target ≠ some entry).map tally.worth).sum

/-- A split takes up what the others are worth, unless its price is zero. -/
def absorbed (tally : Tally) (splits : List SplitId) (target : SplitId) : Tally :=
  if tally.price target = 0 then tally
  else { tally with
    amount := Function.update tally.amount target (-tally.others splits target / tally.price target) }

/-- A pass from an edited split. -/
def settled (tally : Tally) (transaction : Transaction) (edited : SplitId) : Tally :=
  match transaction.target? edited with
  | some target => tally.absorbed transaction.splits target
  | none => tally

end Tally

/-- An edit of the amount of a split, of its price, or of both. -/
inductive NumberEdit where
  | setAmount (split : SplitId) (amount : Rat)
  | setPrice (split : SplitId) (price : Rat)
  | setBoth (split : SplitId) (price amount : Rat)

namespace NumberEdit

def split : NumberEdit → SplitId
  | .setAmount split _ | .setPrice split _ | .setBoth split _ _ => split

def amount? : NumberEdit → Option Rat
  | .setAmount _ amount | .setBoth _ _ amount => some amount
  | .setPrice _ _ => none

def price? : NumberEdit → Option Rat
  | .setPrice _ price | .setBoth _ price _ => some price
  | .setAmount _ _ => none

def command : NumberEdit → Command Rat
  | .setAmount split amount => .setAmount split amount
  | .setPrice split price => .setPrice split price
  | .setBoth split price amount => .setPriceAndAmount split price amount

/-- What an edit makes of its split. -/
def change (edit : NumberEdit) (entry : Split Rat) : Split Rat :=
  { entry with amount := edit.amount?.getD entry.amount, price := edit.price?.getD entry.price }

/-- What an edit makes of the numbers. -/
def apply (edit : NumberEdit) (tally : Tally) : Tally where
  amount := Function.update tally.amount edit.split (edit.amount?.getD (tally.amount edit.split))
  price := Function.update tally.price edit.split (edit.price?.getD (tally.price edit.split))

section Applying

variable {edit : NumberEdit} {tally : Tally} {entry : SplitId}

theorem amount_apply : (edit.apply tally).amount edit.split =
    edit.amount?.getD (tally.amount edit.split) := Function.update_self ..

theorem price_apply : (edit.apply tally).price edit.split =
    edit.price?.getD (tally.price edit.split) := Function.update_self ..

theorem amount_apply_of_ne (different : entry ≠ edit.split) :
    (edit.apply tally).amount entry = tally.amount entry := Function.update_of_ne different ..

theorem price_apply_of_ne (different : entry ≠ edit.split) :
    (edit.apply tally).price entry = tally.price entry := Function.update_of_ne different ..

end Applying

theorem keepsLinks_change (edit : NumberEdit) : Split.KeepsLinks edit.change :=
  ⟨fun _ => rfl, fun _ => rfl⟩

/-- All numbers are finite, so an edit is not refused for them. -/
theorem act_command {J : Type} [Journal J Rat] (edit : NumberEdit) :
    edit.command.act (J := J) = Command.act.done (editNumbers edit.split edit.change) := by
  cases edit <;> rfl

end NumberEdit

/-- An edit in a session, with the pass that follows unless the session puts it off. -/
def Tally.edited (transaction : Transaction) (defer : Bool) (tally : Tally) (edit : NumberEdit) : Tally :=
  if defer then edit.apply tally else (edit.apply tally).settled transaction edit.split

/-! ## Commands in turn -/

section Turns

variable {α J : Type} [Scalar α] [Journal J α]

/-- Commands one after another, up to the first that fails. -/
def Action.inTurn (commands : List (Command α)) : Action α J Unit :=
  commands.forM fun command => do
    let _ ← command.act

/-- The commands of a session on a transaction: it begins, numbers are edited, and it is committed. -/
def Command.session (owner : TransactionId) (defer : Bool) (edits : List NumberEdit) :
    List (Command Rat) :=
  .beginEdit owner defer :: edits.map (·.command) ++ [.commitEdit owner]

end Turns

section Succeeding

variable {α J β γ : Type} {ledger : Ledger α J} {holds kept : Ledger α J → Prop}

/-- What holds of the ledger after an action, if it succeeds. -/
def Action.Yields (action : Action α J β) (ledger : Ledger α J) (holds : Ledger α J → Prop) : Prop :=
  action.Ends ledger fun result after => (∃ value, result = .ok value) → holds after

theorem Action.Yields.bind {action : Action α J β} {next : β → Action α J γ}
    (first : action.Yields ledger kept)
    (rest : ∀ value after, kept after → (next value).Yields after holds) :
    (action >>= next).Yields ledger holds := by
  refine ends_bind.mpr (Ends.imp first fun result after held => ?_)
  cases result with
  | error _ =>
    rintro ⟨_, failed⟩
    cases failed
  | ok value => exact rest value after (held ⟨value, rfl⟩)

theorem Action.Keeps.yields {action : Action α J β} (keeps : Keeps holds action) (start : holds ledger) :
    action.Yields ledger holds := (keeps ledger start).imp fun _ _ held _ => held

theorem Action.yields_update_bind {change : Ledger α J → Ledger α J} {next : Unit → Action α J γ}
    (rest : (next ()).Yields (change ledger) holds) : (update change >>= next).Yields ledger holds :=
  ends_bind.mpr (ends_update.mpr rest)

/-- A question that is answered is gone on with. -/
theorem Action.yields_ask_bind {query : Ledger α J → Except Fault β} {next : β → Action α J γ}
    (rest : ∀ value, query ledger = .ok value → (next value).Yields ledger holds) :
    (ask query >>= next).Yields ledger holds := by
  refine ends_bind.mpr (ends_ask.mpr ?_)
  cases answer : query ledger with
  | error _ =>
    rintro ⟨_, failed⟩
    cases failed
  | ok value => exact rest value answer

theorem Action.yields_done {action : Action α J Unit} (yields : action.Yields ledger holds) :
    (Command.act.done action).Yields ledger holds :=
  yields.bind fun _ _ held _ => held

end Succeeding

/-! ## The numbers of a ledger -/

namespace Ledger

variable {J : Type} {start ledger after : Ledger Rat J} {owner : TransactionId}
  {transaction : Transaction} {entry target edited : SplitId} {split : Split Rat} {currency : Commodity}

def tally (ledger : Ledger Rat J) : Tally := ⟨ledger.amount, ledger.price⟩

/-- All splits of a list are in accounts of one currency that do not put rebalancing off. -/
def Uniform (ledger : Ledger Rat J) (splits : List SplitId) (currency : Commodity) : Prop :=
  ∀ entry ∈ splits, ∃ holder, ledger.holder? entry = some holder ∧ holder.currency = currency ∧
    holder.defers = false

theorem tally_eq (isSplit : ledger.split? entry = some split) :
    ledger.tally.amount entry = split.amount ∧ ledger.tally.price entry = split.price := by
  constructor
  · change ((ledger.split? entry).map _).getD 0 = _
    rw [isSplit]
    rfl
  · change ((ledger.split? entry).map _).getD 1 = _
    rw [isSplit]
    rfl

/-- The numbers are read off the terms of the splits. -/
theorem SameValues.tally (same : ledger.SameValues after) : after.tally = ledger.tally := by
  have read (id : SplitId) := same.terms id
  ext id
  · have amounts := congrArg (Option.map fun terms : Option AccountId × Rat × Rat => terms.2.1) (read id)
    rw [Option.map_map, Option.map_map] at amounts
    exact congrArg (Option.getD · 0) amounts
  · have prices := congrArg (Option.map fun terms : Option AccountId × Rat × Rat => terms.2.2) (read id)
    rw [Option.map_map, Option.map_map] at prices
    exact congrArg (Option.getD · 1) prices

theorem tally_change (edit : NumberEdit) (isSplit : ledger.split? edit.split = some split) :
    (ledger.modifySplit edit.split edit.change).tally = edit.apply ledger.tally := by
  obtain ⟨amount, price⟩ := tally_eq isSplit
  have changed : (ledger.modifySplit edit.split edit.change).split? edit.split =
      some (edit.change split) := by
    rw [split?_modifySplit, if_pos rfl, isSplit, Option.map_some]
  have others {id : SplitId} (different : id ≠ edit.split) :
      (ledger.modifySplit edit.split edit.change).split? id = ledger.split? id := by
    rw [split?_modifySplit, if_neg different]
  ext id
  · by_cases same : id = edit.split
    · subst same
      rw [(tally_eq changed).1, NumberEdit.amount_apply, amount]
      rfl
    · rw [NumberEdit.amount_apply_of_ne same]
      exact congrArg (fun entry => (entry.map Split.amount).getD 0) (others same)
  · by_cases same : id = edit.split
    · subst same
      rw [(tally_eq changed).2, NumberEdit.price_apply, price]
      rfl
    · rw [NumberEdit.price_apply_of_ne same]
      exact congrArg (fun entry => (entry.map Split.price).getD 1) (others same)

theorem tally_withAmount {amount : Rat} (isSplit : ledger.split? target = some split) :
    (ledger.withAmount target (some amount)).tally =
      { ledger.tally with amount := Function.update ledger.tally.amount target amount } := by
  have changed := tally_change (.setAmount target amount) isSplit
  refine changed.trans ?_
  ext id
  · rfl
  · exact congrFun (Function.update_eq_self target ledger.tally.price) id

/-! ## Accounts of one currency -/

namespace Uniform

variable {splits : List SplitId} (uniform : start.Uniform splits currency)

include uniform

theorem place (inside : entry ∈ splits) : ∃ split account holder, start.split? entry = some split ∧
    start.accountOf entry split = .ok (some (account, holder)) ∧ holder.currency = currency ∧
      split.account.any start.accounts.defers = false := by
  obtain ⟨holder, found, isCurrency, ready⟩ := uniform entry inside
  obtain ⟨account, within, held⟩ := Option.bind_eq_some_iff.mp found
  obtain ⟨split, isSplit, named⟩ := Option.bind_eq_some_iff.mp within
  refine ⟨split, account, holder, isSplit, ?_, isCurrency, ?_⟩
  · rw [accountOf, named]
    simp only [held]
  · rw [named]
    change ((start.account? account).any (·.defers)) = false
    rw [held]
    exact ready

/-- The currency is what all splits decide for. -/
theorem commonCommodity (isOwner : start.transaction? owner = some transaction)
    (same : splits = transaction.splits) (inside : edited ∈ splits) :
    start.commonCommodity owner edited = .ok (some currency) := by
  have accepts : ∀ entry ∈ transaction.splits, start.Accepts entry currency := by
    intro entry inside
    obtain ⟨split, account, holder, isSplit, found, isCurrency, -⟩ := uniform.place (same ▸ inside)
    exact ⟨split, isSplit, .inr ⟨account, holder, found, .inl isCurrency⟩⟩
  obtain ⟨split, account, holder, isSplit, found, isCurrency, -⟩ := uniform.place inside
  obtain ⟨base, finds, prefers⟩ :=
    commonCommodity_of_accepts isOwner isSplit found (.inl isCurrency) accepts
  rw [finds, prefers isCurrency]

/-- In the currency every split has its face value. -/
theorem valuation (inside : entry ∈ splits) (same : start.SameHoldings ledger)
    (isSplit : ledger.split? entry = some split) :
    ledger.valuation entry split (some currency) = .ok .priced := by
  obtain ⟨before, account, holder, isBefore, found, isCurrency, -⟩ := uniform.place inside
  obtain ⟨again, isAgain, kept⟩ := same.split isBefore
  obtain rfl : again = split := Option.some.inj (isAgain.symm.trans isSplit)
  refine same.valuation kept ?_
  rw [Ledger.valuation, found, ok_bind]
  exact congrArg Except.ok (if_pos isCurrency)

theorem worthIn (inside : entry ∈ splits) (same : start.SameHoldings ledger) :
    ledger.worthIn owner (some currency) entry = ledger.tally.worth entry := by
  obtain ⟨before, -, -, isBefore, -⟩ := uniform.place inside
  obtain ⟨split, isSplit, -⟩ := same.split isBefore
  have valued := uniform.valuation inside same isSplit
  obtain ⟨amount, price⟩ := tally_eq isSplit
  rw [Tally.worth, amount, price]
  exact worthIn_eq (worthOf_eq_ok_iff.mpr ⟨split, .priced, isSplit, valued, rfl⟩)

end Uniform

/-- A split that takes up the difference does so by its price. -/
theorem tally_absorbed {amount? : Option Rat} (uniform : start.Uniform transaction.splits currency)
    (same : start.SameHoldings ledger) (isOwner : start.transaction? owner = some transaction)
    (inside : target ∈ transaction.splits)
    (absorbs : ledger.absorption owner target (some currency) = .ok amount?) :
    (ledger.absorbed target amount?).tally = ledger.tally.absorbed transaction.splits target := by
  obtain ⟨sum, split, valuation, others, isSplit, valued, finds, -⟩ := absorption_eq_ok absorbs
  obtain rfl : .priced = valuation :=
    Except.ok.inj ((uniform.valuation inside same isSplit).symm.trans valued)
  have total : ledger.tally.others transaction.splits target = sum := by
    obtain ⟨again, isAgain, lists⟩ := same.transaction isOwner
    rw [transactionValue, transaction_eq_ok_iff.mpr isAgain, ok_bind, lists] at others
    rw [← (addWorths_eq_ok_iff.mp others).2, Tally.others]
    rw [zero_add]
    congr 1
    exact List.map_congr_left fun entry kept =>
      (uniform.worthIn (List.mem_of_mem_filter kept) same).symm
  rw [absorbed_alike.sameValues.tally, Tally.absorbed, total, (tally_eq isSplit).2]
  simp only [Valuation.amountFor?, Scalar.isZero_iff] at finds
  split at finds
  · rename_i free
    rw [← finds, if_pos free, withAmount]
  · rename_i priced
    rw [← finds, if_neg priced, tally_withAmount isSplit]

/-! ## During a session -/

/-- A session on a transaction, with the numbers that splits have by then. Its splits are those that it
began with, in the accounts that they were in. -/
structure InSession (start : Ledger Rat J) (owner : TransactionId) (defer : Bool) (tally : Tally)
    (ledger : Ledger Rat J) : Prop extends SameHoldings start ledger where
  ownership : ledger.ownership = start.ownership
  accountsDefer : ledger.accounts.defers = start.accounts.defers
  edit : (ledger.transaction? owner).map (·.edit) = some (.editing defer)
  tally : ledger.tally = tally

namespace InSession

variable {defer : Bool} {tally : Tally} (session : start.InSession owner defer tally ledger)

include session

theorem alike (alike : ledger.Alike after) : start.InSession owner defer tally after where
  toSameHoldings := session.toSameHoldings.trans alike.sameValues.toSameHoldings
  ownership := alike.ownership.trans session.ownership
  accountsDefer := alike.defers.trans session.accountsDefer
  edit := by
    rw [transaction?, alike.transactions]
    exact session.edit
  tally := alike.sameValues.tally.trans session.tally

theorem isSome (live : (start.split? entry).isSome) : ∃ split, ledger.split? entry = some split := by
  obtain ⟨before, isBefore⟩ := Option.isSome_iff_exists.mp live
  obtain ⟨split, isSplit, -⟩ := session.split isBefore
  exact ⟨split, isSplit⟩

/-- An edit writes its numbers. -/
theorem change (edit : NumberEdit) (live : (start.split? edit.split).isSome) :
    start.InSession owner defer (edit.apply tally) (ledger.modifySplit edit.split edit.change) := by
  obtain ⟨split, isSplit⟩ := session.isSome live
  refine ⟨session.toSameHoldings.trans ⟨rfl, ?_, fun _ => rfl, fun _ => rfl⟩, ?_, session.accountsDefer,
    session.edit, ?_⟩
  · exact Table.map_get?_modify ledger.splits edit.split edit.change (·.account) fun _ => rfl
  · exact (ownership_modifySplit edit.keepsLinks_change.parent).trans session.ownership
  · rw [tally_change edit isSplit, session.tally]

theorem parent (named : start.parentOf? entry = some owner) :
    ∃ split, ledger.split? entry = some split ∧ split.parent = some owner := by
  have named := parentOf?_eq_some_iff.mp named
  rw [← session.ownership] at named
  exact parent_eq_iff.mp named

theorem now (isOwner : start.transaction? owner = some transaction) :
    ∃ now, ledger.transaction? owner = some now ∧ now.splits = transaction.splits ∧
      now.edit = .editing defer := by
  obtain ⟨now, isNow, lists⟩ := session.transaction isOwner
  have edit := session.edit
  rw [isNow] at edit
  exact ⟨now, isNow, lists, Option.some.inj edit⟩

/-- What is recorded of a session is no part of it. -/
theorem recorded (journal : J) (minted : Nat) :
    start.InSession owner defer tally { ledger with journal, minted } :=
  ⟨⟨session.enforces, session.splits, session.lists, session.accounts⟩, session.ownership,
    session.accountsDefer, session.edit, session.tally⟩

end InSession

/-- A session is opened, or opened anew. -/
theorem inSession_opened (same : start.SameHoldings ledger) (ownership : ledger.ownership = start.ownership)
    (accountsDefer : ledger.accounts.defers = start.accounts.defers)
    (live : (ledger.transaction? owner).isSome) (defer : Bool) :
    start.InSession owner defer ledger.tally
      (ledger.modifyTransaction owner fun t => { t with edit := .editing defer }) := by
  refine ⟨same.trans (modifyTransaction_sameValues owner (by exact fun _ => rfl)).toSameHoldings,
    (ownership_modifyTransaction (by exact fun _ => rfl)).trans ownership, accountsDefer, ?_, rfl⟩
  obtain ⟨transaction, isOwner⟩ := Option.isSome_iff_exists.mp live
  rw [transaction?_modifyTransaction, if_pos rfl, isOwner]
  rfl

/-- A transaction of two splits or more, all of them in accounts of one currency that do not put
rebalancing off. -/
structure Fit (start : Ledger Rat J) (owner : TransactionId) (transaction : Transaction)
    (currency : Commodity) : Prop where
  isOwner : start.transaction? owner = some transaction
  uniform : start.Uniform transaction.splits currency
  several : 2 ≤ transaction.splits.length
  parents : ∀ entry ∈ transaction.splits, start.parentOf? entry = some owner

end Ledger

namespace Tallies

variable {J : Type} {start ledger after : Ledger Rat J} {owner : TransactionId}
  {transaction : Transaction} {edited : SplitId} {currency : Commodity} {defer : Bool} {tally : Tally}
  (fit : start.Fit owner transaction currency)

include fit

/-- A session that does not put rebalancing off is not kept from it by an account either. -/
theorem active (session : start.InSession owner false tally ledger) (inside : edited ∈ transaction.splits) :
    ∃ split now, ledger.Active edited split owner now ∧ now.splits = transaction.splits := by
  obtain ⟨split, isSplit, parent⟩ := session.parent (fit.parents edited inside)
  obtain ⟨now, isNow, lists, edit⟩ := session.now fit.isOwner
  refine ⟨split, now, ⟨isSplit, parent, isNow, by rw [edit]; rfl, ?_⟩, lists⟩
  obtain ⟨before, _, _, isBefore, -, -, ready⟩ := fit.uniform.place inside
  obtain ⟨again, isAgain, kept⟩ := session.split isBefore
  obtain rfl : again = split := Option.some.inj (isAgain.symm.trans isSplit)
  rw [kept, session.accountsDefer]
  exact ready

theorem inSession_absorbed {target : SplitId} {amount? : Option Rat}
    (session : start.InSession owner defer tally ledger) (inside : target ∈ transaction.splits)
    (absorbs : ledger.absorption owner target (some currency) = .ok amount?) :
    start.InSession owner defer (tally.absorbed transaction.splits target)
      (ledger.absorbed target amount?) := by
  have links : ledger.SameLinks (ledger.absorbed target amount?) := absorbed_sameLinks
  have but : ledger.AlikeBut target (ledger.absorbed target amount?) := absorbed_alikeBut
  refine ⟨session.toSameHoldings.trans absorbed_sameHoldings, links.ownership.trans session.ownership,
    defers_absorbed.trans session.accountsDefer, ?_, ?_⟩
  · rw [transaction?, but.transactions]
    exact session.edit
  · rw [tally_absorbed fit.uniform session.toSameHoldings fit.isOwner inside absorbs, session.tally]

/-- A pass gives one split the opposite of what the others are worth. -/
theorem yields_rebalanceSplit (session : start.InSession owner false tally ledger)
    (inside : edited ∈ transaction.splits) : (rebalanceSplit edited).Yields ledger
      (start.InSession owner false (tally.settled transaction edited)) := by
  obtain ⟨split, now, active, lists⟩ := active fit session inside
  have occupied : now.splits ≠ [] := by
    rw [lists]
    exact List.ne_nil_of_mem inside
  have common := session.commonCommodity (fit.uniform.commonCommodity fit.isOwner rfl inside)
  have targets : now.target? edited = transaction.target? edited := by
    unfold Transaction.target?
    rw [lists]
  rw [Yields, rebalanceSplit, ends_settle, active.settlement, if_neg occupied, common, ok_bind, targets]
  cases isTarget : transaction.target? edited with
  | none =>
    have alone := (Transaction.target?_eq_none (lists ▸ occupied)).mp isTarget
    have several := fit.several
    simp [alone] at several
  | some target =>
    dsimp only
    cases absorbs : ledger.absorption owner target (some currency) with
    | error fault =>
      rintro ⟨_, failed⟩
      cases failed
    | ok amount? =>
      intro _
      rw [Tally.settled, isTarget]
      exact inSession_absorbed fit session (Transaction.mem_of_target? isTarget) absorbs

/-- A session that puts rebalancing off makes no pass. -/
theorem yields_rest (session : start.InSession owner true tally ledger)
    (inside : edited ∈ transaction.splits) :
    (rebalanceSplit edited).Yields ledger (start.InSession owner true tally) := by
  obtain ⟨split, isSplit, parent⟩ := session.parent (fit.parents edited inside)
  obtain ⟨now, isNow, -, edit⟩ := session.now fit.isOwner
  have rests := settlement_of_deferred isSplit parent isNow (by rw [edit]; rfl)
  rw [Yields, rebalanceSplit, ends_settle, rests]
  exact fun _ => session

variable [Journal J Rat]

theorem yields_edit {edit : NumberEdit} (session : start.InSession owner defer tally ledger)
    (inside : edit.split ∈ transaction.splits) : edit.command.act.Yields ledger
      (start.InSession owner defer (tally.edited transaction defer edit)) := by
  have live : (start.split? edit.split).isSome := by
    obtain ⟨split, -, -, isSplit, -⟩ := fit.uniform.place inside
    rw [isSplit]
    rfl
  rw [edit.act_command]
  refine yields_done (((keeps_ensureEditable edit.split).yields session).bind fun _ after session => ?_)
  have changed := (session.alike (after.mark_alike edit.split)).change edit live
  refine yields_update_bind (yields_update_bind ?_)
  cases defer with
  | true => exact yields_rest fit changed inside
  | false => exact yields_rebalanceSplit fit changed inside

theorem yields_edits {edits : List NumberEdit} (session : start.InSession owner defer tally ledger)
    (inside : ∀ edit ∈ edits, edit.split ∈ transaction.splits) :
    (inTurn (edits.map (·.command))).Yields ledger
      (start.InSession owner defer (edits.foldl (Tally.edited transaction defer) tally)) := by
  induction edits generalizing ledger tally with
  | nil => exact fun _ => session
  | cons edit rest ih =>
    have first := yields_edit fit session (inside edit List.mem_cons_self)
    refine Yields.bind (first.bind fun _ after session _ => session) fun _ after session => ?_
    exact ih session fun other later => inside other (List.mem_cons_of_mem edit later)

omit fit in
theorem keeps_writeRecord (kind : EventKind) :
    Keeps (start.InSession owner defer tally) (writeRecord (α := Rat) kind owner) := by
  refine keeps_ask.bind fun _ => keeps_read.bind fun _ => Keeps.bind ?_ fun _ => ?_
  · exact fun ledger session => session.recorded ledger.journal (ledger.minted + 1)
  · exact fun ledger session => session.recorded _ ledger.minted

/-- A session begins with the numbers that are there. -/
theorem yields_beginEdit : ((Command.beginEdit owner defer).act (J := J)).Yields start
    (start.InSession owner defer start.tally) := by
  have opened := inSession_opened (SameValues.refl start).toSameHoldings rfl rfl
    (by rw [fit.isOwner]; rfl) defer
  refine yields_done (yields_ask_bind fun _ _ => yields_update_bind ?_)
  refine Yields.bind ?_ fun _ after session => (keeps_writeRecord .began).yields session
  exact fun _ => opened.recorded _ start.minted

/-- A commit makes a pass from the source. -/
theorem yields_commitEdit {source : SplitId} (session : start.InSession owner defer tally ledger)
    (isSource : transaction.source? = some source) :
    ((Command.commitEdit owner).act (J := J)).Yields ledger
      fun after => after.tally = tally.settled transaction source := by
  have inside : source ∈ transaction.splits := List.mem_of_mem_head? isSource
  refine yields_done ?_
  rw [commitEdit_eq]
  refine ((keeps_ensureOpen owner).yields session).bind fun _ after session => yields_update_bind ?_
  obtain ⟨now, isNow, -⟩ := session.now fit.isOwner
  have resumed := inSession_opened session.toSameHoldings session.ownership session.accountsDefer
    (by rw [isNow]; rfl) false
  rw [session.tally] at resumed
  suffices passes : Yields _ _ (start.InSession owner false (tally.settled transaction source)) from
    passes.bind fun _ settled session closed =>
      ((keeps_closeEdit_sameValues owner).yields (SameValues.refl settled) closed).tally.trans session.tally
  obtain ⟨again, isAgain, lists, -⟩ := resumed.now fit.isOwner
  refine yields_ask_bind fun found isFound => ?_
  obtain rfl : again = found := Option.some.inj (isAgain.symm.trans (transaction_eq_ok_iff.mp isFound))
  rw [Transaction.source?, lists, ← Transaction.source?, isSource]
  exact yields_rebalanceSplit fit resumed inside

/-- A session that succeeds ends with the numbers that the edits and the passes give. -/
theorem yields_session {source : SplitId} {edits : List NumberEdit}
    (isSource : transaction.source? = some source)
    (inside : ∀ edit ∈ edits, edit.split ∈ transaction.splits) :
    (inTurn (Command.session owner defer edits)).Yields start fun after => after.tally =
      (edits.foldl (Tally.edited transaction defer) start.tally).settled transaction source := by
  refine Yields.bind ((yields_beginEdit fit).bind fun _ _ session _ => session) fun _ begun session => ?_
  change (inTurn (edits.map NumberEdit.command ++ [.commitEdit owner])).Yields begun _
  rw [inTurn, List.forM_eq_forM, List.forM_append]
  refine (yields_edits fit session inside).bind fun _ edited session => ?_
  refine Yields.bind ((yields_commitEdit fit session isSource).bind fun _ _ tally _ => tally)
    fun _ _ tally _ => tally

end Tallies

end DoubleEntry
