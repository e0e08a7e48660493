import DoubleEntry.Ledger.Rebalance

/-! # Membership

A split comes into being on its own or with a transaction, belongs to one transaction at most and to
one account at most. A transaction never gives up its only split this way. Moving a split to another
transaction settles the one that it leaves first; if that fails, the split stays where it was.
-/

namespace DoubleEntry.Action

variable {α J : Type} [Scalar α]

/-- A new split outside any transaction. -/
def createSplit : Action α J SplitId := do
  let id : SplitId := ⟨← mint⟩
  update fun ledger => { ledger with splits := ledger.splits.insert id .empty }
  return id

/-- A new closed transaction with one empty split. -/
def createTransaction : Action α J TransactionId := do
  let source : SplitId := ⟨← mint⟩
  let id : TransactionId := ⟨← mint⟩
  update fun ledger =>
    { ledger with
      splits := ledger.splits.insert source { (.empty : Split α) with parent := some id }
      transactions := ledger.transactions.insert id (.ofSource source) }
  return id

/-- Removes a split that is in no transaction. -/
def discardSplit (id : SplitId) : Action α J Unit := do
  let split ← ask (·.split id)
  match split.parent with
  | some _ => raise (.invalid (.attached id))
  | none => update (·.eraseSplit id)

/-! ## Transactions -/

/-- Takes a split away from the transaction that owns it and settles what is left there. -/
def release (owner : TransactionId) (split : SplitId) : Action α J Unit := do
  ensureOpen owner
  let splits := (← ask (·.transaction owner)).splits
  if splits.length ≤ 1 then raise (.invalid (.onlySplit split owner))
  else
    let setParent (parent : Option TransactionId) (ledger : Ledger α J) : Ledger α J :=
      ledger.modifySplit split fun s => { s with parent }
    update (·.modifyTransaction owner (·.drop split))
    update (setParent none)
    match (← ask (·.transaction owner)).source? with
    | none => return ()
    | some source =>
      onFault (rebalanceSplit source) fun ledger =>
        match splits.idxOf? split with
        | none => ledger
        | some index =>
          setParent (some owner) (ledger.modifyTransaction owner (·.insertAt index split))

/-- Puts a split at the end of a transaction, out of the one that it was part of. -/
def appendSplit (id : TransactionId) (split : SplitId) : Action α J Unit := do
  ensureOpen id
  match (← ask (·.split split)).parent with
  | none => pure ()
  | some owner =>
    if owner = id then update (·.modifyTransaction id (·.drop split))
    else release owner split
  adopt rebalanceSplit id split

/-- Takes a split out of a transaction and does not rebalance it. -/
def removeSplit (id : TransactionId) (split : SplitId) : Action α J Unit := do
  ensureOpen id
  let splits := (← ask (·.transaction id)).splits
  if !splits.contains split then raise (.invalid (.notMember split id))
  else if splits.length = 1 then raise (.invalid (.onlySplit split id))
  else
    update (·.modifyTransaction id (·.drop split))
    update (·.modifySplit split fun s => { s with parent := none })
    update (·.mark split)

/-! ## Accounts -/

/-- Puts a split into an account, out of the one that it was in. -/
def enterAccount (account : AccountId) (split : SplitId) : Action α J Unit := do
  let _ ← ask (·.account account)
  ensureEditable split
  update (·.leaveAccount split)
  update (·.modifySplit split fun s => { s with account := some account })
  enterRegister account split
  update (·.recompute account)

/-- Takes a split out of its account, if it has one. -/
def leaveAccount (split : SplitId) : Action α J Unit := do
  ensureEditable split
  update (·.leaveAccount split)
  update (·.modifySplit split fun s => { s with account := none })

end DoubleEntry.Action
