import DoubleEntry.Ledger.Rebalance

/-! # Edit sessions

A session opens a transaction for changes, and is committed or ends with the transaction destroyed.
Each of the three writes a record. A session counts as open before its record is written and as
committed before its record is written; a transaction is destroyed only after. Committing balances
the transaction from its source, puts its splits back in order within their registers and recomputes
the accounts concerned.
-/

namespace DoubleEntry

namespace Ledger

variable {α J : Type}

/-- A transaction as it now is, with those of its splits that exist. -/
def snapshot (ledger : Ledger α J) (id : TransactionId) :
    Except Fault (TransactionSnapshot α) := do
  let transaction ← ledger.transaction id
  .ok {
    transaction := id
    num := transaction.num
    description := transaction.description
    docref := transaction.docref
    posted := transaction.posted
    entered := transaction.entered
    splits := transaction.splits.filterMap fun split => (ledger.split? split).map fun s =>
      ⟨split, s.account, s.memo, s.action, s.docref, s.reconcile, s.amount, s.price⟩ }

/-- Puts splits that have fallen out of order back to their places in their registers. -/
def restoreOrder (splits : List SplitId) (ledger : Ledger α J) : Ledger α J :=
  splits.foldl (fun ledger split =>
    match ledger.accountOf? split with
    | none => ledger
    | some account =>
      { ledger with accounts := ledger.accounts.restoreOrder ledger.postings account split }) ledger

/-- Recomputes the accounts that splits are in, each once. -/
def recomputeAll [Scalar α] (splits : List SplitId) (ledger : Ledger α J) : Ledger α J :=
  ((splits.filterMap ledger.accountOf?).eraseDups).foldl
    (fun ledger account => ledger.recompute account) ledger

end Ledger

namespace Action

variable {α J : Type} [Scalar α] [Journal J α]

/-- Asks something of the journal; its failure is a fault of the ledger. -/
def toJournal (call : J → Except JournalFault Unit × J) : Action α J Unit := fun ledger =>
  let (result, journal) := call ledger.journal
  ⟨result.mapError JournalFault.toFault, { ledger with journal }, []⟩

/-- Writes a record of a transaction as it now is. -/
def writeRecord (kind : EventKind) (id : TransactionId) : Action α J Unit := do
  let snapshot ← ask (·.snapshot id)
  let now ← read (·.now)
  let event ← mint
  toJournal (Journal.append event ⟨kind, snapshot, now⟩)

def setEditState (id : TransactionId) (edit : EditState) : Action α J Unit :=
  update (·.modifyTransaction id fun t => { t with edit })

/-- Opens a session. On a transaction that is open already it sets anew whether rebalancing is put
off. -/
def beginEdit (id : TransactionId) (defer : Bool) : Action α J Unit := do
  let _ ← ask (·.transaction id)
  setEditState id (.editing defer)
  toJournal Journal.openLog
  writeRecord .began id

def commitEdit (id : TransactionId) : Action α J Unit := do
  ensureOpen id
  setEditState id (.editing false)
  rebalanceTransaction id
  let splits := (← ask (·.transaction id)).splits
  update (·.restoreOrder splits)
  update (·.recomputeAll splits)
  setEditState id .closed
  writeRecord .committed id

/-- Removes a transaction and all its splits once that is recorded. -/
def discardTransaction (id : TransactionId) : Action α J Unit := do
  writeRecord .destroyed id
  let splits := (← ask (·.transaction id)).splits
  update fun ledger => splits.foldl (fun ledger split => (ledger.mark split).eraseSplit split) ledger
  update fun ledger => { ledger with transactions := ledger.transactions.erase id }

def destroyTransaction (id : TransactionId) : Action α J Unit := do
  ensureOpen id
  discardTransaction id

/-- Removes a split from its transaction and rebalances the rest. A transaction of one or two splits
is removed as a whole, since one split alone does not balance. -/
def destroySplit (split : SplitId) : Action α J Unit := do
  match (← ask (·.split split)).parent with
  | none =>
    report .destroyDetached
    fail (.detached split)
  | some owner =>
    ensureOpen owner
    let splits := (← ask (·.transaction owner)).splits
    if !splits.contains split then raise (.damaged (.notListed split owner))
    else if splits.length ≤ 2 then discardTransaction owner
    else
      update (·.mark split)
      update (·.modifyTransaction owner (·.drop split))
      update (·.eraseSplit split)
      rebalanceTransaction owner

end Action

end DoubleEntry
