import DoubleEntry.Ledger.Rebalance

/-! # Editing fields

Amounts, prices and values have to be finite, and a change to one of them rebalances the
transaction. Texts and dates only mark the accounts concerned; a new reconcile state recomputes its
account, and a new posted date moves splits to their new places in their registers.
-/

namespace DoubleEntry.Action

variable {α J : Type}

/-! ## Fields of a split -/

/-- Changes a split that may be changed and marks its account. -/
def editSplit (id : SplitId) (change : Split α → Split α) : Action α J Unit := do
  ensureEditable id
  update (·.modifySplit id change)
  update (·.mark id)

def setMemo (id : SplitId) (memo : String) : Action α J Unit :=
  editSplit id fun s => { s with memo }

def setAction (id : SplitId) (action : String) : Action α J Unit :=
  editSplit id fun s => { s with action }

def setSplitDocref (id : SplitId) (docref : String) : Action α J Unit :=
  editSplit id fun s => { s with docref }

def setReconciledOn (id : SplitId) (reconciledOn : Instant) : Action α J Unit :=
  editSplit id fun s => { s with reconciledOn }

section Numbers

variable [Scalar α]

/-- The cleared and reconciled sums of the account change with the state. -/
def setReconcile (id : SplitId) (reconcile : Reconcile) : Action α J Unit := do
  editSplit id fun s => { s with reconcile }
  let split ← ask (·.split id)
  update (·.recompute? split.account)

/-- Changes the amount or price of a split that may be changed, and rebalances. -/
def editNumbers (id : SplitId) (change : Split α → Split α) : Action α J Unit := do
  ensureEditable id
  update (·.mark id)
  update (·.modifySplit id change)
  rebalanceSplit id

def setPriceAndAmount (id : SplitId) (price amount : α) : Action α J Unit := do
  ensureFinite .sharePrice price
  ensureFinite .shareAmount amount
  editNumbers id fun s => { s with price, amount }

def setPrice (id : SplitId) (price : α) : Action α J Unit := do
  ensureFinite .sharePrice price
  editNumbers id fun s => { s with price }

def setAmount (id : SplitId) (amount : α) : Action α J Unit := do
  ensureFinite .shareAmount amount
  editNumbers id fun s => { s with amount }

/-- Sets the amount that gives a split this value at its price, which must not be zero. -/
def setValue (id : SplitId) (value : α) : Action α J Unit := do
  ensureFinite .value value
  ensureEditable id
  let split ← ask (·.split id)
  if Scalar.isZero split.price then raise (.invalid (.zeroPrice id))
  else editNumbers id fun s => { s with amount := value / split.price }

/-- Sets the worth of a split in a commodity and does not rebalance. -/
def setSplitWorth (id : SplitId) (value : α) (base : Option Commodity) : Action α J Unit := do
  ensureFinite .value value
  ensureEditable id
  let _ ← applyWorth id value base
  update (·.mark id)

end Numbers

/-! ## Fields of a transaction -/

/-- Changes an open transaction and marks the accounts of all its splits. -/
def editTransaction (id : TransactionId) (change : Transaction → Transaction) :
    Action α J Unit := do
  ensureOpen id
  update (·.modifyTransaction id change)
  update (·.markTransaction id)

def setNum (id : TransactionId) (num : String) : Action α J Unit :=
  editTransaction id fun t => { t with num }

def setDescription (id : TransactionId) (description : String) : Action α J Unit :=
  editTransaction id fun t => { t with description }

def setDocref (id : TransactionId) (docref : String) : Action α J Unit :=
  editTransaction id fun t => { t with docref }

def setEntered (id : TransactionId) (entered : Instant) : Action α J Unit :=
  editTransaction id fun t => { t with entered }

/-- Takes a split out of its register and puts it in again at its place. -/
def reposition (split : SplitId) : Action α J Unit := do
  match ← read (·.accountOf? split) with
  | none => return ()
  | some account =>
    update (·.leaveRegister account split)
    enterRegister account split

/-- Every split moves to its new place in its register. -/
def setPosted (id : TransactionId) (posted : Instant) : Action α J Unit := do
  ensureOpen id
  update (·.modifyTransaction id fun t => { t with posted })
  let splits ← read (·.splitsOf id)
  splits.forM reposition
  update (·.markTransaction id)

/-- Sets both dates of a transaction. -/
def setDates (id : TransactionId) (date : Instant) : Action α J Unit := do
  ensureOpen id
  update (·.modifyTransaction id fun t => { t with entered := date })
  setPosted id date

/-- The hour of day of a date that is given without one. -/
def postingHour : Nat := 11

/-- Sets both dates to a calendar day. -/
def setDay (id : TransactionId) (day month : Nat) (year : Int) : Action α J Unit :=
  match Instant.onDay? ⟨year, month, day⟩ postingHour with
  | some date => setDates id date
  | none => raise (.invalid (.noSuchDay year month day))

/-- Sets both dates to the present. -/
def setToday (id : TransactionId) : Action α J Unit := do
  setDates id (← read (·.now))

/-! ## Texts shared by two splits -/

/-- Sets a text of one split. -/
def setCaptionOf (id : SplitId) (caption : Caption) (text : String) : Action α J Unit := do
  let _ ← ask (·.split id)
  update (·.modifySplit id (·.setCaption caption text))
  update (·.mark id)

/-- Sets a text of the source split, and of the second split if there are exactly two. Under
enforcement it is a fault if the source stands alone with an amount. -/
def setCaption [Scalar α] (id : TransactionId) (caption : Caption) (text : String) :
    Action α J Unit := do
  ensureOpen id
  let transaction ← ask (·.transaction id)
  match transaction.splits with
  | [] => raise (.damaged (.noSplits id))
  | [first] =>
    if ← read (·.enforces) then
      let split ← ask (·.split first)
      if Scalar.isZero split.amount then setCaptionOf first caption text
      else raise (.damaged (.unbalancedLoneSplit id))
    else setCaptionOf first caption text
  | [first, second] =>
    setCaptionOf first caption text
    setCaptionOf second caption text
  | first :: _ => setCaptionOf first caption text

end DoubleEntry.Action
