import DoubleEntry.Ledger.Action

/-! # Guards and single steps

A transaction changes only while an edit session is open, and so do its splits. Splits outside any
transaction may always change. Beside these guards stand the two single steps that are more than a
change of one entry: giving out an identifier, and entering a register.
-/

namespace DoubleEntry.Action

variable {α J : Type}

/-- Fails unless a transaction exists and is open. -/
def ensureOpen (id : TransactionId) : Action α J Unit := do
  let transaction ← ask (·.transaction id)
  if transaction.edit.isOpen then return ()
  else raise (.notOpen id)

/-- Fails unless a split exists and may be changed. -/
def ensureEditable (id : SplitId) : Action α J Unit := do
  match (← ask (·.split id)).parent with
  | some parent => ensureOpen parent
  | none => return ()

/-- Fails unless a number is finite. -/
def ensureFinite [Scalar α] (role : NumberRole) (number : α) : Action α J Unit :=
  if Scalar.isFinite number then return ()
  else raise (.invalid (.notFinite role (Scalar.text number)))

/-- Gives out an identifier that was not given out before. -/
def mint : Action α J Ident := do
  let serial ← read (·.minted)
  update fun ledger => { ledger with minted := serial + 1 }
  return Ident.ofNat serial

/-- Puts a split into the register of an account; an unknown account is reported. -/
def enterRegister (account : AccountId) (split : SplitId) : Action α J Unit := do
  if ← read (·.accounts.contains account) then
    update fun ledger =>
      { ledger with accounts := ledger.accounts.insertSplit ledger.postings account split }
  else report .unknownAccount

end DoubleEntry.Action
