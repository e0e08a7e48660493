import DoubleEntry.Ledger.Edit
import DoubleEntry.Ledger.EditSession
import DoubleEntry.Ledger.Membership
import DoubleEntry.Ledger.Relations

/-! # Commands

Everything that a ledger can be asked to do and that may fail, as data, and what it answers. The
owner of the book of accounts acts beside the ledger: it opens accounts and sets their flags, which
never fails. Registers are kept by the ledger alone.
-/

namespace DoubleEntry

inductive Command (α : Type) where
  | createSplit
  | createTransaction
  | discardSplit (split : SplitId)
  | setPriceAndAmount (split : SplitId) (price amount : α)
  | setPrice (split : SplitId) (price : α)
  | setAmount (split : SplitId) (amount : α)
  | setValue (split : SplitId) (value : α)
  | setMemo (split : SplitId) (memo : String)
  | setAction (split : SplitId) (action : String)
  | setSplitDocref (split : SplitId) (docref : String)
  | setReconcile (split : SplitId) (state : Reconcile)
  | setReconciledOn (split : SplitId) (date : Instant)
  | setNum (transaction : TransactionId) (num : String)
  | setDescription (transaction : TransactionId) (description : String)
  | setDocref (transaction : TransactionId) (docref : String)
  | setPosted (transaction : TransactionId) (date : Instant)
  | setEntered (transaction : TransactionId) (date : Instant)
  | setDay (transaction : TransactionId) (day month : Nat) (year : Int)
  | setToday (transaction : TransactionId)
  | setCaption (transaction : TransactionId) (caption : Caption) (text : String)
  | appendSplit (transaction : TransactionId) (split : SplitId)
  | removeSplit (transaction : TransactionId) (split : SplitId)
  | enterAccount (account : AccountId) (split : SplitId)
  | leaveAccount (split : SplitId)
  | otherSplit (split : SplitId)
  | beginEdit (transaction : TransactionId) (defer : Bool)
  | commitEdit (transaction : TransactionId)
  | destroyTransaction (transaction : TransactionId)
  | destroySplit (split : SplitId)
  | splitWorth (split : SplitId) (base : Option Commodity)
  | setSplitWorth (split : SplitId) (value : α) (base : Option Commodity)
  | transactionValue (transaction : TransactionId) (skip : Option SplitId) (base : Option Commodity)
  | commonCommodity (transaction : TransactionId) (trigger : SplitId)
  | rebalanceSplit (split : SplitId)
  | rebalanceTransaction (transaction : TransactionId)
  | imbalance (transaction : TransactionId)
  | isBalanced (transaction : TransactionId)
deriving DecidableEq, Repr

inductive Reply (α : Type) where
  | done
  | split (split : SplitId)
  | transaction (transaction : TransactionId)
  | otherSplit (split : Option SplitId)
  | number (number : α)
  | commodity (commodity : Option Commodity)
  | truth (truth : Bool)
deriving DecidableEq, Repr

namespace Command

variable {α J : Type} [Scalar α] [Journal J α]

/-- What a command does. -/
def act : Command α → Action α J (Reply α)
  | .createSplit => return .split (← Action.createSplit)
  | .createTransaction => return .transaction (← Action.createTransaction)
  | .discardSplit split => done (Action.discardSplit split)
  | .setPriceAndAmount split price amount => done (Action.setPriceAndAmount split price amount)
  | .setPrice split price => done (Action.setPrice split price)
  | .setAmount split amount => done (Action.setAmount split amount)
  | .setValue split value => done (Action.setValue split value)
  | .setMemo split memo => done (Action.setMemo split memo)
  | .setAction split action => done (Action.setAction split action)
  | .setSplitDocref split docref => done (Action.setSplitDocref split docref)
  | .setReconcile split state => done (Action.setReconcile split state)
  | .setReconciledOn split date => done (Action.setReconciledOn split date)
  | .setNum transaction num => done (Action.setNum transaction num)
  | .setDescription transaction text => done (Action.setDescription transaction text)
  | .setDocref transaction docref => done (Action.setDocref transaction docref)
  | .setPosted transaction date => done (Action.setPosted transaction date)
  | .setEntered transaction date => done (Action.setEntered transaction date)
  | .setDay transaction day month year => done (Action.setDay transaction day month year)
  | .setToday transaction => done (Action.setToday transaction)
  | .setCaption transaction caption text => done (Action.setCaption transaction caption text)
  | .appendSplit transaction split => done (Action.appendSplit transaction split)
  | .removeSplit transaction split => done (Action.removeSplit transaction split)
  | .enterAccount account split => done (Action.enterAccount account split)
  | .leaveAccount split => done (Action.leaveAccount split)
  | .otherSplit split => return .otherSplit (← Action.otherSplit split)
  | .beginEdit transaction defer => done (Action.beginEdit transaction defer)
  | .commitEdit transaction => done (Action.commitEdit transaction)
  | .destroyTransaction transaction => done (Action.destroyTransaction transaction)
  | .destroySplit split => done (Action.destroySplit split)
  | .splitWorth split base => return .number (← Action.splitWorth split base)
  | .setSplitWorth split value base => done (Action.setSplitWorth split value base)
  | .transactionValue transaction skip base =>
    return .number (← Action.ask (·.transactionValue transaction skip base))
  | .commonCommodity transaction trigger =>
    return .commodity (← Action.ask (·.commonCommodity transaction trigger))
  | .rebalanceSplit split => done (Action.rebalanceSplit split)
  | .rebalanceTransaction transaction => done (Action.rebalanceTransaction transaction)
  | .imbalance transaction => return .number (← Action.ask (·.imbalance transaction))
  | .isBalanced transaction => return .truth (← Action.ask (·.isBalanced transaction))
where
  done (action : Action α J Unit) : Action α J (Reply α) := do
    action
    return .done

def run (command : Command α) (ledger : Ledger α J) : Outcome α J (Reply α) := command.act ledger

end Command

namespace Ledger

variable {α J : Type}

/-- A ledger without entries. -/
def start (settings : Settings) (journal : J) : Ledger α J := { settings, journal }

/-- Opens an account without splits. -/
def openAccount (ledger : Ledger α J) (name : String) (currency : Commodity)
    (security : Option Commodity) : AccountId × Ledger α J :=
  let id : AccountId := ⟨Ident.ofNat ledger.minted⟩
  let account : Account := { name, currency, security }
  (id, { ledger with
    accounts := ledger.accounts.insert id account
    minted := ledger.minted + 1 })

/-- Lets an account put off rebalancing, or no longer. -/
def setDefers (ledger : Ledger α J) (account : AccountId) (defers : Bool) : Ledger α J :=
  { ledger with accounts := ledger.accounts.setDefers account defers }

/-- Takes note of the changes of an account. -/
def clearChanged (ledger : Ledger α J) (account : AccountId) : Ledger α J :=
  { ledger with accounts := ledger.accounts.clearChanged account }

def markChanged (ledger : Ledger α J) (account : AccountId) : Ledger α J :=
  { ledger with accounts := ledger.accounts.markChanged account }

/-- Moves the clock. -/
def setClock (ledger : Ledger α J) (now : Instant) : Ledger α J := { ledger with now }

end Ledger

end DoubleEntry
