import DoubleEntry.Commodity.Candidate
import DoubleEntry.Ledger.Action

/-! # Valuing splits in a common commodity

A split is worth amount times price in the currency of its account and its amount alone in the
security of its account; in any other commodity it cannot be expressed. Getting, setting and summing
values all follow the one rule `Ledger.valuation`. A transaction is balanced if its splits sum to
zero, up to one millionth, in the commodity that all its accounts share.
-/

namespace DoubleEntry

/-- How a split is expressed in a commodity. -/
inductive Valuation where
  | priced
  | shares
  | inexpressible
deriving DecidableEq, Repr

/-- What a split is worth, if it can be expressed. -/
def Valuation.worth? {α : Type} [Scalar α] (split : Split α) : Valuation → Option α
  | .priced => some split.value
  | .shares => some split.amount
  | .inexpressible => none

namespace Account

/-- How the splits of an account are expressed. Without a commodity they are taken at face value,
unless double entry is enforced. -/
def valuation (account : Account) (enforced : Bool) : Option Commodity → Valuation
  | none => if enforced then .inexpressible else .priced
  | some base =>
    if account.currency = base then .priced
    else if account.security = some base then .shares
    else .inexpressible

def holdings (account : Account) (id : AccountId) : Holdings where
  account := id
  currency := account.currency
  security := match account.security with
    | some security => security.code
    | none => ""

end Account

namespace Ledger

variable {α J : Type}

/-- The account that a split names. -/
def accountOf (ledger : Ledger α J) (id : SplitId) (split : Split α) :
    Except Fault (Option (AccountId × Account)) :=
  match split.account with
  | none => .ok none
  | some account =>
    match ledger.account? account with
    | some found => .ok (some (account, found))
    | none => .error (.damaged (.unknownAccount id account))

/-- How a split is expressed in a commodity. Without an account it is taken at face value, unless
double entry is enforced. -/
def valuation (ledger : Ledger α J) (id : SplitId) (split : Split α) (base : Option Commodity) :
    Except Fault Valuation := do
  match ← ledger.accountOf id split with
  | some (_, account) => .ok (account.valuation ledger.enforces base)
  | none => if ledger.enforces then .error (.orphan id) else .ok .priced

/-- Narrows a candidate by the accounts of splits, in order. The account that it started from is
named when nothing is left. -/
def narrowBy (ledger : Ledger α J) (start : AccountId × Account) :
    Candidate → List SplitId → Except Fault Candidate
  | candidate, [] => .ok candidate
  | candidate, id :: rest => do
    match ← ledger.accountOf id (← ledger.split id) with
    | none => if ledger.enforces then .error (.orphan id) else ledger.narrowBy start candidate rest
    | some (other, account) =>
      let candidate := candidate.narrow account.currency account.security
      if candidate.isExhausted then
        .error (.noCommonCommodity (start.2.holdings start.1) (account.holdings other))
      else ledger.narrowBy start candidate rest

/-- The commodity that all accounts of a transaction share, the account of `trigger` deciding
between two. There is none if `trigger` has no account and double entry is not enforced. -/
def commonCommodity (ledger : Ledger α J) (id : TransactionId) (trigger : SplitId) :
    Except Fault (Option Commodity) := do
  let transaction ← ledger.transaction id
  match ← ledger.accountOf trigger (← ledger.split trigger) with
  | none => if ledger.enforces then .error (.orphan trigger) else .ok none
  | some (start, account) =>
    let seed := Candidate.seed account.currency account.security
    let candidate ← ledger.narrowBy (start, account) seed transaction.splits
    .ok candidate.resolved

variable [Scalar α]

/-- Adds the worth of splits to a sum, from the left. -/
def addWorths (ledger : Ledger α J) (id : TransactionId) (base : Option Commodity) :
    α → List SplitId → Except Fault α
  | sum, [] => .ok sum
  | sum, entry :: rest => do
    let split ← ledger.split entry
    match (← ledger.valuation entry split base).worth? split with
    | some worth => ledger.addWorths id base (sum + worth) rest
    | none => .error (.damaged (.cannotBeValued entry id base))

/-- The sum of the splits of a transaction in a commodity, all but one if `skip` names one. -/
def transactionValue (ledger : Ledger α J) (id : TransactionId) (skip : Option SplitId)
    (base : Option Commodity) : Except Fault α := do
  let transaction ← ledger.transaction id
  ledger.addWorths id base 0 (transaction.splits.filter fun entry => skip ≠ some entry)

/-- The sum of a transaction in its common commodity, as its source split decides it. -/
def imbalance (ledger : Ledger α J) (id : TransactionId) : Except Fault α := do
  match (← ledger.transaction id).source? with
  | none => .ok 0
  | some source => ledger.transactionValue id none (← ledger.commonCommodity id source)

def isBalanced (ledger : Ledger α J) (id : TransactionId) : Except Fault Bool := do
  .ok (Scalar.isNegligible (← ledger.imbalance id))

end Ledger

namespace Action

variable {α J : Type} [Scalar α]

/-- The worth of a split in a commodity, zero if it is unknown or cannot be expressed. -/
def splitWorth (id : SplitId) (base : Option Commodity) : Action α J α := do
  match ← read (·.split? id) with
  | none => return 0
  | some split =>
    match (← ask (·.valuation id split base)).worth? split with
    | some worth => return worth
    | none =>
      report .valueReportedZero
      return 0

/-- Gives a split the amount that makes it worth `value` in a commodity. Tells whether there is such
an amount: there is none at a price of zero, or in a commodity that the split is not expressed in. -/
def applyWorth (id : SplitId) (value : α) (base : Option Commodity) : Action α J Bool := do
  let split ← ask (·.split id)
  match ← ask (·.valuation id split base) with
  | .priced =>
    if Scalar.isZero split.price then
      report .zeroPrice
      return false
    else
      update (·.modifySplit id fun s => { s with amount := value / split.price })
      return true
  | .shares =>
    update (·.modifySplit id fun s => { s with amount := value })
    return true
  | .inexpressible =>
    report .valueNotApplied
    return false

end Action

end DoubleEntry
