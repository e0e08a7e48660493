import DoubleEntry.Ledger.Guard
import DoubleEntry.Ledger.Valuation

/-! # Rebalancing

After a split was edited, one other split of its transaction takes up the difference: the second
split if the source was edited, and the source otherwise. A source without a second split gets a
counterpart if double entry is enforced and its amount is not zero. Nothing is done while the
transaction or the account of the edited split puts rebalancing off.

Adding the counterpart settles the transaction once more, in a pass that adds no further split; so
`settle` takes what to do about a lone source as an argument, and no pass calls itself.
-/

namespace DoubleEntry.Action

variable {α J : Type} [Scalar α]

/-- Gives a split the opposite of the sum of all others in its transaction. Under enforcement it is
a fault if the split cannot take up a sum that is not zero. -/
def absorb (transaction : TransactionId) (target : SplitId) (base : Option Commodity) :
    Action α J Unit := do
  let sum ← ask (·.transactionValue transaction (some target) base)
  let applied ← applyWorth target (-sum) base
  if !applied && (← read (·.enforces)) && Scalar.isSignificant sum then
    let split ← ask (·.split target)
    raise (.invalid (.cannotAbsorb target transaction (Scalar.text split.price)))
  else
    update (·.mark target)
    let split ← ask (·.split target)
    update (·.recompute? split.account)

/-- Balances the transaction of an edited split. `lone` adds a split to a transaction whose source
stands alone with an amount that is not zero under enforcement. -/
def settle (lone : TransactionId → SplitId → Action α J Unit) (edited : SplitId) :
    Action α J Unit := do
  let split ← ask (·.split edited)
  match split.parent with
  | none => return ()
  | some parent =>
    let transaction ← ask (·.transaction parent)
    let accountDefers ← read fun ledger => split.account.any ledger.accounts.defers
    if transaction.edit.defers || accountDefers then return ()
    else
      match transaction.splits with
      | [] => return ()
      | source :: others =>
        let base ← ask (·.commonCommodity parent edited)
        if edited ≠ source then absorb parent source base
        else
          match others with
          | second :: _ => absorb parent second base
          | [] =>
            let first ← ask (·.split source)
            if (← read (·.enforces)) && Scalar.isSignificant first.amount then lone parent source
            else return ()

/-- Makes a split the last of a transaction and settles it. -/
def adopt (settle : SplitId → Action α J Unit) (transaction : TransactionId) (split : SplitId) :
    Action α J Unit := do
  update (·.modifySplit split fun s => { s with parent := some transaction })
  update (·.modifyTransaction transaction (·.push split))
  update (·.mark split)
  settle split

/-- Adds the counterpart of a lone source to its transaction and to its account. It has its account
before it is settled and enters the register after. -/
def addCounterpart (transaction : TransactionId) (source : SplitId) : Action α J Unit := do
  let split ← ask (·.split source)
  let id : SplitId := ⟨← mint⟩
  update fun ledger => { ledger with splits := ledger.splits.insert id split.counterpart }
  adopt (settle fun _ _ => return ()) transaction id
  match split.account with
  | none => return ()
  | some account =>
    enterRegister account id
    update (·.recompute account)

/-- Balances the transaction of a split as if the split had been edited. -/
def rebalanceSplit (edited : SplitId) : Action α J Unit := settle addCounterpart edited

/-- Balances a transaction as if its source had been edited. -/
def rebalanceTransaction (id : TransactionId) : Action α J Unit := do
  match (← ask (·.transaction id)).source? with
  | some source => rebalanceSplit source
  | none => return ()

end DoubleEntry.Action
