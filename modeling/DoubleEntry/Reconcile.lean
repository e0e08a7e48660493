import DoubleEntry.Fault

/-! # Reconciliation

Whether a split has been matched against a statement, with the flag that registers show.
-/

namespace DoubleEntry

inductive Reconcile where
  | unreconciled
  | cleared
  | reconciled
deriving DecidableEq, Repr, Inhabited

namespace Reconcile

def flag : Reconcile → Char
  | .unreconciled => 'n'
  | .cleared => 'c'
  | .reconciled => 'y'

def name : Reconcile → String
  | .unreconciled => "unreconciled"
  | .cleared => "cleared"
  | .reconciled => "reconciled"

def all : List Reconcile := [.unreconciled, .cleared, .reconciled]

def ofFlag (flag : Char) : Except Fault Reconcile :=
  match all.find? fun state => state.flag == flag with
  | some state => .ok state
  | none => .error (.invalid (.reconcileFlag flag))

/-- Counts towards the cleared balance; a reconciled split does as well. -/
def isCleared : Reconcile → Bool
  | .unreconciled => false
  | .cleared | .reconciled => true

end Reconcile

end DoubleEntry
