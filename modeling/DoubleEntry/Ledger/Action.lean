import DoubleEntry.Ledger.Basic
import DoubleEntry.Notice

/-! # Actions on a ledger

An action ends with a value or a fault, and with the ledger as it then is: what was changed before a
fault stays changed. It also reports notices. `raise` is the usual way to fail; it reports what
belongs to the fault.
-/

namespace DoubleEntry

/-- How an action ended. -/
structure Outcome (α J β : Type) where
  result : Except Fault β
  ledger : Ledger α J
  notices : List Notice := []

/-- The notice that goes with a fault. -/
def Fault.notice? : Fault → Option Notice
  | .notOpen _ => some .notOpen
  | .orphan _ => some .orphan
  | .noCommonCommodity _ _ => some .noCommonCommodity
  | .damaged (.cannotBeValued ..) => some .inconsistentCommodities
  | .damaged (.unbalancedLoneSplit _) => some .loneNonZeroSplit
  | .invalid (.cannotAbsorb ..) => some .cannotAbsorb
  | _ => none

def Action (α J β : Type) : Type := Ledger α J → Outcome α J β

namespace Action

variable {α J β γ δ : Type}

def ret (value : β) : Action α J β := fun ledger => ⟨.ok value, ledger, []⟩

/-- Goes on with the value of an action, unless it failed. -/
def andThen (action : Action α J β) (next : β → Action α J γ) : Action α J γ := fun ledger =>
  let first := action ledger
  match first.result with
  | .error fault => ⟨.error fault, first.ledger, first.notices⟩
  | .ok value =>
    let second := next value first.ledger
    ⟨second.result, second.ledger, first.notices ++ second.notices⟩

theorem andThen_ret (action : Action α J β) : andThen action ret = action := by
  funext ledger
  simp only [andThen]
  rcases action ledger with ⟨_ | _, _, _⟩ <;> simp [ret]

theorem ret_andThen (value : β) (next : β → Action α J γ) : andThen (ret value) next = next value := by
  funext ledger
  simp [andThen, ret]

theorem andThen_assoc (action : Action α J β) (next : β → Action α J γ) (last : γ → Action α J δ) :
    andThen (andThen action next) last = andThen action fun value => andThen (next value) last := by
  funext ledger
  simp only [andThen]
  rcases action ledger with ⟨_ | value, after, _⟩
  · rfl
  · dsimp only
    rcases next value after with ⟨_ | _, _, _⟩ <;> simp [List.append_assoc]

instance : Monad (Action α J) where
  pure := ret
  bind := andThen

instance : LawfulMonad (Action α J) :=
  .mk' (Action α J) andThen_ret ret_andThen andThen_assoc

def fail (fault : Fault) : Action α J β := fun ledger => ⟨.error fault, ledger, []⟩

def report (notice : Notice) : Action α J Unit := fun ledger => ⟨.ok (), ledger, [notice]⟩

/-- Fails and reports the notice that goes with the fault. -/
def raise (fault : Fault) : Action α J β := fun ledger =>
  ⟨.error fault, ledger, fault.notice?.toList⟩

def read (view : Ledger α J → β) : Action α J β := fun ledger => ⟨.ok (view ledger), ledger, []⟩

def update (change : Ledger α J → Ledger α J) : Action α J Unit := fun ledger =>
  ⟨.ok (), change ledger, []⟩

/-- Asks something of the ledger that it may not be able to answer. -/
def ask (query : Ledger α J → Except Fault β) : Action α J β := fun ledger =>
  match query ledger with
  | .ok value => ⟨.ok value, ledger, []⟩
  | .error fault => ⟨.error fault, ledger, fault.notice?.toList⟩

/-- Applies a change when an action fails, and leaves the fault as it is. -/
def onFault (action : Action α J β) (undo : Ledger α J → Ledger α J) : Action α J β := fun ledger =>
  let outcome := action ledger
  match outcome.result with
  | .error fault => ⟨.error fault, undo outcome.ledger, outcome.notices⟩
  | .ok _ => outcome

end Action

end DoubleEntry
