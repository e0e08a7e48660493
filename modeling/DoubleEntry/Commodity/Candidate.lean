import DoubleEntry.Commodity.Basic

/-! # Narrowing to a common commodity

While the accounts of a transaction are scanned, a candidate holds the commodities that all of them
share so far. It starts from one account's currency and security and loses a slot as soon as an
account has that commodity neither as its currency nor as its security.
-/

namespace DoubleEntry

structure Candidate where
  primary : Option Commodity
  secondary : Option Commodity
deriving DecidableEq, Repr

namespace Candidate

/-- The commodities of one account. -/
def seed (currency : Commodity) (security : Option Commodity) : Candidate :=
  ⟨some currency, security⟩

/-- Keeps what an account with this currency and security also has. While both slots are filled, a
slot that the account matches on one side while the other slot is unmatched on the opposite side
drops the other; a lone remaining slot moves to the front. -/
def narrow (candidate : Candidate) (currency : Commodity) (security : Option Commodity) : Candidate :=
  match candidate with
  | ⟨some first, some second⟩ =>
    let firstIsCurrency := first = currency
    let firstIsSecurity := security = some first
    let secondIsCurrency := second = currency
    let secondIsSecurity := security = some second
    if (firstIsCurrency ∧ ¬ secondIsSecurity) ∨ (firstIsSecurity ∧ ¬ secondIsCurrency) then
      ⟨some first, none⟩
    else if (secondIsCurrency ∧ ¬ firstIsSecurity) ∨ (secondIsSecurity ∧ ¬ firstIsCurrency) then
      ⟨some second, none⟩
    else if firstIsCurrency ∨ firstIsSecurity ∨ secondIsCurrency ∨ secondIsSecurity then
      ⟨some first, some second⟩
    else ⟨none, none⟩
  | ⟨some first, none⟩ =>
    if first = currency ∨ security = some first then ⟨some first, none⟩ else ⟨none, none⟩
  | exhausted => exhausted

def isExhausted (candidate : Candidate) : Bool :=
  candidate.primary.isNone && candidate.secondary.isNone

/-- The commodity that is used, the one in front. -/
def resolved (candidate : Candidate) : Option Commodity := candidate.primary

end Candidate

end DoubleEntry
