import DoubleEntry.Order
import Mathlib

/-! # The ledger order

Ledger order compares one thing after another, and each of them is compared by a total preorder; so it
is one itself, missing entries included. All that it looks at is the heading of a split: the date, number
and description of its transaction, and its own texts.
-/

namespace DoubleEntry

open Std

section Orders

variable {β γ : Type} {order : γ → γ → Ordering}

/-- What is compared by one of its parts is ordered as the part is. -/
theorem transCmp_on (isOrder : TransCmp order) (view : β → γ) :
    TransCmp fun a b => order (view a) (view b) where
  eq_swap := isOrder.eq_swap
  isLE_trans := isOrder.isLE_trans

theorem transCmp_then {first second : β → β → Ordering} (isFirst : TransCmp first)
    (isSecond : TransCmp second) : TransCmp fun a b => (first a b).then (second a b) :=
  inferInstanceAs (TransCmp (compareLex first second))

theorem transCmp_presentFirst (isOrder : TransCmp order) : TransCmp (presentFirst order) where
  eq_swap {a b} := by
    cases a <;> cases b
    case some.some => exact isOrder.eq_swap
    all_goals rfl
  isLE_trans {a b c} ab bc := by
    cases a <;> cases b <;> cases c
    case some.some.some => exact isOrder.isLE_trans ab bc
    all_goals first | exact ab | exact bc | contradiction

/-- What an order does not look at makes no difference when missing entries come last, either. -/
theorem presentFirst_congr {view : γ → β}
    (blind : ∀ {a a' b b'}, view a' = view a → view b' = view b → order a' b' = order a b)
    {a a' b b' : Option γ} (left : a'.map view = a.map view) (right : b'.map view = b.map view) :
    presentFirst order a' b' = presentFirst order a b := by
  cases a <;> cases a' <;> try cases left
  all_goals cases b <;> cases b' <;> try cases right
  case some.some.some.some => exact blind (Option.some.inj left) (Option.some.inj right)
  all_goals rfl

end Orders

/-! ## A total preorder -/

theorem textOrder_eq_compare : textOrder = compare := by
  funext a b
  cases a <;> cases b <;> rfl

theorem transCmp_instant : TransCmp Instant.order :=
  transCmp_then (transCmp_on inferInstance Instant.seconds) (transCmp_on inferInstance Instant.nanos)

theorem transCmp_text {β : Type} (view : β → String) :
    TransCmp fun a b => textOrder (some (view a)) (some (view b)) :=
  transCmp_on (textOrder_eq_compare ▸ inferInstanceAs (TransOrd (Option String))) fun a => some (view a)

theorem transCmp_transaction : TransCmp transactionOrder :=
  transCmp_presentFirst <| transCmp_then
    (transCmp_then (transCmp_on transCmp_instant Transaction.posted) (transCmp_text Transaction.num))
    (transCmp_text Transaction.description)

theorem transCmp_split : TransCmp splitOrder :=
  transCmp_presentFirst <| transCmp_then
    (transCmp_then (transCmp_on transCmp_transaction Position.parent) (transCmp_text Position.memo))
    (transCmp_text Position.action)

/-- Of any two splits one comes before the other or they are level, whether or not they are there. -/
instance {α : Type} (postings : Postings α) : TransCmp postings.compare :=
  transCmp_on transCmp_split postings.position?

/-! ## Headings -/

/-- What the order looks at in a transaction. -/
def Transaction.heading (transaction : Transaction) : Instant × String × String :=
  (transaction.posted, transaction.num, transaction.description)

/-- What the order looks at in a split. -/
def Position.heading (position : Position) : Option (Instant × String × String) × String × String :=
  (position.parent.map Transaction.heading, position.memo, position.action)

theorem Transaction.order_congr {a a' b b' : Transaction} (left : a'.heading = a.heading)
    (right : b'.heading = b.heading) : a'.order b' = a.order b := by
  simp only [heading, Prod.mk.injEq] at left right
  simp only [order, left, right]

theorem Position.order_congr {a a' b b' : Position} (left : a'.heading = a.heading)
    (right : b'.heading = b.heading) : a'.order b' = a.order b := by
  simp only [heading, Prod.mk.injEq] at left right
  simp only [order, left, right, transactionOrder,
    presentFirst_congr Transaction.order_congr left.1 right.1]

namespace Postings

variable {α : Type} {postings other : Postings α}

def heading? (postings : Postings α) (split : SplitId) :
    Option (Option (Instant × String × String) × String × String) :=
  (postings.position? split).map Position.heading

/-- Splits with the headings that they had compare as before. -/
theorem compare_congr {a b : SplitId} (left : other.heading? a = postings.heading? a)
    (right : other.heading? b = postings.heading? b) : other.compare a b = postings.compare a b :=
  presentFirst_congr Position.order_congr left right

end Postings

end DoubleEntry
