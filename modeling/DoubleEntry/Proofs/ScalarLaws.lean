import DoubleEntry.Scalar
import Mathlib

/-! # Laws of numbers

The ledger assumes no arithmetic of its numbers. One fact is needed of them where a split at a price of
zero gets a counterpart: the value that it would have to take up is too small to matter. It holds of
doubles, whatever the amount is: a product with zero is one of the two zeros, or no number at all.
-/

namespace DoubleEntry

/-- The counterpart of a split at a price of zero is worth nothing that matters. -/
class ZeroPriced (α : Type) [Scalar α] : Prop where
  insignificant : ∀ amount price : α, Scalar.isZero price = true →
    Scalar.isSignificant (0 + -(amount * price) * 1) = false

instance : ZeroPriced Rat where
  insignificant amount price zero := by
    obtain rfl : price = 0 := by simpa [Scalar.isZero] using zero
    simp only [Rat.mul_zero]
    decide +kernel

namespace FloatZero

open Float.Model

/-- Only the two zeros compare equal to zero. -/
private theorem unpack_of_isZero {x : Float} (zero : Scalar.isZero x = true) :
    ∃ sign, x.toModel.unpack = .zero sign := by
  change (x.toModel.unpack.compare (Float.toModel 0).unpack == some .eq) = true at zero
  have unpacked : (Float.toModel 0).unpack = .zero .positive := rfl
  rw [unpacked] at zero
  generalize x.toModel.unpack = other at zero
  cases other with
  | zero sign => exact ⟨sign, rfl⟩
  | infinity sign => cases sign <;> cases zero
  | notANumber => cases zero
  | finite sign _ _ _ => cases sign <;> cases zero

/-- The doubles that a product with zero can be. -/
private theorem mul_of_isZero (amount : Float) {price : Float} (zero : Scalar.isZero price = true) :
    amount * price = 0.0 ∨ amount * price = -0.0 ∨ amount * price = 0.0 / 0.0 := by
  obtain ⟨sign, found⟩ := unpack_of_isZero zero
  have product : amount * price = .ofModel (pack
      (UnpackedFloat.mul Format.binary64 amount.toModel.unpack price.toModel.unpack)) := rfl
  rw [product, found]
  -- What is left in each case is a product of known signs.
  cases amount.toModel.unpack with
  | zero other => cases sign <;> cases other <;> decide +kernel
  | infinity other => cases sign <;> cases other <;> decide +kernel
  | notANumber => cases sign <;> decide +kernel
  | finite other _ _ _ =>
    simp only [UnpackedFloat.mul]
    cases sign <;> cases other <;> decide +kernel

instance : ZeroPriced Float where
  insignificant amount price zero := by
    rcases mul_of_isZero amount zero with product | product | product
    · rw [product]
      decide +kernel
    · rw [product]
      decide +kernel
    · rw [product]
      decide +kernel

end FloatZero

end DoubleEntry
