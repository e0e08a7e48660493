import DoubleEntry.Text.Hex

/-! # Identifiers

An identifier is a 128-bit value, written as 32 lower-case hexadecimal digits in groups of 8, 4, 4,
4 and 12. The identifiers of splits, transactions and accounts are distinct types over it.
-/

namespace DoubleEntry

structure Ident where
  bits : BitVec 128
deriving DecidableEq, Repr

namespace Ident

/-- The identifier with the given number. Numbers below `2 ^ 128` have different identifiers. -/
def ofNat (n : Nat) : Ident := ⟨BitVec.ofNat 128 n⟩

def toNat (ident : Ident) : Nat := ident.bits.toNat

/-- Sets hyphens after the 8th, 12th, 16th and 20th of 32 digits. -/
def group (digits : List Char) : List Char :=
  digits.take 8 ++ '-' :: (digits.drop 8).take 4 ++ '-' :: (digits.drop 12).take 4 ++
    '-' :: (digits.drop 16).take 4 ++ '-' :: digits.drop 20

/-- The written form. -/
def chars (ident : Ident) : List Char := group (Text.hexDigits 32 ident.toNat)

def text (ident : Ident) : String := String.ofList ident.chars

end Ident

/-- What an identifier names. -/
inductive EntityKind where
  | split
  | transaction
  | account
deriving DecidableEq, Repr

structure EntityId (kind : EntityKind) where
  ident : Ident
deriving DecidableEq, Repr

abbrev SplitId := EntityId .split
abbrev TransactionId := EntityId .transaction
abbrev AccountId := EntityId .account

def EntityId.text {kind : EntityKind} (id : EntityId kind) : String := id.ident.text

end DoubleEntry
