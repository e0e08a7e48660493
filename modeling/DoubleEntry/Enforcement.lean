import DoubleEntry.Fault
import DoubleEntry.Notice

/-! # Enforcement of double entry

How strictly the splits of a transaction have to net to zero, as a number, as a word and as the
value of a setting. A setting that cannot be read is reported and leaves the default.
-/

namespace DoubleEntry

inductive Enforcement where
  /-- Unbalanced transactions and splits without an account are accepted. -/
  | tolerant
  /-- Transactions are made to balance, with a new split where one is needed. -/
  | forceBalance
  /-- Meant to move splits without an account into a reserved one; balances as `forceBalance`. -/
  | lostAndFound
deriving DecidableEq, Repr, Inhabited

namespace Enforcement

/-- Whether double entry is enforced at all. -/
def isEnforced : Enforcement → Bool
  | .tolerant => false
  | .forceBalance | .lostAndFound => true

def number : Enforcement → Nat
  | .tolerant => 0
  | .forceBalance => 1
  | .lostAndFound => 2

def name : Enforcement → String
  | .tolerant => "tolerant"
  | .forceBalance => "force-balance"
  | .lostAndFound => "lost-and-found"

def all : List Enforcement := [.tolerant, .forceBalance, .lostAndFound]

def ofNumber (n : Nat) : Except Fault Enforcement :=
  match all.find? fun mode => mode.number == n with
  | some mode => .ok mode
  | none => .error (.invalid (.modeNumber n))

/-- The words a mode is read from: its number, its name, and `force` for short. -/
def words : Enforcement → List String
  | .tolerant => ["0", "tolerant"]
  | .forceBalance => ["1", "force", "force-balance"]
  | .lostAndFound => ["2", "lost-and-found"]

/-- Reads a mode, ignoring blanks around it and the case of ASCII letters. -/
def ofText (text : String) : Except Fault Enforcement :=
  let word := String.ofList ((Text.trim text.toList).map Char.toLower)
  match all.find? fun mode => mode.words.contains word with
  | some mode => .ok mode
  | none => .error (.invalid (.modeName word))

end Enforcement

/-- What a ledger is set up with. -/
structure Settings where
  enforcement : Enforcement := .tolerant
deriving DecidableEq, Repr, Inhabited

namespace Settings

/-- The key under which the enforcement mode is looked up. -/
def enforcementKey : String := "SPLITBOOK_DOUBLE_ENTRY"

/-- The settings that a lookup of keys gives, with what there is to report about them. -/
def ofLookup (lookup : String → Option String) : Settings × List Notice :=
  let (mode, notices) : Enforcement × List Notice := match lookup enforcementKey with
    | none => (.tolerant, [])
    | some value =>
      match Enforcement.ofText value with
      | .ok mode => (mode, [])
      | .error fault => (.tolerant, [.settingIgnored enforcementKey value fault.message])
  (⟨mode⟩, notices ++ if mode = .lostAndFound then [.redirectUnavailable] else [])

end Settings

end DoubleEntry
