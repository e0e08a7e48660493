import DoubleEntry.Commodity.Basic
import DoubleEntry.Ident.Spelling
import DoubleEntry.Text.Quoted

/-! # Faults

Why an operation fails. A fault names its cause and the entities involved; the wording is in
`Fault.messageBy` alone, which leaves it open how identifiers are shown. The fatal faults are those
that show a damaged ledger. Numbers inside a fault are kept as their text, since a fault is only
ever shown.
-/

namespace DoubleEntry

/-- The number that a caller supplied. -/
inductive NumberRole where
  | sharePrice
  | shareAmount
  | value
deriving DecidableEq, Repr

def NumberRole.text : NumberRole → String
  | .sharePrice => "share price"
  | .shareAmount => "share amount"
  | .value => "value"

/-- What a caller asked for and cannot have. -/
inductive Invalid where
  | blankCommodity
  | modeNumber (number : Nat)
  | modeName (name : String)
  | reconcileFlag (flag : Char)
  | notFinite (role : NumberRole) (number : String)
  | zeroPrice (split : SplitId)
  | noSuchDay (year : Int) (month day : Nat)
  | attached (split : SplitId)
  | onlySplit (split : SplitId) (transaction : TransactionId)
  | notMember (split : SplitId) (transaction : TransactionId)
  | cannotAbsorb (split : SplitId) (transaction : TransactionId) (price : String)
  /-- A cause put into words elsewhere. -/
  | stated (text : String)
deriving DecidableEq, Repr

/-- A contradiction inside the ledger. -/
inductive Damage where
  | unknownAccount (split : SplitId) (account : AccountId)
  | cannotBeValued (split : SplitId) (transaction : TransactionId) (base : Option Commodity)
  | noSplits (transaction : TransactionId)
  | unbalancedLoneSplit (transaction : TransactionId)
  | notListed (split : SplitId) (transaction : TransactionId)
  | stated (text : String)
deriving DecidableEq, Repr

/-- Something that does not exist, or no longer. -/
inductive Missing where
  | split (split : SplitId)
  | transaction (transaction : TransactionId)
  | account (account : AccountId)
  | stated (text : String)
deriving DecidableEq, Repr

/-- A text that should name an entity. -/
inductive BadIdent where
  | unreadable (kind : EntityKind) (reason : IdentFault)
  | stated (text : String)
deriving DecidableEq, Repr

/-- What an account holds, as far as a message shows it; the security is empty if there is none. -/
structure Holdings where
  account : AccountId
  currency : Commodity
  security : String
deriving DecidableEq, Repr

inductive Fault where
  | invalid (cause : Invalid)
  | damaged (damage : Damage)
  | noCommonCommodity (base other : Holdings)
  | orphan (split : SplitId)
  | detached (split : SplitId)
  | notOpen (transaction : TransactionId)
  | missing (what : Missing)
  | badIdent (what : BadIdent)
  | journal (reason : String)
deriving DecidableEq, Repr

/-- A number in at least `width` places, the sign included, filled up with zeros after the sign. -/
def padded (width : Nat) (n : Int) : String :=
  let digits := Nat.toDigits 10 n.natAbs
  let signed := if n < 0 then width - 1 else width
  let filled := List.replicate (signed - digits.length) '0' ++ digits
  String.ofList (if n < 0 then '-' :: filled else filled)

/-- How a message shows an identifier, by its own text or by a name that readers know it by. -/
abbrev Naming := Ident → String

def Invalid.message (name : Naming) : Invalid → String
  | .blankCommodity => "commodity code cannot be empty"
  | .modeNumber number => s!"unknown enforcement mode {number}"
  | .modeName word => s!"unknown enforcement mode '{word}'"
  | .reconcileFlag flag => "unknown reconcile flag " ++ Text.quotedChar flag
  | .notFinite role number => role.text ++ " must be finite, got " ++ number
  | .zeroPrice split => s!"split {name split.ident} has a zero share price; cannot derive an amount"
  | .noSuchDay year month day =>
    s!"invalid date {padded 4 year}-{padded 2 month}-{padded 2 day}"
  | .attached split =>
    s!"split {name split.ident} belongs to a transaction; destroy it through the transaction"
  | .onlySplit split transaction =>
    s!"split {name split.ident} is the only split of transaction {name transaction.ident}"
  | .notMember split transaction =>
    s!"split {name split.ident} is not part of transaction {name transaction.ident}"
  | .cannotAbsorb split transaction price =>
    s!"split {name split.ident} cannot balance transaction {name transaction.ident} " ++
      s!"at share price {price}"
  | .stated text => text

def Damage.message (name : Naming) : Damage → String
  | .unknownAccount split account =>
    s!"split {name split.ident} references unknown account {name account.ident}"
  | .cannotBeValued split transaction base =>
    let commodity := match base with
      | some base => base.code
      | none => "<none>"
    s!"split {name split.ident} of transaction {name transaction.ident} " ++
      s!"cannot be valued in {commodity}"
  | .noSplits transaction => s!"transaction {name transaction.ident} has no splits"
  | .unbalancedLoneSplit transaction =>
    s!"transaction {name transaction.ident} has a non-zero split but no balancing split"
  | .notListed split transaction =>
    s!"split {name split.ident} names transaction {name transaction.ident} as parent " ++
      "but is not one of its splits"
  | .stated text => text

def Missing.message (name : Naming) : Missing → String
  | .split id => s!"split {name id.ident}"
  | .transaction id => s!"transaction {name id.ident}"
  | .account id => s!"account {name id.ident}"
  | .stated text => text

/-- How a message names the type of an identifier. -/
def EntityKind.typeName : EntityKind → String
  | .split => "SplitId"
  | .transaction => "TransactionId"
  | .account => "AccountId"

def BadIdent.message : BadIdent → String
  | .unreadable kind reason => s!"{kind.typeName}: {reason.message}"
  | .stated text => text

def Holdings.message (name : Naming) (holdings : Holdings) : String :=
  s!"account {name holdings.account.ident} ({holdings.currency.code}/{holdings.security})"

namespace Fault

/-- The wording of a fault, with identifiers shown as `name` has it. -/
def messageBy (name : Naming) : Fault → String
  | .invalid cause => "validation failed: " ++ cause.message name
  | .damaged damage => "invariant violated: " ++ damage.message name
  | .noCommonCommodity base other =>
    "no common commodity: " ++ base.message name ++ " vs " ++ other.message name
  | .orphan split => s!"split {name split.ident} has no account while double entry is enforced"
  | .detached split => s!"split {name split.ident} does not belong to a transaction"
  | .notOpen transaction => s!"transaction {name transaction.ident} is not open for editing"
  | .missing what => "not found: " ++ what.message name
  | .badIdent what => "invalid identifier: " ++ what.message
  | .journal reason => "journal: " ++ reason

/-- The wording of a fault. -/
def message (fault : Fault) : String := fault.messageBy Ident.text

/-- A fatal fault shows that the ledger is damaged; all others are ordinary failures. -/
def isFatal : Fault → Bool
  | .damaged _ | .noCommonCommodity _ _ | .orphan _ | .detached _ => true
  | _ => false

end Fault

/-- Reads a commodity code. -/
def Commodity.ofCode (code : String) : Except Fault Commodity :=
  match Commodity.ofCode? code with
  | some commodity => .ok commodity
  | none => .error (.invalid .blankCommodity)

/-- Reads the identifier of an entity. -/
def EntityId.ofText {kind : EntityKind} (text : String) : Except Fault (EntityId kind) :=
  match Ident.ofText text with
  | .ok ident => .ok ⟨ident⟩
  | .error reason => .error (.badIdent (.unreadable kind reason))

end DoubleEntry
