import DoubleEntry.Decimal.Numeral

/-! # JSON values

A value keeps the members of an object in their order, repetitions included, and a number as the
numeral that was written. A string token whose escapes name half of a surrogate pair is well formed
but spells no text; its content is then absent.
-/

namespace DoubleEntry

inductive Json where
  | null
  | bool (value : Bool)
  | number (numeral : Decimal.Numeral)
  | string (content : Option String)
  | array (elements : List Json)
  | object (members : List (Option String × Json))
deriving Repr, Inhabited

namespace Json

def ofText (text : String) : Json := .string (some text)

def ofNat (n : Nat) : Json := .number (.ofNat n)

def ofInt (n : Int) : Json := .number (.ofInt n)

/-- An object with the given members. -/
def record (members : List (String × Json)) : Json :=
  .object (members.map fun (name, value) => (some name, value))

/-- The text of a string. -/
def text? : Json → Option String
  | .string content => content
  | _ => none

/-- The elements of an array. -/
def elements? : Json → Option (List Json)
  | .array elements => some elements
  | _ => none

/-- The value of an object's only member of a name. A second member of that name, or a member
without a readable name, spoils the object. -/
def member? (members : List (Option String × Json)) (name : String) : Option (Option Json) :=
  match members.filter fun entry => entry.1 == some name with
  | [] => some none
  | [(_, value)] => some (some value)
  | _ => none

/-- The values of named fields. They stand in an object in any order, among other members, or alone
and in this order in an array; a field missing from an object has no value. -/
def fields? (names : List String) : Json → Option (List (Option Json))
  | .array elements => if elements.length = names.length then some (elements.map some) else none
  | .object members =>
    if members.all fun entry => entry.1.isSome then names.mapM (member? members) else none
  | _ => none

/-- The name of a case without data: its name, or an object with that one member and no value. -/
def case? : Json → Option String
  | .string content => content
  | .object [(name, .null)] => name
  | _ => none

/-- A case whose written name is found among the given ones. -/
def caseOf? {β : Type} (all : List β) (name : β → String) (json : Json) : Option β := do
  let found ← json.case?
  all.find? fun candidate => name candidate == found

end Json

end DoubleEntry
