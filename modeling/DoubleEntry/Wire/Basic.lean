import DoubleEntry.Enforcement
import DoubleEntry.Instant.Text
import DoubleEntry.Json.Number
import DoubleEntry.Json.Printer
import DoubleEntry.Json.Reader
import DoubleEntry.Reconcile

/-! # The wire form of values

A type has a wire form if its values can be written as JSON and read back. Reading may accept more
than writing produces: identifiers in four spellings, instants at any offset, structures as arrays.
-/

namespace DoubleEntry

class Wire (β : Type) where
  toJson : β → Json
  ofJson? : Json → Option β

namespace Wire

variable {β : Type}

instance : Wire String := ⟨Json.ofText, Json.text?⟩

instance : Wire Float := ⟨Json.ofFloat, Json.float?⟩

instance : Wire Ident where
  toJson ident := .ofText ident.text
  ofJson? json := json.text?.bind fun text => Ident.ofChars? text.toList

instance {kind : EntityKind} : Wire (EntityId kind) where
  toJson id := toJson id.ident
  ofJson? json := (ofJson? json : Option Ident).map EntityId.mk

instance : Wire Commodity where
  toJson commodity := .ofText commodity.code
  ofJson? json := json.text?.bind Commodity.ofCode?

instance : Wire Instant where
  toJson instant := .ofText instant.text
  ofJson? json := json.text?.bind Instant.ofText?

instance : Wire Enforcement where
  toJson mode := .ofText mode.name
  ofJson? := Json.caseOf? Enforcement.all Enforcement.name

instance : Wire Reconcile where
  toJson state := .ofText state.name
  ofJson? := Json.caseOf? Reconcile.all Reconcile.name

/-- An absent value is written as null. -/
instance [Wire β] : Wire (Option β) where
  toJson value := match value with
    | none => .null
    | some value => toJson value
  ofJson? json := match json with
    | .null => some none
    | json => (ofJson? json).map some

instance [Wire β] : Wire (List β) where
  toJson values := .array (values.map toJson)
  ofJson? json := json.elements?.bind fun elements => elements.mapM ofJson?

/-- Reads a field that has to be there. -/
def required? [Wire β] (field : Option Json) : Option β := field.bind ofJson?

/-- Reads a field whose absence means null. -/
def optional? [Wire β] (field : Option Json) : Option (Option β) := ofJson? (field.getD .null)

instance : Wire Settings where
  toJson settings := .record [("enforcement", toJson settings.enforcement)]
  ofJson? json := do
    let [enforcement] ← json.fields? ["enforcement"] | none
    some ⟨← required? enforcement⟩

/-- The compact text of a value. -/
def text [Wire β] (value : β) : String := (toJson value).text

/-- Reads a value from its text. -/
def read? [Wire β] (text : String) : Option β := (Json.read? text).bind ofJson?

end Wire

end DoubleEntry
