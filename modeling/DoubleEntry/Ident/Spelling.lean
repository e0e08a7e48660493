import DoubleEntry.Ident.Basic

/-! # Spellings of an identifier

Four spellings are read: 32 digits; the grouped form; the grouped form in braces; the grouped form
after `urn:uuid:`, the words in any case. Digits are taken in either case. Any other text is refused
with the first reason found: its length, a foreign character, the number of groups, or the length of
a group. Where the length of a text leaves only the grouped form, bare or wrapped, that form is
judged by itself.
-/

namespace DoubleEntry

/-- Why a text is no identifier. Lengths and positions count bytes. -/
inductive IdentFault where
  | length (found : Nat)
  | character (c : Char) (index : Nat)
  | groupCount (found : Nat)
  | groupLength (group expected found : Nat)
deriving DecidableEq, Repr

def IdentFault.message : IdentFault → String
  | .length found => s!"invalid length: found {found}"
  | .character c index => s!"invalid character: found `{c}` at {index}"
  | .groupCount found => s!"invalid group count: expected 5, found {found}"
  | .groupLength group expected found =>
    s!"invalid group length in group {group}: expected {expected}, found {found}"

namespace Ident

/-- Reads exactly 32 digits. -/
def ofDigits? (cs : List Char) : Option Ident :=
  if cs.length = 32 then (Text.readHex? cs).map ofNat else none

/-- Reads the grouped form. -/
def ofGrouped? (cs : List Char) : Option Ident :=
  let digits := cs.take 8 ++ (cs.drop 9).take 4 ++ (cs.drop 14).take 4 ++ (cs.drop 19).take 4 ++
    cs.drop 24
  if [8, 13, 18, 23].all fun i => cs[i]? == some '-' then ofDigits? digits else none

/-- A text taken out of its wrapping, with the bytes that came before it. -/
structure Unwrapped where
  body : List Char
  offset : Nat
deriving DecidableEq, Repr

/-- The text inside braces or after `urn:uuid:`. -/
def unwrap? (cs : List Char) : Option Unwrapped :=
  match cs with
  | '\x7b' :: rest =>
    if rest.getLast? = some '\x7d' then some ⟨rest.dropLast, 1⟩ else none
  | _ =>
    if (cs.take 9).map Char.toLower = "urn:uuid:".toList then some ⟨cs.drop 9, 9⟩ else none

/-- Reads any of the four spellings. -/
def ofChars? (cs : List Char) : Option Ident :=
  match unwrap? cs with
  | some inner => ofGrouped? inner.body
  | none => (ofDigits? cs).or (ofGrouped? cs)

/-- The first character that is neither a digit nor a hyphen, with its position in bytes. -/
def foreign? : Nat → List Char → Option (Char × Nat)
  | _, [] => none
  | index, c :: rest =>
    if c = '-' ∨ (Text.hexValue? c).isSome then foreign? (index + c.utf8Size) rest
    else some (c, index)

/-- The positions of the hyphens. -/
def hyphens (cs : List Char) : List Nat :=
  (cs.zipIdx.filter fun entry => entry.1 == '-').map (·.2)

/-- The groups before the four hyphens: where each starts and how long it should be. -/
def groupPlan : List (Nat × Nat) := [(0, 8), (9, 4), (14, 4), (19, 4)]

def byteLength (cs : List Char) : Nat := (cs.map Char.utf8Size).foldr (· + ·) 0

/-- The text that has to be the grouped form, going by the lengths alone: all of it if it is as long
as that form, or else the inside of a wrapping if that is. Positions then count from its start. -/
def groupedPart? (cs : List Char) : Option (List Char) :=
  if byteLength cs = 36 then some cs
  else ((unwrap? cs).map (·.body)).filter fun body => byteLength body = 36

/-- The first thing wrong with the inside of a text. Only what need not be grouped can be wrong by
its length alone. -/
def diagnoseBody (mustBeGrouped : Bool) (length : Nat) (inner : Unwrapped) : IdentFault :=
  match foreign? inner.offset inner.body with
  | some (c, index) => .character c index
  | none =>
    let marks := hyphens inner.body
    if !mustBeGrouped && marks.isEmpty then .length length
    else if marks.length ≠ 4 then .groupCount (marks.length + 1)
    else
      let misplaced := ((marks.zip groupPlan).zipIdx).find? fun entry =>
        entry.1.1 ≠ entry.1.2.1 + entry.1.2.2
      match misplaced with
      | some ((mark, start, expected), group) => .groupLength group expected (mark - start)
      | none => .groupLength 4 12 (length - 24)

/-- Why a text that is no spelling is refused. -/
def diagnose (cs : List Char) : IdentFault :=
  let length := byteLength cs
  if length = 0 ∨ 45 < length then .length length
  else
    match groupedPart? cs, unwrap? cs with
    | some body, _ => diagnoseBody true length ⟨body, 0⟩
    | none, some inner => diagnoseBody true length inner
    | none, none => diagnoseBody false length ⟨cs, 0⟩

/-- Reads an identifier, or says why the text is none. -/
def ofText (text : String) : Except IdentFault Ident :=
  match ofChars? text.toList with
  | some ident => .ok ident
  | none => .error (diagnose text.toList)

end Ident

end DoubleEntry
