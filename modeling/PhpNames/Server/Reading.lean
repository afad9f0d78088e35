import PhpNames.Edit
import PhpNames.Json.Basic
import PhpNames.Uri.Syntax

/-!
Reading the parts of messages from JSON. A record without open ends may also be written as the
list of its fields.
-/

namespace PhpNames
namespace Server

abbrev Fields := String → Option Json

def objectFields? (value : Json) : Option Fields :=
  match value with
  | .object _ => some value.get?
  | _ => none

/-- The fields of a record written as an object, or as the list of its fields, of which the last
ones may be left out as long as `least` remain. -/
def recordFields? (names : List String) (least : Nat) (value : Json) : Option Fields :=
  match value with
  | .array items =>
      if least ≤ items.length && items.length ≤ names.length then
        some fun name => (names.zip items).lookup name
      else none
  | _ => objectFields? value

def required? {Value : Type} (fields : Fields) (name : String) (read? : Json → Option Value) :
    Option Value :=
  (fields name).bind read?

/-- A field that may be absent or null. -/
def optional? {Value : Type} (fields : Fields) (name : String) (read? : Json → Option Value) :
    Option (Option Value) :=
  match fields name with
  | none => some none
  | some .null => some none
  | some value => (read? value).map some

/-- A field that may be absent. -/
def defaulted? {Value : Type} (fields : Fields) (name : String) (read? : Json → Option Value)
    (default : Value) : Option Value :=
  match fields name with
  | none => some default
  | some value => read? value

def list? {Value : Type} (read? : Json → Option Value) (value : Json) : Option (List Value) :=
  value.items?.bind fun items => items.mapM read?

/-- A number that fits 32 bits without sign. -/
def count? (value : Json) : Option Nat :=
  value.natUpTo? 4294967295

/-- A number that fits 32 bits with sign. -/
def version? (value : Json) : Option Int :=
  value.intUpTo? 2147483647

def uri? (value : Json) : Option Text :=
  value.text?.filter Uri.isUri

def position? (value : Json) : Option Position := do
  let fields ← recordFields? ["line", "character"] 2 value
  return ⟨← required? fields "line" count?, ← required? fields "character" count?⟩

def range? (value : Json) : Option Range := do
  let fields ← recordFields? ["start", "end"] 2 value
  return ⟨← required? fields "start" position?, ← required? fields "end" position?⟩

def identifier? (value : Json) : Option Text := do
  required? (← recordFields? ["uri"] 1 value) "uri" uri?

def progressToken? (value : Json) : Option Unit :=
  if (version? value).isSome || value.text?.isSome then some () else none

def object? (value : Json) : Option Json :=
  if value.isObject then some value else none

def positionJson (position : Position) : Json :=
  .record [("line", .ofNat position.line), ("character", .ofNat position.column)]

def rangeJson (range : Range) : Json :=
  .record [("start", positionJson range.start), ("end", positionJson range.stop)]

def editJson (edit : Edit) : Json :=
  .record [("range", rangeJson edit.range), ("newText", .text edit.text)]

end Server
end PhpNames
