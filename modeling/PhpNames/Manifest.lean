import PhpNames.AutoloadMap
import PhpNames.Error
import PhpNames.Json.Basic

/-!
The project manifest: the autoload map that its `autoload` and `autoload-dev` sections give.

A record may also be written as the list of its fields. Fields that are not asked for may hold
anything.
-/

namespace PhpNames
namespace Manifest

def fileName : Text := "composer.json".toList

/-- The value of a field of a record that has only fields of the given names: at most one member may
have each name. -/
def memberOnce? (members : List (Option Text × Json)) (field : String) : Option (Option Json) :=
  match members.filter (·.1 == some field.toList) with
  | [] => some none
  | [(_, value)] => some (some value)
  | _ => none

def fields? (names : List String) : Json → Option (List (Option Json))
  | .object members =>
      if members.all (·.1.isSome) then names.mapM (memberOnce? members) else none
  | .array items =>
      if items.length ≤ names.length then
        some (items.map some ++ List.replicate (names.length - items.length) none)
      else none
  | _ => none

def entryDepth : Nat := 124

def table? : Json → Option (List (Text × Json))
  | .object members =>
      if members.all fun (key, value) => key.isSome && value.isPlain entryDepth then
        some (members.foldl (fun table (key, value) => Entries.set (key.getD []) value table) [])
      else none
  | _ => none

def section? (value : Json) : Option (List (Text × Json)) := do
  match ← fields? ["psr-4"] value with
  | [some table] => table? table
  | _ => some []

def optionalSection? (field : Option Json) : Option (Option (List (Text × Json))) :=
  match field with
  | none => some none
  | some .null => some none
  | some value => (section? value).map some

def sections? (text : Text) : Option (List (Option (List (Text × Json)))) := do
  (← fields? ["autoload", "autoload-dev"] (← Json.parse? text)).mapM optionalSection?

/-- The directories of a namespace: a string or a list of strings. -/
def directories? : Json → Option (List Text)
  | .string spelled => spelled.map ([·])
  | .array items => items.mapM Json.text?
  | _ => none

def addTable (map : AutoloadMap) : List (Text × Json) → Except ResolveError AutoloadMap
  | [] => .ok map
  | (name, value) :: rest =>
      match directories? value with
      | some directories => addTable (map.insert name directories) rest
      | none => .error (.invalidManifest (.directories name))

def addTables (map : AutoloadMap) :
    List (List (Text × Json)) → Except ResolveError AutoloadMap
  | [] => .ok map
  | table :: rest =>
      match addTable map table with
      | .ok map => addTables map rest
      | .error error => .error error

def autoloadMap (text : Text) : Except ResolveError AutoloadMap :=
  match sections? text with
  | none => .error (.invalidManifest .unreadable)
  | some sections =>
      if sections.all (·.isNone) then .error .noAutoloadConfig
      else
        match addTables {} (sections.filterMap id) with
        | .error error => .error error
        | .ok map => if map.isEmpty then .error .noAutoloadEntry else .ok map

end Manifest
end PhpNames
