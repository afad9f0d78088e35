import PhpNames.AutoloadMap
import PhpNames.Error
import PhpNames.Path

/-!
The namespace that a file should declare, from its place in the project and the autoload map.

A base directory counts wherever it occurs in the file's directory; of several the longest counts,
and of several of that length the first.
-/

namespace PhpNames
namespace Derivation

def relativeDirectory? (directory root : Path) : Option Text := do
  let steps ← root.components.isPrefixOf? directory.components
  return steps.flatMap fun step => Text.ofUtf8Lossy step.bytes ++ ['/']

def dropDots : Text → Text
  | '.' :: '/' :: rest => dropDots rest
  | text => text

/-- A base directory with forward slashes and one at its end; the project itself is empty. -/
def normalBase (base : Text) : Text :=
  let slashed := base.map fun c => if c = '\\' then '/' else c
  let trimmed := Text.dropAround '/' (dropDots slashed)
  if trimmed = [] ∨ trimmed = ['.'] then [] else trimmed ++ ['/']

/-- A namespace whose base directory occurs in the file's directory. -/
structure Match where
  namespaceName : Text
  base : Text
  /-- The file's directory with the first occurrence of the base taken out. -/
  remainder : Text
  deriving DecidableEq, Repr

def matchOf? (relative : Text) (entry : Text × Text) : Option Match := do
  let base := normalBase entry.2
  let (before, after) ← Text.cutAtText? base relative
  return ⟨entry.1, base, before ++ after⟩

/-- The better of two matches: the first, unless the second has the longer base. -/
def better (best : Option Match) (next : Match) : Option Match :=
  match best with
  | none => some next
  | some known =>
      if Text.utf8Length known.base < Text.utf8Length next.base then some next else some known

def best? (relative : Text) (map : AutoloadMap) : Option Match :=
  (map.pairs.filterMap (matchOf? relative)).foldl better none

def collapse : Text → Text
  | '\\' :: '\\' :: rest => collapse ('\\' :: rest)
  | c :: rest => c :: collapse rest
  | [] => []

def equalIgnoringCase (left right : Text) : Bool :=
  left.map Char.toLower == right.map Char.toLower

def compose (found : Match) : Text :=
  let rest := (Text.dropAround '/' found.remainder).map fun c => if c = '/' then '\\' else c
  let name := Text.dropTrailing '\\' found.namespaceName
  if rest.isEmpty || equalIgnoringCase rest name then name
  else if name.isEmpty then rest
  else name ++ '\\' :: rest

def derive (file root : Path) (map : AutoloadMap) : Except ResolveError Text :=
  let directory := file.parent?.getD root
  match relativeDirectory? directory root with
  | none => .error (.noMatchingEntry directory.display)
  | some relative =>
      match best? relative map with
      | none => .error (.noMatchingEntry ('/' :: relative))
      | some found => .ok (Text.dropLeading '\\' (collapse (compose found)))

def upTo (root : Path) : List Path → List Path
  | [] => []
  | directory :: rest =>
      if directory.same root then [directory] else directory :: upTo root rest

/-- The directories that may hold the manifest of a file: its own and every one above it up to the
workspace root, nearest first. -/
def manifestDirectories (file root : Path) : Except ResolveError (List Path) :=
  let start := file.parent?.getD file
  if start.startsWith root then .ok (upTo root start.ancestors) else .error .manifestNotFound

end Derivation
end PhpNames
