import PhpNames.Builtin
import PhpNames.Error
import PhpNames.NamespaceStatement
import PhpNames.Path

/-!
The full names that a short class name may stand for.

A file named after a class declares it, and the namespace that the file declares gives one
candidate.
-/

namespace PhpNames

/-- Full class names in order, each once. -/
structure Candidates where
  names : List Text := []
  deriving DecidableEq, Repr

namespace Candidates

def push (candidates : Candidates) (name : Text) : Candidates :=
  if candidates.names.contains name then candidates else ⟨candidates.names ++ [name]⟩

def prepend (candidates : Candidates) (name : Text) : Candidates :=
  ⟨name :: candidates.names.filter (· != name)⟩

def single? (candidates : Candidates) : Option Text :=
  match candidates.names with
  | [only] => some only
  | _ => none

def qualified (namespaceName name : Text) : Text :=
  namespaceName ++ '\\' :: name

/-- The names under which the documents, given by their lines, declare a class. -/
def declared (name : Text) (documents : List (List Text)) : Candidates :=
  (documents.filterMap NamespaceStatement.declared?).foldl
    (fun candidates namespaceName => candidates.push (qualified namespaceName name)) {}

def resolve (name : Text) (documents : List (List Text)) : Except ResolveError Candidates :=
  let found := declared name documents
  let known := if Builtin.has name then found.prepend name else found
  if !known.names.isEmpty then .ok known
  else if documents.isEmpty then .error (.classNotFound name)
  else .ok (known.push name)

/-- Whether a file is named after a class: its name up to the first dot is that of the class. -/
def isNamedAfter (file : Path) (name : Text) : Bool :=
  file.fileNameText?.any fun fileName => fileName.takeWhile (· != '.') == name

end Candidates
end PhpNames
