import PhpNames.Glob
import PhpNames.Path

/-!
A tree of files held in memory: reading a file by its path, and finding files by their name.
-/

namespace PhpNames

open Text (Bytes)

/-- The files, each with the names of the directories down to it, its own name last, and its
content. -/
structure FileTree where
  files : List (List Bytes × Bytes) := []
  deriving Repr

namespace FileTree

/-- Whether a place is a directory: the top, or a directory of some file. -/
def isDirectory (tree : FileTree) (place : List Bytes) : Bool :=
  place.isEmpty ||
    tree.files.any fun (file, _) => place.isPrefixOf file && place.length < file.length

def content? (tree : FileTree) (place : List Bytes) : Option Bytes :=
  tree.files.lookup place

/-- Follows the steps of a path from a place, whose names are in reverse. Only a directory can be
passed through. -/
def walk? (tree : FileTree) (place : List Bytes) : List Path.Component → Option (List Bytes)
  | [] => some place.reverse
  | step :: rest =>
      if tree.isDirectory place.reverse then
        match step with
        | .root => walk? tree [] rest
        | .current => walk? tree place rest
        | .parent => walk? tree place.tail rest
        | .named name => walk? tree (name :: place) rest
      else none

/-- The place that an absolute path leads to. A path that ends in a slash leads to a directory. -/
def locate? (tree : FileTree) (path : Path) : Option (List Bytes) := do
  let place ← if path.isAbsolute then tree.walk? [] path.components else none
  if path.endsInside && !tree.isDirectory place then none else some place

def read? (tree : FileTree) (path : Path) : Option Text := do
  Text.ofUtf8? (← tree.content? (← tree.locate? path))

def below (tree : FileTree) (root : Path) : List (Path × Bytes) :=
  match tree.locate? root with
  | none => []
  | some place =>
      if (tree.content? place).isSome then [(root, [])]
      else
        tree.files.filterMap fun (file, _) =>
          (place.isPrefixOf? file).map fun names =>
            let relative := List.intercalate [Path.slash] names
            (root.child relative, relative)

/-- Whether a file is left out: the pattern matches its path or the part below the root. -/
def isExcluded (exclusion : Option (List Glob)) (file : Path × Bytes) : Bool :=
  exclusion.any fun pattern =>
    Glob.matchesAll pattern file.2 || Glob.matchesAll pattern file.1.bytes

def named (name : Text) (exclusion : Option (List Glob)) (files : List (Path × Bytes)) :
    List Path :=
  Path.sort
    ((files.filter fun file =>
      file.1.fileNameText? == some name && !isExcluded exclusion file).map (·.1))

def find (tree : FileTree) (root : Path) (name : Text) (exclusion : Option (List Glob)) :
    List Path :=
  named name exclusion (tree.below root)

end FileTree
end PhpNames
