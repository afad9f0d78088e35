import PhpNames.Entries

/-!
The autoload map of a project: which directories hold the classes of which namespace.
-/

namespace PhpNames

/-- Namespaces and their base directories, in the order in which the namespaces were first met. -/
structure AutoloadMap where
  entries : List (Text × List Text) := []
  deriving DecidableEq, Repr

namespace AutoloadMap

/-- Gives a namespace its directories, in the place it has or else at the end. -/
def insert (map : AutoloadMap) (name : Text) (directories : List Text) : AutoloadMap :=
  ⟨Entries.set name directories map.entries⟩

def insertAll (map : AutoloadMap) (entries : List (Text × List Text)) : AutoloadMap :=
  entries.foldl (fun map (name, directories) => map.insert name directories) map

def size (map : AutoloadMap) : Nat :=
  map.entries.length

def isEmpty (map : AutoloadMap) : Bool :=
  map.entries.isEmpty

def pairs (map : AutoloadMap) : List (Text × Text) :=
  map.entries.flatMap fun (name, directories) => directories.map fun directory => (name, directory)

end AutoloadMap
end PhpNames
