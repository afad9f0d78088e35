import PhpNames.StableSort
import PhpNames.Text.Utf8

/-!
File paths: bytes divided by slashes. Two paths are the same place when their components are the
same; repeated slashes and dots that stand alone do not count, except for a dot at the very start.
-/

namespace PhpNames

open Text (Bytes)

structure Path where
  bytes : Bytes
  deriving DecidableEq, Repr

namespace Path

inductive Component where
  | root
  | current
  | parent
  | named (name : Bytes)
  deriving DecidableEq, Repr

def slash : UInt8 := 0x2F

def dot : UInt8 := 0x2E

def ofText (text : Text) : Path :=
  ⟨Text.utf8 text⟩

def display (path : Path) : Text :=
  Text.ofUtf8Lossy path.bytes

/-- The stretches of bytes between slashes. `piece` is the stretch being read, in reverse. -/
def split (piece : Bytes) : Bytes → List Bytes
  | [] => [piece.reverse]
  | byte :: rest =>
      if byte = slash then piece.reverse :: split [] rest else split (byte :: piece) rest

def isIdle (piece : Bytes) : Bool :=
  piece == [] || piece == [dot]

/-- A path divided into the root slash or leading dot, if it has one, and the stretches of what
follows. -/
def divide (path : Path) : Option Component × List Bytes :=
  match path.bytes with
  | [] => (none, [])
  | first :: rest =>
      if first = slash then (some .root, split [] rest)
      else
        match split [] path.bytes with
        | piece :: pieces =>
            if piece == [dot] then (some .current, [] :: pieces) else (none, piece :: pieces)
        | [] => (none, [])

def stepOf (piece : Bytes) : Component :=
  if piece == [dot, dot] then .parent else .named piece

def components (path : Path) : List Component :=
  let (lead, pieces) := path.divide
  lead.toList ++ (pieces.filter (!isIdle ·)).map stepOf

def isAbsolute (path : Path) : Bool :=
  path.bytes.head? == some slash

/-- Whether a path can only be a directory, since it ends in a slash or in a dot after one. -/
def endsInside (path : Path) : Bool :=
  path.divide.2.getLast?.any isIdle

def same (left right : Path) : Bool :=
  left.components == right.components

/-- Whether a path lies in `base` or is `base`. -/
def startsWith (path base : Path) : Bool :=
  base.components.isPrefixOf path.components

def leadBytes : Option Component → Bytes
  | some .root => [slash]
  | some .current => [dot]
  | _ => []

def dropIdle (pieces : List Bytes) : List Bytes :=
  (pieces.reverse.dropWhile isIdle).reverse

/-- The path without its last component. A root and an empty path have no parent. -/
def parent? (path : Path) : Option Path :=
  let (lead, pieces) := path.divide
  match (dropIdle pieces).reverse with
  | _ :: above =>
      some ⟨leadBytes lead ++ List.intercalate [slash] (dropIdle above.reverse)⟩
  | [] => if lead = some .current then some ⟨[]⟩ else none

def fileName? (path : Path) : Option Bytes :=
  match path.components.getLast? with
  | some (.named name) => some name
  | _ => none

def fileNameText? (path : Path) : Option Text :=
  path.fileName?.bind Text.ofUtf8?

def child (directory : Path) (name : Bytes) : Path :=
  if directory.bytes.isEmpty || directory.bytes.getLast? == some slash then
    ⟨directory.bytes ++ name⟩
  else ⟨directory.bytes ++ slash :: name⟩

/-- The path itself and then its parents, nearest first. `fuel` bounds their number. -/
def ancestorsWithin (path : Path) : Nat → List Path
  | 0 => [path]
  | fuel + 1 =>
      match path.parent? with
      | some above => path :: ancestorsWithin above fuel
      | none => [path]

def ancestors (path : Path) : List Path :=
  path.ancestorsWithin path.bytes.length

def Component.bytes : Component → Bytes
  | .root => [slash]
  | .current => [dot]
  | .parent => [dot, dot]
  | .named name => name

/-- Components in order: a root, a leading dot, a step up, then names by their bytes. -/
def Component.rank : Component → Nat
  | .root => 0
  | .current => 1
  | .parent => 2
  | .named _ => 3

def bytesOrder (left right : Bytes) : Ordering :=
  List.compareLex (fun a b : UInt8 => compare a.toNat b.toNat) left right

def Component.order (left right : Component) : Ordering :=
  (compare left.rank right.rank).then
    (match left, right with
      | .named a, .named b => bytesOrder a b
      | _, _ => .eq)

def order (left right : Path) : Ordering :=
  List.compareLex Component.order left.components right.components

def sort (paths : List Path) : List Path :=
  StableSort.sort (fun left right => (left.order right).isLE) paths

end Path
end PhpNames
