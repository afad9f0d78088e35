import PhpNames.Error
import PhpNames.Text.Blank
import PhpNames.UseStatement

/-!
The declaration block of a document: opening tag, `declare`, `namespace`, `use` statements and the
first type declaration, found in one pass over its lines.
-/

namespace PhpNames

def typeKeywords : List Text :=
  ["class".toList, "trait".toList, "interface".toList]

def startsWithName (text : Text) : Bool :=
  match text with
  | [] => false
  | c :: rest => Text.isBlank c && (rest.dropWhile Text.isBlank).head?.any Text.isWordChar

def declaresTypeHere (text : Text) : Bool :=
  typeKeywords.any fun keyword => (keyword.isPrefixOf? text).any startsWithName

def declaresType : Text → Bool
  | [] => false
  | c :: rest => declaresTypeHere (c :: rest) || declaresType rest

/-- What a line contributes to the declaration block. -/
inductive LineKind where
  | openingTag (withNamespace : Bool)
  | declareStatement
  | namespaceStatement
  | useStatement
  | typeDeclaration
  | other
  deriving DecidableEq, Repr

def namespaceFollows (afterTag : Text) : Bool :=
  afterTag.head?.any Text.isBlank && "namespace ".toList.isPrefixOf (Text.trimStart afterTag)

def LineKind.of (line : Text) : LineKind :=
  match "<?php".toList.isPrefixOf? line with
  | some afterTag => .openingTag (namespaceFollows afterTag)
  | none =>
      if "declare".toList.isPrefixOf line then .declareStatement
      else if "namespace ".toList.isPrefixOf line then .namespaceStatement
      else if UseStatement.isUse line then .useStatement
      else if declaresType line then .typeDeclaration
      else .other

/-- Where the constructs of the declaration block stand. Lines are counted from one, so that each
number is also the index of the line that follows. -/
structure Declarations where
  openingTag : Option Nat := none
  declareLine : Option Nat := none
  namespaceLine : Option Nat := none
  lastUse : Option Nat := none
  firstType : Option Nat := none
  deriving DecidableEq, Repr

namespace Declarations

def isComplete (found : Declarations) : Bool :=
  found.openingTag.isSome && found.declareLine.isSome && found.namespaceLine.isSome &&
    found.lastUse.isSome && found.firstType.isSome

/-- Notes what line `number` shows. Of every construct but `use` the first line counts. -/
def note (found : Declarations) (number : Nat) : LineKind → Declarations
  | .openingTag withNamespace =>
      { found with
        openingTag := found.openingTag.or (some number)
        namespaceLine :=
          if withNamespace then found.namespaceLine.or (some number) else found.namespaceLine }
  | .declareStatement => { found with declareLine := found.declareLine.or (some number) }
  | .namespaceStatement => { found with namespaceLine := found.namespaceLine.or (some number) }
  | .useStatement => { found with lastUse := some number }
  | .typeDeclaration => { found with firstType := found.firstType.or (some number) }
  | .other => found

end Declarations

structure Block where
  uses : List UseStatement := []
  declarations : Declarations := {}
  deriving DecidableEq, Repr

namespace Block

def take (block : Block) (index : Nat) (line : Text) : Block :=
  let kind := LineKind.of line
  { uses := if kind = .useStatement then block.uses ++ [⟨line, index⟩] else block.uses
    declarations := block.declarations.note (index + 1) kind }

def isStop (stop : Option Text) (line : Text) : Bool :=
  stop.any fun name => line == UseStatement.importing name

/-- Takes up the lines from index `index` on, until every construct has been found. -/
def scanFrom (stop : Option Text) (block : Block) (index : Nat) :
    List Text → Except ResolveError Block
  | [] => .ok block
  | line :: rest =>
      if isStop stop line then .error (.alreadyImported (stop.getD []))
      else if block.declarations.isComplete then .ok block
      else scanFrom stop (block.take index line) (index + 1) rest

/-- Scans a document given by its lines. A line that imports exactly the class `stop` ends the scan:
that class is already imported. -/
def scan (lines : List Text) (stop : Option Text) : Except ResolveError Block :=
  scanFrom stop {} 0 lines

end Block
end PhpNames
