import PhpNames.Document

/-!
Words under a cursor: runs of ASCII letters, digits and namespace separators.
-/

namespace PhpNames

/-- A word of a line, with the UTF-16 columns where it starts and where it stops. -/
structure Word where
  start : Nat
  stop : Nat
  text : Text
  deriving DecidableEq, Repr

namespace Word

def isNamePart (c : Char) : Bool :=
  c.isAlphanum || c == '\\'

def readFrom (column : Nat) (run : Text) : Text → List Word
  | [] => if run.isEmpty then [] else [⟨column - run.length, column, run.reverse⟩]
  | c :: rest =>
      if isNamePart c then readFrom (column + 1) (c :: run) rest
      else if run.isEmpty then readFrom (column + Text.unitsOf c) [] rest
      else
        ⟨column - run.length, column, run.reverse⟩ :: readFrom (column + Text.unitsOf c) [] rest

def all (line : Text) : List Word :=
  readFrom 0 [] line

/-- Whether a column touches a word; the column right after it still does. -/
def touches (word : Word) (column : Nat) : Bool :=
  word.start ≤ column && column ≤ word.stop

def inLine? (line : Text) (column : Nat) : Option Word :=
  (all line).find? (·.touches column)

def range (word : Word) (line : Nat) : Range :=
  ⟨⟨line, word.start⟩, ⟨line, word.stop⟩⟩

def at? (lines : List Text) (position : Position) : Option Word := do
  inLine? (← lines[position.line]?) position.column

end Word

def Document.wordAt? (document : Document) (position : Position) : Option Word := do
  Word.inLine? (← document.line? position.line) position.column

end PhpNames
