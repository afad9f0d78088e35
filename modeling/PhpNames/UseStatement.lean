import PhpNames.Text.WordChar

/-!
The `use` lines of a document and the names they make available.
-/

namespace PhpNames

/-- A `use` line: its text, and its line number counted from zero. -/
structure UseStatement where
  text : Text
  line : Nat
  deriving DecidableEq, Repr

namespace UseStatement

def importing (name : Text) : Text :=
  "use ".toList ++ name ++ [';']

def importingAs (name otherName : Text) : Text :=
  "use ".toList ++ name ++ " as ".toList ++ otherName ++ [';']

def isUse (line : Text) : Bool :=
  "use ".toList.isPrefixOf line

/-- The name that a `use` line makes available: the word right before its first semicolon. -/
def shortNameOf? (line : Text) : Option Text := do
  let (before, _) ← Text.cutAt? ';' line
  let name := Text.lastRun before
  if name.isEmpty then none else some name

def shortName? (statement : UseStatement) : Option Text :=
  shortNameOf? statement.text

/-- The first word that a semicolon directly follows. `run` is the word being read, in reverse. -/
def readImported? (run : Text) : Text → Option Text
  | [] => none
  | c :: rest =>
      if c = ';' then
        if run.isEmpty then readImported? [] rest else some run.reverse
      else if Text.isWordChar c then readImported? (c :: run) rest
      else readImported? [] rest

def importedName? (line : Text) : Option Text :=
  readImported? [] line

def takes (statements : List UseStatement) (name : Text) : Bool :=
  statements.any (·.shortName? == some name)

end UseStatement

/-- The last word of a class name with its namespace, or the whole of it if it has no word. -/
def baseName (name : Text) : Text :=
  let word := Text.lastRun ((name.reverse.dropWhile (!Text.isWordChar ·)).reverse)
  if word.isEmpty then name else word

end PhpNames
