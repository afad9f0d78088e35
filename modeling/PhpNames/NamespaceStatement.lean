import PhpNames.Declarations
import PhpNames.Edit

/-!
The namespace statement of a document: reading it and writing it.
-/

namespace PhpNames
namespace NamespaceStatement

def endsHere (text : Text) : Bool :=
  (text.dropWhile Text.isBlank).head? == some ';'

/-- The shortest name at the start of a text that is not empty, stays on its line, and has the end
of the statement behind it. -/
def shortestName? : Text → Option Text
  | [] => none
  | c :: rest =>
      if c = '\n' then none
      else if endsHere rest then some [c]
      else (shortestName? rest).map (c :: ·)

/-- The name after a keyword: as much blank space as possible belongs to the space before it, and at
least one character does. -/
def nameAfterBlank? : Text → Option Text
  | [] => none
  | c :: rest =>
      if Text.isBlank c then (nameAfterBlank? rest).or (shortestName? rest) else none

def keywords : List Text :=
  ["namespace".toList, "<?php namespace".toList]

def nameIn? (line : Text) : Option Text :=
  keywords.findSome? fun keyword => (keyword.isPrefixOf? line).bind nameAfterBlank?

/-- The namespace that a document declares: that of the first line that declares one. -/
def declared? (lines : List Text) : Option Text :=
  lines.findSome? nameIn?

def statement (name : Text) : Text :=
  "namespace ".toList ++ name ++ [';']

def startsHere (text : Text) : Bool :=
  match "namespace ".toList.isPrefixOf? text with
  | some (c :: _) => c != '\n'
  | _ => false

/-- Replaces the first statement of a line, up to the end of the line. -/
def restate (name : Text) : Text → Text
  | [] => []
  | c :: rest =>
      if startsHere (c :: rest) then statement name ++ (c :: rest).dropWhile (· != '\n')
      else c :: restate name rest

/-- The edit that makes a document declare a namespace. A statement that is there is replaced
where it stands; a new one goes below `declare`, else below the opening tag, else to the top. -/
def edit (name : Text) (lines : List Text) (found : Declarations) : Edit :=
  match found.namespaceLine with
  | some number =>
      let index := number - 1
      let current := (lines[index]?).getD []
      Edit.replaceLine index current (Text.trim (restate name current))
  | none =>
      let line := (found.declareLine.or found.openingTag).getD 0
      Edit.insert ⟨line, 0⟩ (['\n'] ++ statement name ++ ['\n'])

end NamespaceStatement
end PhpNames
