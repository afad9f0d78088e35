import PhpNames.StableSort
import PhpNames.Text.Units

/-!
Positions in a document, planned replacements, and where a position goes when a batch of
replacements is carried out.

All ranges of a batch refer to the same state of the document. A batch is carried out from the
bottom up, so that the ranges still to come stay valid.
-/

namespace PhpNames

/-- A place in a document: a line counted from zero and a UTF-16 column in it. -/
structure Position where
  line : Nat
  column : Nat
  deriving DecidableEq, Repr

namespace Position

instance : LE Position where
  le p q := p.line < q.line ∨ p.line = q.line ∧ p.column ≤ q.column

instance : LT Position where
  lt p q := p.line < q.line ∨ p.line = q.line ∧ p.column < q.column

theorem le_def {p q : Position} :
    p ≤ q ↔ p.line < q.line ∨ p.line = q.line ∧ p.column ≤ q.column := Iff.rfl

theorem lt_def {p q : Position} :
    p < q ↔ p.line < q.line ∨ p.line = q.line ∧ p.column < q.column := Iff.rfl

instance (p q : Position) : Decidable (p ≤ q) := decidable_of_iff _ le_def.symm

instance (p q : Position) : Decidable (p < q) := decidable_of_iff _ lt_def.symm

end Position

structure Range where
  start : Position
  stop : Position
  deriving DecidableEq, Repr

structure Edit where
  range : Range
  text : Text
  deriving DecidableEq, Repr

namespace Edit

def insert (position : Position) (text : Text) : Edit :=
  { range := ⟨position, position⟩, text }

def replaceLine (line : Nat) (current text : Text) : Edit :=
  { range := ⟨⟨line, 0⟩, ⟨line, Text.units current⟩⟩, text }

def isInsert (edit : Edit) : Bool :=
  edit.range.start = edit.range.stop

def lineFeeds (edit : Edit) : Nat :=
  edit.text.count '\n'

def lastLine (edit : Edit) : Text :=
  (edit.text.reverse.takeWhile (· != '\n')).reverse

def endColumn (edit : Edit) : Nat :=
  if edit.lineFeeds = 0 then edit.range.start.column + Text.units edit.lastLine
  else Text.units edit.lastLine

/-- A batch in the order in which it is carried out: last start first, and edits with the same
start as listed. -/
def bottomUp (edits : List Edit) : List Edit :=
  StableSort.sort (fun a b => decide (b.range.start ≤ a.range.start)) edits

end Edit

namespace Position

/-- Where a position goes when one edit is carried out. A position inside the replaced range goes to
its start. -/
def shiftOne (position : Position) (edit : Edit) : Position :=
  if edit.range.stop ≤ position then
    { line := position.line - edit.range.stop.line + edit.range.start.line + edit.lineFeeds
      column :=
        if edit.range.stop.line = position.line then
          edit.endColumn + (position.column - edit.range.stop.column)
        else position.column }
  else if edit.range.start < position then edit.range.start
  else position

def shift (position : Position) (edits : List Edit) : Position :=
  (Edit.bottomUp edits).foldl shiftOne position

def shiftAll (position : Position) (batches : List (List Edit)) : Position :=
  batches.foldl shift position

end Position
end PhpNames
