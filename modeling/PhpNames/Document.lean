import PhpNames.Edit

/-!
A document: text that is addressed by line and UTF-16 column.

Lines end at a line feed, a carriage return with or without a line feed, a vertical tab, a form
feed, and at U+0085, U+2028 and U+2029. Only a line feed, with the carriage return before it, is
left out of a line's content; the other terminators belong to it.
-/

namespace PhpNames

structure Document where
  text : Text
  deriving DecidableEq, Repr

namespace Document

def isBreak (c : Char) : Bool :=
  c == '\n' || c == '\r' || c == Char.ofNat 0x0B || c == Char.ofNat 0x0C ||
    c == Char.ofNat 0x85 || c == Char.ofNat 0x2028 || c == Char.ofNat 0x2029

/-- Breaks a text into lines with their terminators. `line` is the line being read, in reverse. -/
def breakLines (line : Text) : Text → List Text
  | [] => [line.reverse]
  | '\r' :: '\n' :: rest => ('\n' :: '\r' :: line).reverse :: breakLines [] rest
  | c :: rest =>
      if isBreak c then (c :: line).reverse :: breakLines [] rest
      else breakLines (c :: line) rest

/-- The lines of a document with their terminators. A document that ends in a terminator has an
empty last line. -/
def rawLines (document : Document) : List Text :=
  breakLines [] document.text

def content (line : Text) : Text :=
  match line.reverse with
  | '\n' :: '\r' :: rest => rest.reverse
  | '\n' :: rest => rest.reverse
  | _ => line

def lines (document : Document) : List Text :=
  document.rawLines.map content

def lineCount (document : Document) : Nat :=
  document.rawLines.length

def line? (document : Document) (index : Nat) : Option Text :=
  document.lines[index]?

/-- How many characters stand before a position, given the lines from the first on. A line past the
end means the end of the text, and a column past a line's content the end of that content. -/
def offsetIn : List Text → Nat → Nat → Nat
  | [], _, _ => 0
  | line :: _, 0, column => Text.charsBefore (content line) column
  | line :: rest, number + 1, column => line.length + offsetIn rest number column

def offset (document : Document) (position : Position) : Nat :=
  offsetIn document.rawLines position.line position.column

/-- Carries out one edit. A range that ends before it starts replaces nothing. -/
def replace (document : Document) (edit : Edit) : Document :=
  let start := document.offset edit.range.start
  let stop := max (document.offset edit.range.stop) start
  { text := document.text.take start ++ edit.text ++ document.text.drop stop }

def replaceAll (document : Document) (edits : List Edit) : Document :=
  (Edit.bottomUp edits).foldl replace document

end Document
end PhpNames
