import PhpNames.Text.Blank
import PhpNames.Text.Utf8

/-!
Glob patterns for paths. A pattern has to match the whole of a path, byte by byte: a question mark
stands for one byte and a star for any bytes, slashes included. Two stars between slashes, or at
either end next to one, stand for any number of directories.
-/

namespace PhpNames

open Text (Bytes)

inductive Glob where
  | literal (c : Char)
  | any
  | star
  /-- `**/` at the start: nothing, a slash, or anything up to a slash. -/
  | leadingDirectories
  /-- `/**` at the end: a slash and anything. -/
  | trailingDirectories
  /-- `/**/`: a slash, or anything between two slashes. -/
  | innerDirectories
  | oneOf (negated : Bool) (ranges : List (Char × Char))
  | alternatives (branches : List (List Glob))
  deriving Repr

namespace Glob

/-- The alternatives being read: the finished ones, last first, and the pieces of the pattern around
them, last first. -/
structure Group where
  finished : List (List Glob)
  outer : List Glob
  deriving Repr

/-- The pieces read so far in the current branch, last first; the groups that are open, innermost
first; and the character before. -/
structure Reader where
  pieces : List Glob := []
  groups : List Group := []
  previous : Option Char := none
  deriving Repr

namespace Reader

def push (reader : Reader) (piece : Glob) : Reader :=
  { reader with pieces := piece :: reader.pieces }

def openGroup (reader : Reader) : Reader :=
  { reader with pieces := [], groups := ⟨[], reader.pieces⟩ :: reader.groups }

def comma (reader : Reader) : Reader :=
  match reader.groups with
  | [] => reader.push (.literal ',')
  | group :: outer =>
      { reader with
        pieces := []
        groups := { group with finished := reader.pieces.reverse :: group.finished } :: outer }

def closeGroup? (reader : Reader) : Option Reader :=
  match reader.groups with
  | [] => none
  | group :: outer =>
      let branches := (reader.pieces.reverse :: group.finished).reverse
      some { reader with pieces := .alternatives branches :: group.outer, groups := outer }

def directories (reader : Reader) (atEnd : Bool) : Reader :=
  match reader.pieces with
  | .leadingDirectories :: _ => reader
  | .trailingDirectories :: _ => reader
  | _ :: rest =>
      { reader with pieces := (if atEnd then .trailingDirectories else .innerDirectories) :: rest }
  | [] => reader

def twoStars (reader : Reader) : Reader :=
  (reader.push .star).push .star

/-- Takes up two stars, given what follows them. Gives also whether the next character, a slash,
belongs to them. -/
def doubleStar (reader : Reader) (rest : Text) : Reader × Bool :=
  let next := rest.head?
  if reader.pieces.isEmpty then
    match next with
    | none => (reader.push .leadingDirectories, false)
    | some '/' => (reader.push .leadingDirectories, true)
    | some _ => (reader.twoStars, false)
  else
    let startsBranch :=
      !reader.groups.isEmpty && (reader.previous == some ',' || reader.previous == some '\x7b')
    if reader.previous != some '/' && !startsBranch then (reader.twoStars, false)
    else
      match next with
      | none => (reader.directories true, false)
      | some c =>
          if !reader.groups.isEmpty && (c == ',' || c == '\x7d') then
            (reader.directories true, false)
          else if c == '/' then (reader.directories false, true)
          else (reader.twoStars, false)

end Reader

structure ClassReader where
  /-- The ranges so far, last first. -/
  ranges : List (Char × Char) := []
  isFirst : Bool := true
  inRange : Bool := false
  deriving Repr

namespace ClassReader

def endRange? (reader : ClassReader) (c : Char) : Option ClassReader :=
  match reader.ranges with
  | (low, _) :: rest =>
      if c < low then none
      else some { ranges := (low, c) :: rest, isFirst := false, inRange := false }
  | [] => none

def single (reader : ClassReader) (c : Char) : ClassReader :=
  { ranges := (c, c) :: reader.ranges, isFirst := false, inRange := false }

def step? (reader : ClassReader) (c : Char) : Option ClassReader :=
  if c == '-' && !reader.isFirst && !reader.inRange then some { reader with inRange := true }
  else if reader.inRange then reader.endRange? c
  else some (reader.single c)

/-- The ranges of a class; a dash at its end stands for itself. -/
def close (reader : ClassReader) : List (Char × Char) :=
  (if reader.inRange then ('-', '-') :: reader.ranges else reader.ranges).reverse

end ClassReader

inductive Place where
  | plain
  /-- After a backslash. -/
  | escape
  /-- At the slash that belongs to two stars. -/
  | slash
  /-- At the second of two stars. -/
  | star
  /-- At the start of a class. -/
  | classStart
  | inClass (negated : Bool) (reader : ClassReader)
  deriving Repr

def readFrom? (reader : Reader) (place : Place) : Text → Option Reader
  | [] =>
      match place with
      | .plain => some reader
      | _ => none
  | c :: rest =>
      let reached := { reader with previous := some c }
      match place with
      | .plain =>
          match c with
          | '?' => readFrom? (reached.push .any) .plain rest
          | '*' =>
              if rest.head? == some '*' then readFrom? reader .star rest
              else readFrom? (reached.push .star) .plain rest
          | '[' => readFrom? reached .classStart rest
          | '\x7b' => readFrom? reached.openGroup .plain rest
          | '\x7d' => (reached.closeGroup?).bind fun reader => readFrom? reader .plain rest
          | ',' => readFrom? reached.comma .plain rest
          | '\\' => readFrom? reached .escape rest
          | c => readFrom? (reached.push (.literal c)) .plain rest
      | .escape => readFrom? (reached.push (.literal c)) .plain rest
      | .slash => readFrom? reached .plain rest
      | .star =>
          let (next, takesSlash) := reader.doubleStar rest
          readFrom? { next with previous := some c } (if takesSlash then .slash else .plain) rest
      | .classStart =>
          if c == '!' || c == '^' then readFrom? reached (.inClass true {}) rest
          else (ClassReader.step? {} c).bind fun members =>
            readFrom? reached (.inClass false members) rest
      | .inClass negated members =>
          if c == ']' && !members.isFirst then
            readFrom? (reached.push (.oneOf negated members.close)) .plain rest
          else (members.step? c).bind fun members =>
            readFrom? reached (.inClass negated members) rest

def parse? (pattern : Text) : Option (List Glob) := do
  let reader ← readFrom? {} .plain pattern
  if reader.groups.isEmpty then some reader.pieces.reverse else none

def suffixes : Bytes → List Bytes
  | [] => [[]]
  | byte :: rest => (byte :: rest) :: suffixes rest

def afterSlashes : Bytes → List Bytes
  | [] => []
  | byte :: rest => if byte == 0x2F then rest :: afterSlashes rest else afterSlashes rest

/-- The byte ranges of a class. The bytes of a character beyond ASCII count one by one. -/
def byteRanges (range : Char × Char) : List (UInt8 × UInt8) :=
  let (low, high) := range
  let lowBytes := String.utf8EncodeChar low
  if low = high then lowBytes.map fun byte => (byte, byte)
  else
    let highBytes := String.utf8EncodeChar high
    (lowBytes.dropLast.map fun byte => (byte, byte)) ++
      (lowBytes.getLast?.toList.zip (highBytes.take 1)) ++
      (highBytes.drop 1).map fun byte => (byte, byte)

def inClass (ranges : List (Char × Char)) (byte : UInt8) : Bool :=
  (ranges.flatMap byteRanges).any fun (low, high) => low ≤ byte && byte ≤ high

/-- Ends of the same length are the same end: keeps one of each. -/
def distinct (ends : List Bytes) : List Bytes :=
  ends.foldl (fun kept bytes => if kept.any (·.length == bytes.length) then kept else bytes :: kept)
    []

def isVoid : List Glob → Bool
  | [] => true
  | .alternatives branches :: rest => isVoidAll branches && isVoid rest
  | _ :: _ => false
where
  /-- Whether that holds of every branch. -/
  isVoidAll : List (List Glob) → Bool
    | [] => true
    | branch :: rest => isVoid branch && isVoidAll rest

mutual

/-- What may follow when a piece has matched the start of some bytes. -/
def after (bytes : Bytes) : Glob → List Bytes
  | .literal c => ((String.utf8EncodeChar c).isPrefixOf? bytes).toList
  | .any => bytes.tail?.toList
  | .star => suffixes bytes
  | .leadingDirectories => bytes :: afterSlashes bytes
  | .trailingDirectories =>
      match bytes with
      | [] => []
      | byte :: rest => if byte == 0x2F then suffixes rest else []
  | .innerDirectories =>
      match bytes with
      | [] => []
      | byte :: rest => if byte == 0x2F then rest :: afterSlashes rest else []
  | .oneOf negated ranges =>
      match bytes with
      | [] => []
      | byte :: rest => if inClass ranges byte != negated then [rest] else []
  | .alternatives branches =>
      if isVoid.isVoidAll branches then [bytes] else afterBranches bytes branches

def afterBranches (bytes : Bytes) : List (List Glob) → List Bytes
  | [] => []
  | branch :: rest =>
      (if isVoid branch then [] else afterAll [bytes] branch) ++ afterBranches bytes rest

def afterAll (ends : List Bytes) : List Glob → List Bytes
  | [] => ends
  | piece :: rest => afterAll (distinct (ends.flatMap fun bytes => after bytes piece)) rest

end

/-- Whether a pattern matches the whole of a path. Two stars alone match everything. -/
def matchesAll (pattern : List Glob) (path : Bytes) : Bool :=
  match pattern with
  | [.leadingDirectories] => true
  | _ => (afterAll [path] pattern).any (·.isEmpty)

/-- The pattern of the files to leave out. A blank or malformed pattern leaves out nothing. -/
def exclusion? (pattern : Text) : Option (List Glob) :=
  if (Text.trim pattern).isEmpty then none else parse? pattern

end Glob
end PhpNames
