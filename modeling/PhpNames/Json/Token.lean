import PhpNames.Json.Number
import PhpNames.Text.Units

/-!
The tokens of JSON text. Blank space between them is a space, a tab, a line feed or a carriage
return.

A string literal spells a text, unless its escapes hold half of a surrogate pair alone.
-/

namespace PhpNames
namespace Json

inductive Token where
  | openObject
  | closeObject
  | openArray
  | closeArray
  | colon
  | comma
  | null
  | bool (value : Bool)
  | number (value : Number)
  | string (spelled : Option Text)
  deriving DecidableEq, Repr

namespace Token

def isSpace (c : Char) : Bool :=
  c == ' ' || c == '\t' || c == '\n' || c == '\r'

def isNumberChar (c : Char) : Bool :=
  c.isDigit || c == '-' || c == '+' || c == '.' || c == 'e' || c == 'E'

def punctuation? (c : Char) : Option Token :=
  match c with
  | '\x7b' => some .openObject
  | '\x7d' => some .closeObject
  | '[' => some .openArray
  | ']' => some .closeArray
  | ':' => some .colon
  | ',' => some .comma
  | _ => none

def ofWord? (word : Text) : Option Token :=
  if word = "null".toList then some .null
  else if word = "true".toList then some (.bool true)
  else if word = "false".toList then some (.bool false)
  else none

def isHighSurrogate (point : Nat) : Bool :=
  0xD800 ≤ point && point ≤ 0xDBFF

def isLowSurrogate (point : Nat) : Bool :=
  0xDC00 ≤ point && point ≤ 0xDFFF

/-- The text of code points, where surrogates have to come in pairs. -/
def spell? : List Nat → Option Text
  | [] => some []
  | high :: rest =>
      if isHighSurrogate high then
        match rest with
        | low :: after =>
            if isLowSurrogate low then
              (spell? after).map
                (Char.ofNat (0x10000 + (high - 0xD800) * 0x400 + (low - 0xDC00)) :: ·)
            else none
        | [] => none
      else if isLowSurrogate high then none
      else (spell? rest).map (Char.ofNat high :: ·)

def hexValue? (c : Char) : Option Nat :=
  if c.isDigit then some (c.toNat - '0'.toNat)
  else if 'a' ≤ c ∧ c ≤ 'f' then some (c.toNat - 'a'.toNat + 10)
  else if 'A' ≤ c ∧ c ≤ 'F' then some (c.toNat - 'A'.toNat + 10)
  else none

def escaped? (c : Char) : Option Char :=
  match c with
  | '"' => some '"'
  | '\\' => some '\\'
  | '/' => some '/'
  | 'b' => some (Char.ofNat 8)
  | 'f' => some (Char.ofNat 12)
  | 'n' => some '\n'
  | 'r' => some '\r'
  | 't' => some '\t'
  | _ => none

/-- Where the reader stands: between tokens, in a number, in a word, in a string, after its
backslash, or in an escape by code. Runs and points are in reverse. -/
inductive Place where
  | between
  | number (run : Text)
  | word (run : Text)
  | string (points : List Nat)
  | escape (points : List Nat)
  | code (points : List Nat) (value : Nat) (missing : Nat)
  deriving DecidableEq, Repr

structure Reader where
  tokens : List Token := []
  place : Place := .between
  deriving DecidableEq, Repr

def Reader.start (tokens : List Token) (c : Char) : Option Reader :=
  if isSpace c then some ⟨tokens, .between⟩
  else if c = '"' then some ⟨tokens, .string []⟩
  else if c.isDigit || c == '-' then some ⟨tokens, .number [c]⟩
  else if c.isLower then some ⟨tokens, .word [c]⟩
  else (punctuation? c).map fun token => ⟨token :: tokens, .between⟩

def Reader.close (reader : Reader) : Option (List Token) :=
  match reader.place with
  | .between => some reader.tokens
  | .number run => (Number.ofText? run.reverse).map (Token.number · :: reader.tokens)
  | .word run => (ofWord? run.reverse).map (· :: reader.tokens)
  | _ => none

def Reader.step (reader : Reader) (c : Char) : Option Reader :=
  match reader.place with
  | .between => Reader.start reader.tokens c
  | .number run =>
      if isNumberChar c then some { reader with place := .number (c :: run) }
      else reader.close.bind (Reader.start · c)
  | .word run =>
      if c.isLower then some { reader with place := .word (c :: run) }
      else reader.close.bind (Reader.start · c)
  | .string points =>
      if c = '"' then some ⟨.string (spell? points.reverse) :: reader.tokens, .between⟩
      else if c = '\\' then some { reader with place := .escape points }
      else if c.toNat < 0x20 then none
      else some { reader with place := .string (c.toNat :: points) }
  | .escape points =>
      if c = 'u' then some { reader with place := .code points 0 4 }
      else (escaped? c).map fun c => { reader with place := .string (c.toNat :: points) }
  | .code points value missing =>
      (hexValue? c).map fun digit =>
        let value := value * 16 + digit
        { reader with
          place :=
            if missing ≤ 1 then .string (value :: points) else .code points value (missing - 1) }

def read? (text : Text) : Option (List Token) :=
  ((text.foldlM Reader.step {}).bind Reader.close).map List.reverse

end Token
end Json
end PhpNames
