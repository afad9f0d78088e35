import PhpNames.Json.Token

/-!
JSON values: reading them from text, looking into them, and writing them.

Reading is strict. A string whose escapes spell no text is still a string, and a number beyond the
range of a double still a number; whoever uses a value says whether it may hold such.
-/

namespace PhpNames

/-- A JSON value. The members of an object are in the order of the text. -/
inductive Json where
  | null
  | bool (value : Bool)
  | number (value : Json.Number)
  | string (spelled : Option Text)
  | array (items : List Json)
  | object (members : List (Option Text × Json))
  deriving Repr

namespace Json

/-- A container whose end has not been read. Items and members are in reverse. -/
inductive Frame where
  | array (items : List Json)
  | object (members : List (Option Text × Json))
  | member (members : List (Option Text × Json)) (key : Option Text)

inductive Expected where
  | value
  | itemOrEnd
  | keyOrEnd
  | key
  | colon
  | commaOrEnd
  | nothing (value : Json)

structure Builder where
  frames : List Frame := []
  expected : Expected := .value

namespace Builder

def place (value : Json) : List Frame → Option Builder
  | [] => some ⟨[], .nothing value⟩
  | .array items :: outer => some ⟨.array (value :: items) :: outer, .commaOrEnd⟩
  | .member members key :: outer => some ⟨.object ((key, value) :: members) :: outer, .commaOrEnd⟩
  | .object _ :: _ => none

def startValue (frames : List Frame) : Token → Option Builder
  | .null => place .null frames
  | .bool value => place (.bool value) frames
  | .number value => place (.number value) frames
  | .string spelled => place (.string spelled) frames
  | .openArray => some ⟨.array [] :: frames, .itemOrEnd⟩
  | .openObject => some ⟨.object [] :: frames, .keyOrEnd⟩
  | _ => none

def close (frames : List Frame) (token : Token) : Option Builder :=
  match token, frames with
  | .closeArray, .array items :: outer => place (.array items.reverse) outer
  | .closeObject, .object members :: outer => place (.object members.reverse) outer
  | _, _ => none

def startMember (frames : List Frame) (key : Option Text) : Option Builder :=
  match frames with
  | .object members :: outer => some ⟨.member members key :: outer, .colon⟩
  | _ => none

def separate (frames : List Frame) : Option Builder :=
  match frames with
  | .array _ :: _ => some ⟨frames, .value⟩
  | .object _ :: _ => some ⟨frames, .key⟩
  | _ => none

def step (builder : Builder) (token : Token) : Option Builder :=
  match builder.expected, token with
  | .value, token => startValue builder.frames token
  | .itemOrEnd, .closeArray => close builder.frames .closeArray
  | .itemOrEnd, token => startValue builder.frames token
  | .keyOrEnd, .closeObject => close builder.frames .closeObject
  | .keyOrEnd, .string key => startMember builder.frames key
  | .key, .string key => startMember builder.frames key
  | .colon, .colon => some { builder with expected := .value }
  | .commaOrEnd, .comma => separate builder.frames
  | .commaOrEnd, token => close builder.frames token
  | _, _ => none

end Builder

def ofTokens? (tokens : List Token) : Option Json :=
  match tokens.foldlM Builder.step {} with
  | some ⟨[], .nothing value⟩ => some value
  | _ => none

def parse? (text : Text) : Option Json :=
  (Token.read? text).bind ofTokens?

def text (value : Text) : Json :=
  .string (some value)

def ofNat (value : Nat) : Json :=
  .number (.ofNat value)

def ofInt (value : Int) : Json :=
  .number (.ofInt value)

def record (members : List (String × Json)) : Json :=
  .object (members.map fun (key, value) => (some key.toList, value))

def isNull : Json → Bool
  | .null => true
  | _ => false

def isObject : Json → Bool
  | .object _ => true
  | _ => false

def text? : Json → Option Text
  | .string spelled => spelled
  | _ => none

def bool? : Json → Option Bool
  | .bool value => some value
  | _ => none

def items? : Json → Option (List Json)
  | .array items => some items
  | _ => none

def natUpTo? (limit : Nat) : Json → Option Nat
  | .number value => value.nat?.filter (· ≤ limit)
  | _ => none

/-- A whole number between `-limit - 1` and `limit`. -/
def intUpTo? (limit : Nat) : Json → Option Int
  | .number value => value.int?.filter fun value => decide (-limit - 1 ≤ value ∧ value ≤ limit)
  | _ => none

/-- The member of an object with a key; of several the last. -/
def get? (value : Json) (key : String) : Option Json :=
  match value with
  | .object members => members.reverse.lookup (some key.toList)
  | _ => none

/-- Whether a value nests at most `depth` deep, and every string in it spells a text and every
number is in the range of a double. -/
def isPlain : Nat → Json → Bool
  | _, .null => true
  | _, .bool _ => true
  | _, .number value => value.isFinite
  | _, .string spelled => spelled.isSome
  | 0, .array _ => false
  | 0, .object _ => false
  | depth + 1, .array items => items.all (isPlain depth)
  | depth + 1, .object members =>
      members.all fun (key, value) => key.isSome && isPlain depth value

def renderChar (c : Char) : Text :=
  match c with
  | '"' => ['\\', '"']
  | '\\' => ['\\', '\\']
  | '\n' => ['\\', 'n']
  | '\r' => ['\\', 'r']
  | '\t' => ['\\', 't']
  | c =>
      if c.toNat < 0x20 then
        let digits := Nat.toDigits 16 c.toNat
        "\\u".toList ++ List.replicate (4 - digits.length) '0' ++ digits
      else [c]

def renderText (value : Text) : Text :=
  '"' :: value.flatMap renderChar ++ ['"']

mutual

def render : Json → Text
  | .null => "null".toList
  | .bool true => "true".toList
  | .bool false => "false".toList
  | .number value => value.render
  | .string spelled => renderText (spelled.getD [])
  | .array items => '[' :: List.intercalate [','] (renderItems items) ++ [']']
  | .object members => '\x7b' :: List.intercalate [','] (renderMembers members) ++ ['\x7d']

def renderItems : List Json → List Text
  | [] => []
  | item :: rest => render item :: renderItems rest

def renderMembers : List (Option Text × Json) → List Text
  | [] => []
  | (key, value) :: rest =>
      (renderText (key.getD []) ++ ':' :: render value) :: renderMembers rest

end

end Json
end PhpNames
