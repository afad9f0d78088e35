import PhpNames.Declarations

/-!
Class names that a document refers to, and the short names that it imports.

Every rule is a reader: at a place in the text it either fails or gives a name and what follows.
-/

namespace PhpNames
namespace References

def isClassChar (c : Char) : Bool :=
  c.isAlphanum || c == '-' || c == '_'

/-- A class name at the start of a text: a capital letter and what continues it. -/
def className? (text : Text) : Option (Text × Text) :=
  match text with
  | [] => none
  | c :: rest =>
      if c.isUpper then some (c :: rest.takeWhile isClassChar, rest.dropWhile isClassChar) else none

/-- The operand of `instanceof`: a capital letter or underscore, and a plain identifier after it. -/
def operand? (text : Text) : Option (Text × Text) :=
  match text with
  | [] => none
  | c :: rest =>
      if c.isUpper || c == '_' then
        some (c :: rest.takeWhile Text.isAsciiWordChar, rest.dropWhile Text.isAsciiWordChar)
      else none

def afterKeyword? (keyword : Text) (name? : Text → Option (Text × Text)) (text : Text) :
    Option (Text × Text) := do
  name? (← keyword.isPrefixOf? text)

def qualifier? (text : Text) : Option (Text × Text) := do
  let (name, rest) ← className? text
  return (name, ← "::".toList.isPrefixOf? rest)

/-- Applies a reader everywhere in a text, from left to right, each time after what it read last.
`skip` characters still belong to that. -/
def collect (read? : Text → Option (Text × Text)) (skip : Nat) : Text → List Text
  | [] => []
  | c :: rest =>
      match skip with
      | skip + 1 => collect read? skip rest
      | 0 =>
          match read? (c :: rest) with
          | some (name, after) => name :: collect read? (rest.length - after.length) rest
          | none => collect read? 0 rest

/-- `extends Foo` -/
def extended (text : Text) : List Text :=
  collect (afterKeyword? "extends ".toList className?) 0 text

/-- `new Foo` -/
def instantiated (text : Text) : List Text :=
  collect (afterKeyword? "new ".toList className?) 0 text

/-- `Foo::` -/
def staticAccess (text : Text) : List Text :=
  collect qualifier? 0 text

/-- `instanceof Foo` -/
def instanceofOperands (text : Text) : List Text :=
  collect (afterKeyword? "instanceof ".toList operand?) 0 text

def cutAtLastParenthesis? (text : Text) : Option (Text × Text) :=
  match (text.takeWhile (· != '\n')).reverse.dropWhile (· != ')') with
  | [] => none
  | _ :: before => some (before.reverse, text.drop (before.length + 1))

/-- The parameters in parentheses that open inside the word at the start of a text: of the
parentheses that open after its first character, the last one with a closing parenthesis behind it
on its line, up to the last closing parenthesis of that line. -/
def openParameters? : Text → Option (Text × Text)
  | [] => none
  | c :: rest =>
      if Text.isBlank c then none
      else
        match openParameters? rest with
        | some found => some found
        | none =>
            match rest with
            | '(' :: after => cutAtLastParenthesis? after
            | _ => none

def parameterList? (text : Text) : Option (Text × Text) := do
  openParameters? (← "function ".toList.isPrefixOf? text)

def parts (part : Text) : Text → List Text
  | [] => [part.reverse]
  | ',' :: ' ' :: rest => part.reverse :: parts [] rest
  | c :: rest => parts (c :: part) rest

/-- The type of a parameter: what stands before its first space, if it starts with a capital
letter. -/
def typeOf? (parameter : Text) : Option Text := do
  let (typeName, _) ← Text.cutAt? ' ' parameter
  if typeName.head?.any Char.isUpper then some typeName else none

def listedTypes (list : Text) : List Text :=
  (parts [] list).filterMap typeOf?

/-- `function foo(Foo $foo)`: the types of parameters. -/
def parameterTypes (text : Text) : List Text :=
  (collect parameterList? 0 text).flatMap listedTypes

def firstsAfter (seen : List Text) : List Text → List Text
  | [] => []
  | name :: rest =>
      if seen.contains name then firstsAfter seen rest
      else name :: firstsAfter (name :: seen) rest

def all (text : Text) : List Text :=
  firstsAfter []
    (extended text ++ parameterTypes text ++ instantiated text ++ staticAccess text ++
      instanceofOperands text)

/-- The short names that the lines of a document import above its first type declaration. -/
def imported : List Text → List Text
  | [] => []
  | line :: rest =>
      if UseStatement.isUse line then
        match UseStatement.importedName? line with
        | some name => name :: imported rest
        | none => imported rest
      else if declaresType line then []
      else imported rest

end References
end PhpNames
