import PhpNames.Path
import PhpNames.Uri.Host

/-!
From a URI to the path that it names, and back.

Reading follows the rules of web addresses: blank space around is dropped, line breaks and tabs
inside are ignored, dot segments are resolved, and a URI names a path only if it has no host or the
host is the machine itself. The scheme does not matter beyond that.
-/

namespace PhpNames
namespace Uri

open Text (Bytes)

inductive SchemeKind where
  | file
  /-- A web scheme: slashes lead to a host, and a backslash is a slash. -/
  | web
  | other
  deriving DecidableEq, Repr

def SchemeKind.of (scheme : Text) : SchemeKind :=
  if scheme = "file".toList then .file
  else if ["http", "https", "ws", "wss", "ftp"].any (·.toList == scheme) then .web
  else .other

def SchemeKind.isSlash (kind : SchemeKind) (c : Char) : Bool :=
  c == '/' || c == '\\' && kind != .other

def endsPath (c : Char) : Bool :=
  c == '?' || c == '#'

/-- A URI without the blank space around it and the line breaks and tabs inside it. -/
def tidy (uri : Text) : Text :=
  let isEdge := fun c : Char => c.toNat ≤ 0x20
  let trimmed := ((uri.dropWhile isEdge).reverse.dropWhile isEdge).reverse
  trimmed.filter fun c => c != '\t' && c != '\n' && c != '\r'

def isSchemeChar (c : Char) : Bool :=
  c.isAlphanum || c == '+' || c == '-' || c == '.'

/-- The scheme of a URI in small letters, and what follows its colon. -/
def cutScheme? (uri : Text) : Option (Text × Text) :=
  if uri.head?.any Char.isAlpha then
    match uri.dropWhile isSchemeChar with
    | ':' :: rest => some ((uri.takeWhile isSchemeChar).map Char.toLower, rest)
    | _ => none
  else none

def segments (kind : SchemeKind) (segment : Text) : Text → List Text
  | [] => [segment.reverse]
  | c :: rest =>
      if endsPath c then [segment.reverse]
      else if kind.isSlash c then segment.reverse :: segments kind [] rest
      else segments kind (c :: segment) rest

def isSingleDot (segment : Text) : Bool :=
  [".", "%2e"].any (·.toList == segment.map Char.toLower)

def isDoubleDot (segment : Text) : Bool :=
  ["..", ".%2e", "%2e.", "%2e%2e"].any (·.toList == segment.map Char.toLower)

/-- Whether a segment is a drive letter with a colon or a bar. -/
def isDrive (segment : Text) : Bool :=
  match segment with
  | [letter, mark] => letter.isAlpha && (mark == ':' || mark == '|')
  | _ => false

/-- One step up; a drive letter stays. The segments are in reverse. -/
def stepUp (above : List Text) : List Text :=
  match above with
  | [] => []
  | segment :: rest => if isDrive segment then segment :: rest else rest

/-- A segment as it is entered below the segments `above`: at the top of a file URI a drive letter
takes a colon. -/
def entered (kind : SchemeKind) (above : List Text) (segment : Text) : Text :=
  match segment with
  | [letter, _] =>
      if kind = .file && above.isEmpty && isDrive segment then [letter, ':'] else segment
  | _ => segment

def resolveDots (kind : SchemeKind) (above : List Text) : List Text → List Text
  | [] => above.reverse
  | [last] =>
      if isDoubleDot last then (stepUp above).reverse ++ [[]]
      else if isSingleDot last then above.reverse ++ [[]]
      else above.reverse ++ [entered kind above last]
  | segment :: rest =>
      if isDoubleDot segment then resolveDots kind (stepUp above) rest
      else if isSingleDot segment then resolveDots kind above rest
      else resolveDots kind (entered kind above segment :: above) rest

/-- The segments without empty ones at the front; the last one stays. -/
def dropEmpty : List Text → List Text
  | [] :: segment :: rest => dropEmpty (segment :: rest)
  | segments => segments

def dropSlash (kind : SchemeKind) (text : Text) : Text :=
  match text with
  | [] => []
  | c :: rest => if kind.isSlash c then rest else text

def resolved (kind : SchemeKind) (path : Text) : List Text :=
  resolveDots kind [] (segments kind [] path)

def pathSegments (kind : SchemeKind) (path : Text) : List Text :=
  resolved kind (dropSlash kind path)

/-- What follows the user name and password of an authority, and whether there were any. A host has
to follow an at sign. -/
def cutUser? (kind : SchemeKind) (text : Text) : Option (Bool × Text) :=
  let inAuthority := fun c => !(c == '/' || endsPath c || kind.isSlash c)
  let authority := text.takeWhile inAuthority
  let rest := text.dropWhile inAuthority
  if authority.contains '@' then
    let host := (authority.reverse.takeWhile (· != '@')).reverse
    let user := (authority.reverse.dropWhile (· != '@')).reverse.dropLast
    if user.isEmpty && host.isEmpty && !rest.isEmpty then none
    else some (!user.isEmpty && user != [':'], host ++ rest)
  else some (false, text)

def dropHostNumber? (text : Text) : Option Text :=
  match text with
  | ':' :: rest =>
      let after := rest.dropWhile Char.isDigit
      if Json.Number.valueOf (rest.takeWhile Char.isDigit) ≤ 65535 &&
          after.head?.all fun c => c == '/' || c == '\\' || endsPath c then
        some after
      else none
  | _ => some text

/-- The path after an authority whose host is the machine itself or absent. -/
def afterAuthority? (kind : SchemeKind) (text : Text) : Option Text := do
  let (hasUser, text) ← cutUser? kind text
  let inHost := fun c => !(c == ':' || c == '/' || endsPath c || kind.isSlash c)
  let host := text.takeWhile inHost
  let rest := text.dropWhile inHost
  let isLocal := if kind = .web then isLocalHost host else host == "localhost".toList
  if isLocal then dropHostNumber? rest
  else if kind = .other && host.isEmpty && !hasUser && rest.head? != some ':' then some rest
  else none

def webPath? (text : Text) : Option (List Text) := do
  let path ← afterAuthority? .web (text.dropWhile SchemeKind.web.isSlash)
  return pathSegments .web path

/-- The path of a file URI after its two slashes. A path that starts with a drive letter belongs to
the machine itself, whatever host stands before it. -/
def pathAfterHost? (text : Text) : Option (List Text) :=
  let inHost := fun c => !(endsPath c || SchemeKind.file.isSlash c)
  let host := text.takeWhile inHost
  let rest := text.dropWhile inHost
  if isDrive host then some (resolved .file text)
  else if host.isEmpty || isLocalHost host then some (resolved .file rest)
  else if isHost host && (pathSegments .file rest).head?.any isDrive then
    some (pathSegments .file rest)
  else none

def filePath? (text : Text) : Option (List Text) :=
  match text with
  | a :: b :: rest =>
      if SchemeKind.file.isSlash a && SchemeKind.file.isSlash b then
        (pathAfterHost? rest).map dropEmpty
      else some (dropEmpty (pathSegments .file text))
  | _ => some (dropEmpty (pathSegments .file text))

def otherPath? (text : Text) : Option (List Text) :=
  match text with
  | '/' :: '/' :: rest => do
      let path ← afterAuthority? .other rest
      if path.head?.all endsPath then none else some (pathSegments .other path)
  | '/' :: _ => some (pathSegments .other text)
  | _ => none

def segmentBytes (segment : Text) : Bytes :=
  percentDecode (Text.utf8 segment)

/-- A path that ends in a drive letter gets a slash after it. -/
def closeDrive (bytes : Bytes) : Bytes :=
  match bytes.reverse with
  | mark :: letter :: _ :: _ =>
      if (Char.ofNat letter.toNat).isAlpha && (mark == 0x3A || mark == 0x7C) then
        bytes ++ [Path.slash]
      else bytes
  | _ => bytes

def toPath? (uri : Text) : Option Path := do
  let (scheme, rest) ← cutScheme? (tidy uri)
  let segments ←
    match SchemeKind.of scheme with
    | .file => filePath? rest
    | .web => webPath? rest
    | .other => otherPath? rest
  return ⟨closeDrive (segments.flatMap fun segment => Path.slash :: segmentBytes segment)⟩

def ofPath? (path : Path) : Option Text :=
  match path.components with
  | .root :: [] => some "file:///".toList
  | .root :: steps =>
      some ("file://".toList ++ steps.flatMap fun step => '/' :: percentEncode step.bytes)
  | _ => none

end Uri
end PhpNames
