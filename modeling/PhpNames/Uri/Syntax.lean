import PhpNames.Json.Token

/-!
The generic syntax of URIs: which texts are one.
-/

namespace PhpNames
namespace Uri

def isUnreserved (c : Char) : Bool :=
  c.isAlphanum || c == '-' || c == '.' || c == '_' || c == '~'

def isSubDelim (c : Char) : Bool :=
  "!$&'()*+,;=".toList.contains c

def isHexDigit (c : Char) : Bool :=
  (Json.Token.hexValue? c).isSome

def allAllowed (allowed : Char → Bool) : Text → Bool
  | [] => true
  | '%' :: a :: b :: rest => isHexDigit a && isHexDigit b && allAllowed allowed rest
  | c :: rest => allowed c && allAllowed allowed rest

def isUserChar (c : Char) : Bool :=
  isUnreserved c || isSubDelim c || c == ':'

def isRegNameChar (c : Char) : Bool :=
  isUnreserved c || isSubDelim c

def isPathChar (c : Char) : Bool :=
  isUserChar c || c == '@' || c == '/'

def isQueryChar (c : Char) : Bool :=
  isPathChar c || c == '?'

/-- A number from 0 to 255 without needless zeros. -/
def isDecimalOctet (text : Text) : Bool :=
  !text.isEmpty && text.all Char.isDigit && text.length ≤ 3 &&
    Json.Number.valueOf text ≤ 255 && (text.length == 1 || text.head? != some '0')

def isIpv4 (text : Text) : Bool :=
  let parts := Text.splitOn '.' text
  parts.length == 4 && parts.all isDecimalOctet

def isGroup (text : Text) : Bool :=
  1 ≤ text.length && text.length ≤ 4 && text.all isHexDigit

/-- The number of groups of four digits that colon-separated pieces stand for, where the last piece
may be an IPv4 address if `mayEndInV4`. -/
def groupCount? (mayEndInV4 : Bool) : List Text → Option Nat
  | [] => some 0
  | [last] =>
      if isGroup last then some 1
      else if mayEndInV4 && isIpv4 last then some 2
      else none
  | piece :: rest => if isGroup piece then (groupCount? mayEndInV4 rest).map (· + 1) else none

def partCount? (mayEndInV4 : Bool) (part : Text) : Option Nat :=
  if part.isEmpty then some 0 else groupCount? mayEndInV4 (Text.splitOn ':' part)

def isIpv6 (text : Text) : Bool :=
  match Text.cutAtText? "::".toList text with
  | some (before, after) =>
      match partCount? false before, partCount? true after with
      | some left, some right => left + right ≤ 7
      | _, _ => false
  | none => partCount? true text == some 8

def isIpFuture (text : Text) : Bool :=
  match text with
  | [] => false
  | mark :: rest =>
      (mark == 'v' || mark == 'V') &&
        match Text.cutAt? '.' rest with
        | some (version, address) =>
            !version.isEmpty && version.all isHexDigit && !address.isEmpty && address.all isUserChar
        | none => false

def isHostAndNumber (text : Text) : Bool :=
  match text with
  | '[' :: rest =>
      match Text.cutAt? ']' rest with
      | some (address, after) =>
          (isIpv6 address || isIpFuture address) &&
            match after with
            | [] => true
            | c :: number => c == ':' && number.all Char.isDigit
      | none => false
  | _ =>
      match Text.cutAt? ':' text with
      | some (host, number) => allAllowed isRegNameChar host && number.all Char.isDigit
      | none => allAllowed isRegNameChar text

def isAuthority (text : Text) : Bool :=
  match Text.cutAt? '@' text with
  | some (user, rest) => allAllowed isUserChar user && isHostAndNumber rest
  | none => isHostAndNumber text

def isHierarchy (text : Text) : Bool :=
  match text with
  | '/' :: '/' :: rest =>
      isAuthority (rest.takeWhile (· != '/')) && allAllowed isPathChar (rest.dropWhile (· != '/'))
  | _ => allAllowed isPathChar text

def isScheme (text : Text) : Bool :=
  text.head?.any Char.isAlpha && text.all fun c => c.isAlphanum || c == '+' || c == '-' || c == '.'

def isUri (text : Text) : Bool :=
  match Text.cutAt? ':' text with
  | none => false
  | some (scheme, rest) =>
      let beforeFragment := rest.takeWhile (· != '#')
      let fragment := (rest.dropWhile (· != '#')).drop 1
      let hierarchy := beforeFragment.takeWhile (· != '?')
      let query := (beforeFragment.dropWhile (· != '?')).drop 1
      isScheme scheme && isHierarchy hierarchy && allAllowed isQueryChar query &&
        allAllowed isQueryChar fragment

end Uri
end PhpNames
