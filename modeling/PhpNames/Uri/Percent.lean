import PhpNames.Json.Token
import PhpNames.Text.Utf8

/-!
Percent escapes: a percent sign and two hexadecimal digits stand for a byte.
-/

namespace PhpNames
namespace Uri

open Text (Bytes)

def hexByte? (byte : UInt8) : Option Nat :=
  Json.Token.hexValue? (Char.ofNat byte.toNat)

def escapedByte? (high low : UInt8) : Option UInt8 := do
  return UInt8.ofNat ((← hexByte? high) * 16 + (← hexByte? low))

def percentSign : UInt8 := 0x25

/-- Replaces every escape by its byte. A percent sign without two digits stands for itself. -/
def percentDecode : Bytes → Bytes
  | [] => []
  | [a] => [a]
  | [a, b] => [a, b]
  | a :: b :: c :: rest =>
      if a = percentSign then
        match escapedByte? b c with
        | some byte => byte :: percentDecode rest
        | none => a :: percentDecode (b :: c :: rest)
      else a :: percentDecode (b :: c :: rest)

def hexDigit (value : Nat) : Char :=
  (Nat.digitChar value).toUpper

/-- Whether a byte of a path component is escaped: controls, spaces, bytes beyond ASCII, and what
would not stand for itself in a path. -/
def isEscapedInPath (byte : UInt8) : Bool :=
  byte ≤ 0x20 || 0x7F ≤ byte || ("\"#<>?`\x7b\x7d/%\\".toList.map (·.toNat)).contains byte.toNat

def percentEncodeByte (byte : UInt8) : Text :=
  if isEscapedInPath byte then
    ['%', hexDigit (byte.toNat / 16), hexDigit (byte.toNat % 16)]
  else [Char.ofNat byte.toNat]

def percentEncode (bytes : Bytes) : Text :=
  bytes.flatMap percentEncodeByte

end Uri
end PhpNames
