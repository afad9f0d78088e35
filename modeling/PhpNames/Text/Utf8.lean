import PhpNames.Text.Basic

/-!
UTF-8: the bytes of a text and the text of bytes.
-/

namespace PhpNames
namespace Text

abbrev Bytes := List UInt8

def utf8 (text : Text) : Bytes :=
  text.flatMap String.utf8EncodeChar

def utf8Length (text : Text) : Nat :=
  (utf8 text).length

def isTail (byte : UInt8) : Bool :=
  0x80 ≤ byte && byte ≤ 0xBF

def isSecondOfThree (first second : UInt8) : Bool :=
  if first = 0xE0 then 0xA0 ≤ second && second ≤ 0xBF
  else if first = 0xED then 0x80 ≤ second && second ≤ 0x9F
  else isTail second

def isSecondOfFour (first second : UInt8) : Bool :=
  if first = 0xF0 then 0x90 ≤ second && second ≤ 0xBF
  else if first = 0xF4 then 0x80 ≤ second && second ≤ 0x8F
  else isTail second

def tailBits (byte : UInt8) : Nat :=
  byte.toNat % 0x40

/-- The characters of bytes; `none` stands for the longest start of a character that breaks off. -/
def pieces : Bytes → List (Option Char)
  | [] => []
  | first :: rest =>
      if first < 0x80 then some (Char.ofNat first.toNat) :: pieces rest
      else if 0xC2 ≤ first && first ≤ 0xDF then
        match rest with
        | second :: after =>
            if isTail second then
              some (Char.ofNat (first.toNat % 0x20 * 0x40 + tailBits second)) :: pieces after
            else none :: pieces (second :: after)
        | [] => [none]
      else if 0xE0 ≤ first && first ≤ 0xEF then
        match rest with
        | second :: third :: after =>
            if isSecondOfThree first second then
              if isTail third then
                some (Char.ofNat
                  ((first.toNat % 0x10 * 0x40 + tailBits second) * 0x40 + tailBits third)) ::
                  pieces after
              else none :: pieces (third :: after)
            else none :: pieces (second :: third :: after)
        | [second] => if isSecondOfThree first second then [none] else none :: pieces [second]
        | [] => [none]
      else if 0xF0 ≤ first && first ≤ 0xF4 then
        match rest with
        | second :: third :: fourth :: after =>
            if isSecondOfFour first second then
              if isTail third then
                if isTail fourth then
                  some (Char.ofNat
                    (((first.toNat % 8 * 0x40 + tailBits second) * 0x40 + tailBits third) * 0x40 +
                      tailBits fourth)) ::
                    pieces after
                else none :: pieces (fourth :: after)
              else none :: pieces (third :: fourth :: after)
            else none :: pieces (second :: third :: fourth :: after)
        | [second, third] =>
            if isSecondOfFour first second then
              if isTail third then [none] else none :: pieces [third]
            else none :: pieces [second, third]
        | [second] => if isSecondOfFour first second then [none] else none :: pieces [second]
        | [] => [none]
      else none :: pieces rest

def ofUtf8? (bytes : Bytes) : Option Text :=
  (pieces bytes).mapM id

/-- The text of bytes, with a replacement character wherever they spell none. -/
def ofUtf8Lossy (bytes : Bytes) : Text :=
  (pieces bytes).map (·.getD (Char.ofNat 0xFFFD))

end Text
end PhpNames
