import PhpNames.Text.Ranges
import PhpNames.Uri.Percent
import PhpNames.Uri.Syntax

/-!
Host names that stand for the machine itself. A host name is compared after the folding of
internationalised names: case does not count, compatible forms of a letter are that letter, and
characters that do not show are left out.
-/

namespace PhpNames
namespace Uri

def compatibleForms : List (String × List Nat) := [
    ("a", [
      0xaa, 0x1d2c, 0x1d43, 0x2090, 0x24b6, 0x24d0, 0xff21, 0xff41, 0x1d400, 0x1d41a, 0x1d434,
      0x1d44e, 0x1d468, 0x1d482, 0x1d49c, 0x1d4b6, 0x1d4d0, 0x1d4ea, 0x1d504, 0x1d51e, 0x1d538,
      0x1d552, 0x1d56c, 0x1d586, 0x1d5a0, 0x1d5ba, 0x1d5d4, 0x1d5ee, 0x1d608, 0x1d622, 0x1d63c,
      0x1d656, 0x1d670, 0x1d68a, 0x1f130]),
    ("c", [
      0x1d9c, 0x2102, 0x212d, 0x216d, 0x217d, 0x24b8, 0x24d2, 0xa7f2, 0xff23, 0xff43, 0x1d402,
      0x1d41c, 0x1d436, 0x1d450, 0x1d46a, 0x1d484, 0x1d49e, 0x1d4b8, 0x1d4d2, 0x1d4ec, 0x1d520,
      0x1d554, 0x1d56e, 0x1d588, 0x1d5a2, 0x1d5bc, 0x1d5d6, 0x1d5f0, 0x1d60a, 0x1d624, 0x1d63e,
      0x1d658, 0x1d672, 0x1d68c, 0x1f12b, 0x1f132]),
    ("cal", [
      0x3388]),
    ("h", [
      0x2b0, 0x1d34, 0x2095, 0x210b, 0x210c, 0x210d, 0x210e, 0x24bd, 0x24d7, 0xff28, 0xff48,
      0x1d407, 0x1d421, 0x1d43b, 0x1d46f, 0x1d489, 0x1d4bd, 0x1d4d7, 0x1d4f1, 0x1d525, 0x1d559,
      0x1d573, 0x1d58d, 0x1d5a7, 0x1d5c1, 0x1d5db, 0x1d5f5, 0x1d60f, 0x1d629, 0x1d643, 0x1d65d,
      0x1d677, 0x1d691, 0x1f137]),
    ("l", [
      0x2e1, 0x1d38, 0x2097, 0x2112, 0x2113, 0x216c, 0x217c, 0x24c1, 0x24db, 0xff2c, 0xff4c,
      0x1d40b, 0x1d425, 0x1d43f, 0x1d459, 0x1d473, 0x1d48d, 0x1d4c1, 0x1d4db, 0x1d4f5, 0x1d50f,
      0x1d529, 0x1d543, 0x1d55d, 0x1d577, 0x1d591, 0x1d5ab, 0x1d5c5, 0x1d5df, 0x1d5f9, 0x1d613,
      0x1d62d, 0x1d647, 0x1d661, 0x1d67b, 0x1d695, 0x1f13b]),
    ("o", [
      0xba, 0x1d3c, 0x1d52, 0x2092, 0x2134, 0x24c4, 0x24de, 0xff2f, 0xff4f, 0x1d40e, 0x1d428,
      0x1d442, 0x1d45c, 0x1d476, 0x1d490, 0x1d4aa, 0x1d4de, 0x1d4f8, 0x1d512, 0x1d52c, 0x1d546,
      0x1d560, 0x1d57a, 0x1d594, 0x1d5ae, 0x1d5c8, 0x1d5e2, 0x1d5fc, 0x1d616, 0x1d630, 0x1d64a,
      0x1d664, 0x1d67e, 0x1d698, 0x1f13e]),
    ("s", [
      0x17f, 0x2e2, 0x209b, 0x24c8, 0x24e2, 0xff33, 0xff53, 0x1d412, 0x1d42c, 0x1d446, 0x1d460,
      0x1d47a, 0x1d494, 0x1d4ae, 0x1d4c8, 0x1d4e2, 0x1d4fc, 0x1d516, 0x1d530, 0x1d54a, 0x1d564,
      0x1d57e, 0x1d598, 0x1d5b2, 0x1d5cc, 0x1d5e6, 0x1d600, 0x1d61a, 0x1d634, 0x1d64e, 0x1d668,
      0x1d682, 0x1d69c, 0x1f142]),
    ("st", [
      0xfb05, 0xfb06]),
    ("t", [
      0x1d40, 0x1d57, 0x209c, 0x24c9, 0x24e3, 0xff34, 0xff54, 0x1d413, 0x1d42d, 0x1d447, 0x1d461,
      0x1d47b, 0x1d495, 0x1d4af, 0x1d4c9, 0x1d4e3, 0x1d4fd, 0x1d517, 0x1d531, 0x1d54b, 0x1d565,
      0x1d57f, 0x1d599, 0x1d5b3, 0x1d5cd, 0x1d5e7, 0x1d601, 0x1d61b, 0x1d635, 0x1d64f, 0x1d669,
      0x1d683, 0x1d69d, 0x1f143])]

def ignoredRanges : Text.Ranges := [
    (0xad, 0xad), (0x34f, 0x34f), (0x180b, 0x180d), (0x180f, 0x180f), (0x200b, 0x200b),
    (0x2060, 0x2060), (0x2064, 0x2064), (0xfe00, 0xfe0f), (0xfeff, 0xfeff), (0x1bca0, 0x1bca3),
    (0xe0100, 0xe01ef)]

def foldHostChar (c : Char) : Text :=
  if c.toNat < 0x80 then [c.toLower]
  else if ignoredRanges.has c.toNat then []
  else
    match compatibleForms.find? fun (_, points) => points.contains c.toNat with
    | some (letters, _) => letters.toList
    | none => [c]

def foldHost? (host : Text) : Option Text :=
  (Text.ofUtf8? (percentDecode (Text.utf8 host))).map fun name => name.flatMap foldHostChar

def isLocalHost (host : Text) : Bool :=
  foldHost? host == some "localhost".toList

def isHostChar (c : Char) : Bool :=
  0x20 < c.toNat && c.toNat != 0x7F && !"#/:<>?@[\\]^|%".toList.contains c

/-- The value of a number of an address: decimal, or octal after a zero, or hexadecimal after a zero
and an x. -/
def addressNumber? (text : Text) : Option Nat :=
  let value := fun (base : Nat) (digits : Text) =>
    digits.foldlM (fun total c => do
      let digit ← Json.Token.hexValue? c
      if digit < base then some (total * base + digit) else none) 0
  match text with
  | [] => none
  | '0' :: 'x' :: digits => value 16 digits
  | '0' :: 'X' :: digits => value 16 digits
  | '0' :: digits => value 8 digits
  | digits => value 10 digits

/-- The parts of a host name between dots; a dot at its end does not count. -/
def hostParts (host : Text) : List Text :=
  let parts := Text.splitOn '.' host
  if 1 < parts.length && parts.getLast? == some [] then parts.dropLast else parts

/-- Whether a host name has to be an address, since its last part is a number. -/
def endsInNumber (host : Text) : Bool :=
  (hostParts host).getLast?.any fun part =>
    (!part.isEmpty && part.all Char.isDigit) || (addressNumber? part).isSome

/-- Whether a host name is an address of at most four numbers, the last of which fills up the
bytes that are left. -/
def isAddress (host : Text) : Bool :=
  let parts := hostParts host
  match parts.mapM addressNumber? with
  | none => false
  | some numbers =>
      numbers.length ≤ 4 && numbers.dropLast.all (· ≤ 255) &&
        numbers.getLast?.any (· < Nat.pow 256 (5 - numbers.length))

def isHost (host : Text) : Bool :=
  match host with
  | '[' :: rest => rest.getLast? == some ']' && isIpv6 rest.dropLast
  | _ =>
      (foldHost? host).any fun name =>
        !name.isEmpty && name.all isHostChar && (!endsInNumber name || isAddress name)

end Uri
end PhpNames
