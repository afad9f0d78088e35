import PhpNames.Text.Basic

/-!
JSON numbers as they are written, and which of them are whole numbers or beyond the range of a
double.
-/

namespace PhpNames
namespace Json

/-- A number literal: its sign, the digits before the point, those after it, and the exponent with
its sign. -/
structure Number where
  negative : Bool := false
  whole : Text
  fraction : Text := []
  exponent : Option (Bool × Text) := none
  deriving DecidableEq, Repr

namespace Number

def ofNat (value : Nat) : Number :=
  { whole := Nat.toDigits 10 value }

def ofInt (value : Int) : Number :=
  { negative := decide (value < 0), whole := Nat.toDigits 10 value.natAbs }

def valueOf (digits : Text) : Nat :=
  digits.foldl (fun value digit => value * 10 + (digit.toNat - '0'.toNat)) 0

def digits? (text : Text) : Option (Text × Text) :=
  let digits := text.takeWhile Char.isDigit
  if digits.isEmpty then none else some (digits, text.dropWhile Char.isDigit)

/-- The digits before the point; a zero at their start stands alone. -/
def whole? (text : Text) : Option (Text × Text) :=
  match text with
  | '0' :: rest => if rest.head?.any Char.isDigit then none else some (['0'], rest)
  | _ => digits? text

def fraction? (text : Text) : Option (Text × Text) :=
  match text with
  | '.' :: rest => digits? rest
  | _ => some ([], text)

def exponent? (text : Text) : Option (Option (Bool × Text)) :=
  match text with
  | [] => some none
  | mark :: rest =>
      if mark = 'e' ∨ mark = 'E' then
        let (negative, rest) :=
          match rest with
          | '+' :: rest => (false, rest)
          | '-' :: rest => (true, rest)
          | _ => (false, rest)
        match digits? rest with
        | some (digits, []) => some (some (negative, digits))
        | _ => none
      else none

def ofText? (text : Text) : Option Number := do
  let (negative, unsigned) :=
    match text with
    | '-' :: rest => (true, rest)
    | _ => (false, text)
  let (whole, rest) ← whole? unsigned
  let (fraction, rest) ← fraction? rest
  let exponent ← exponent? rest
  return { negative, whole, fraction, exponent }

def render (number : Number) : Text :=
  (if number.negative then ['-'] else []) ++ number.whole ++
    (if number.fraction.isEmpty then [] else '.' :: number.fraction) ++
    (match number.exponent with
      | none => []
      | some (true, digits) => "e-".toList ++ digits
      | some (false, digits) => 'e' :: digits)

/-- The value of a number written without point and exponent. A zero with a sign is none. -/
def int? (number : Number) : Option Int :=
  if number.fraction.isEmpty && number.exponent.isNone then
    let value := valueOf number.whole
    if number.negative then if value = 0 then none else some (-value) else some value
  else none

def nat? (number : Number) : Option Nat :=
  match number.int? with
  | some (.ofNat value) => some value
  | _ => none

def significandLimit : Nat := 18446744073709551615

/-- Takes up the digits before the point: the significand, and how many digits no longer fit. -/
def readWhole (state : Nat × Nat) (digit : Char) : Nat × Nat :=
  let (significand, dropped) := state
  let next := significand * 10 + (digit.toNat - '0'.toNat)
  if dropped = 0 ∧ next ≤ significandLimit then (next, 0) else (significand, dropped + 1)

/-- Takes up the digits after the point, up to the first that no longer fits: the significand, how
many digits were taken, and whether all fitted. -/
def readFraction (state : Nat × Nat × Bool) (digit : Char) : Nat × Nat × Bool :=
  let (significand, taken, fits) := state
  let next := significand * 10 + (digit.toNat - '0'.toNat)
  if fits ∧ next ≤ significandLimit then (next, taken + 1, true) else (significand, taken, false)

/-- Rounds to 53 significant bits, a half to the even neighbour. -/
def roundToDouble (value : Nat) : Nat :=
  let excess := value.log2 - 52
  let unit := Nat.pow 2 excess
  let quotient := value / unit
  let rest := value % unit
  if unit < 2 * rest ∨ unit = 2 * rest ∧ quotient % 2 = 1 then (quotient + 1) * unit
  else quotient * unit

def fitsDouble (significand : Nat) (power : Int) : Bool :=
  if significand = 0 then true
  else
    match power with
    | .negSucc _ => true
    | .ofNat power =>
        let product := roundToDouble significand * roundToDouble (Nat.pow 10 power)
        power ≤ 308 && roundToDouble product < Nat.pow 2 1024

def isFinite (number : Number) : Bool :=
  if number.fraction.isEmpty && number.exponent.isNone && number.whole.length < 300 then true
  else
    let (significand, dropped) := number.whole.foldl readWhole (0, 0)
    let (significand, taken, _) := number.fraction.foldl readFraction (significand, 0, true)
    let written : Int :=
      match number.exponent with
      | none => 0
      | some (negative, digits) => if negative then -(valueOf digits) else valueOf digits
    fitsDouble significand ((dropped : Int) - taken + written)

end Number
end Json
end PhpNames
