import PhpNames.Text.Basic

/-!
Sets of code points given as a table of closed ranges in ascending order.
-/

namespace PhpNames
namespace Text

/-- A table of closed code point ranges, lowest first. -/
abbrev Ranges := List (Nat × Nat)

def Ranges.has : Ranges → Nat → Bool
  | [], _ => false
  | (low, high) :: rest, point =>
      if point < low then false else if point ≤ high then true else Ranges.has rest point

end Text
end PhpNames
