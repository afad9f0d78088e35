import PhpNames.Text.Basic

/-!
User settings, and the order of the `use` block that they ask for.
-/

namespace PhpNames

inductive Direction where
  | ascending
  | descending
  deriving DecidableEq, Repr

inductive SortPolicy where
  /-- By text, without regard to case. -/
  | alphabetical (direction : Direction)
  /-- Shorter lines first, lines of equal length by text. -/
  | length
  /-- By text, with runs of digits compared as numbers. -/
  | natural (direction : Direction)
  deriving DecidableEq, Repr

structure Settings where
  /-- Sort the `use` block after every import. -/
  autoSort : Bool := true
  sortAlphabetically : Bool := false
  sortNatural : Bool := false
  /-- Write a namespace separator before an expanded name. -/
  leadingSeparator : Bool := true
  showMessageOnStatusBar : Bool := false
  /-- The pattern of the files that are left out when a class is looked for. -/
  exclude : Text := "**/node_modules/**".toList
  deriving DecidableEq, Repr

def Settings.sortPolicy (settings : Settings) : SortPolicy :=
  if settings.sortNatural then
    .natural (if settings.sortAlphabetically then .ascending else .descending)
  else if settings.sortAlphabetically then .alphabetical .ascending
  else .length

end PhpNames
