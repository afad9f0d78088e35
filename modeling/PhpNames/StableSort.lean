/-!
Sorting by insertion. Items that the order does not tell apart stay in the order they had.
-/

namespace PhpNames
namespace StableSort

variable {Item : Type}

/-- Puts an item in front of the first one that it may stand before. -/
def insert (le : Item → Item → Bool) (item : Item) : List Item → List Item
  | [] => [item]
  | first :: rest =>
      if le item first then item :: first :: rest else first :: insert le item rest

/-- The items in order, where `le` says whether an item may stand before another. -/
def sort (le : Item → Item → Bool) (items : List Item) : List Item :=
  items.foldr (insert le) []

end StableSort
end PhpNames
