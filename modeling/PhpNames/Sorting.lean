import PhpNames.Edit
import PhpNames.Error
import PhpNames.Settings
import PhpNames.StableSort
import PhpNames.Text.Lowercase
import PhpNames.UseStatement

/-!
Sorting of the `use` block. The sorted texts go onto the lines that the block already has, so that
whatever stands between the statements stays where it is.
-/

namespace PhpNames

def Direction.apply (direction : Direction) (ordering : Ordering) : Ordering :=
  match direction with
  | .ascending => ordering
  | .descending => ordering.swap

namespace SortPolicy

def caseInsensitive (left right : Text) : Ordering :=
  Text.order (Text.lowercase left) (Text.lowercase right)

/-- The longest stretches of a text that hold only ASCII digits or only other characters. -/
def runs (text : Text) : List Text :=
  text.splitBy fun a b => a.isDigit == b.isDigit

def isNumber (run : Text) : Bool :=
  run.all Char.isDigit

def numberOrder (left right : Text) : Ordering :=
  let left := Text.dropLeading '0' left
  let right := Text.dropLeading '0' right
  (compare left.length right.length).then (Text.order left right)

/-- The order of two runs: numbers by value and before everything else. -/
def runOrder (left right : Text) : Ordering :=
  match isNumber left, isNumber right with
  | true, true => numberOrder left right
  | true, false => .lt
  | false, true => .gt
  | false, false => Text.order left right

def naturalOrder (left right : Text) : Ordering :=
  List.compareLex runOrder (runs left) (runs right)

def order (policy : SortPolicy) (left right : Text) : Ordering :=
  match policy with
  | .alphabetical direction => direction.apply (caseInsensitive left right)
  | .length =>
      (compare (Text.units left) (Text.units right)).then (caseInsensitive left right)
  | .natural direction => direction.apply (naturalOrder left right)

/-- Texts in order; texts that the policy does not tell apart stay as they were. -/
def sortTexts (policy : SortPolicy) (texts : List Text) : List Text :=
  StableSort.sort (fun left right => (policy.order left right).isLE) texts

end SortPolicy

namespace UseStatement

def withTexts (statements : List UseStatement) (texts : List Text) : List UseStatement :=
  List.zipWith (fun statement text => { statement with text }) statements texts

/-- The statements with their texts in order, on the lines they had. -/
def sort (policy : SortPolicy) (statements : List UseStatement) :
    Except ResolveError (List UseStatement) :=
  if statements.length < 2 then .error .nothingToSort
  else .ok (withTexts statements (policy.sortTexts (statements.map (·.text))))

def sortEdits (statements sorted : List UseStatement) : List Edit :=
  List.zipWith
    (fun statement target => Edit.replaceLine statement.line statement.text target.text)
    statements sorted

end UseStatement
end PhpNames
