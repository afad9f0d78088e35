import Mathlib.Data.List.Sort
import PhpNames.StableSort

/-!
What sorting by insertion gives.

The sort is the one of the library, for the relation that the comparison decides. So it keeps every
item, puts the items in order if any two can be compared, and leaves ties as they were.
-/

namespace PhpNames
namespace StableSort

variable {Item : Type} {le : Item → Item → Bool}

theorem insert_eq_ordered_insert (item : Item) (items : List Item) :
    insert le item items = items.orderedInsert (le · · = true) item := by
  induction items with
  | nil => rfl
  | cons first rest inserted => rw [insert, List.orderedInsert_cons, inserted]

theorem sort_eq_insertion_sort (le : Item → Item → Bool) (items : List Item) :
    sort le items = items.insertionSort (le · · = true) := by
  have step : insert le = List.orderedInsert (le · · = true) :=
    funext fun item => funext (insert_eq_ordered_insert item)
  rw [sort, step, List.insertionSort]

theorem sort_perm (le : Item → Item → Bool) (items : List Item) : (sort le items).Perm items := by
  rw [sort_eq_insertion_sort]
  exact List.perm_insertionSort _ items

/-- Items that are in order already stay as they are. -/
theorem sort_eq_self {items : List Item} (ordered : items.Pairwise (le · · = true)) :
    sort le items = items := by
  rw [sort_eq_insertion_sort, ordered.insertionSort_eq]

theorem sort_pairwise (total : ∀ left right, le left right = true ∨ le right left = true)
    (trans : ∀ first second third, le first second = true → le second third = true →
      le first third = true) (items : List Item) :
    (sort le items).Pairwise (le · · = true) := by
  have : Std.Total (le · · = true) := ⟨total⟩
  have : IsTrans Item (le · · = true) := ⟨trans⟩
  rw [sort_eq_insertion_sort]
  exact List.pairwise_insertionSort _ items

/-- Items that may stand before each other stay in the order they had. -/
theorem filter_sort {chosen : Item → Bool} (items : List Item)
    (tied : ∀ left right, chosen left = true → chosen right = true → le left right = true) :
    (sort le items).filter chosen = items.filter chosen := by
  have level : (items.filter chosen).Pairwise (le · · = true) :=
    List.pairwise_of_forall_mem_list fun left leftChosen right rightChosen =>
      tied left right (List.mem_filter.mp leftChosen).2 (List.mem_filter.mp rightChosen).2
  have kept : (items.filter chosen).Sublist (sort le items) := by
    rw [sort_eq_insertion_sort]
    exact List.sublist_insertionSort level List.filter_sublist
  have length_eq := ((sort_perm le items).filter chosen).length_eq
  have stays := kept.filter chosen
  rw [List.filter_filter, funext fun item => Bool.and_self (chosen item)] at stays
  exact (stays.eq_of_length length_eq.symm).symm

end StableSort
end PhpNames
