import Mathlib.Data.List.Basic
import PhpNames.Proofs.InsertionSort
import PhpNames.Sorting

/-!
The orders of `use` lines.

Under every policy the lines are totally preordered, so that sorting puts them in order, keeps each
of them, and leaves lines alone that are in order already.
-/

namespace PhpNames

open Std

section Keys

variable {α β : Type}

/-- Comparing things by a key. -/
theorem trans_cmp_key (cmp : β → β → Ordering) [TransCmp cmp] (key : α → β) :
    TransCmp fun left right => cmp (key left) (key right) where
  eq_swap := OrientedCmp.eq_swap
  isLE_trans first second := TransCmp.isLE_trans first second

theorem trans_cmp_swap {cmp : α → α → Ordering} [TransCmp cmp] :
    TransCmp fun left right => (cmp left right).swap := by
  have turned : (fun left right => (cmp left right).swap) = fun left right => cmp right left := by
    funext left right
    exact OrientedCmp.eq_swap.symm
  rw [turned]
  exact TransCmp.opposite

end Keys

instance : TransCmp Text.order := by
  have byCode : TransCmp fun left right : Char => compare left.toNat right.toNat :=
    trans_cmp_key compare Char.toNat
  exact inferInstanceAs (TransCmp (List.compareLex fun left right : Char =>
    compare left.toNat right.toNat))

namespace SortPolicy

instance : TransCmp caseInsensitive :=
  trans_cmp_key Text.order Text.lowercase

instance : TransCmp numberOrder := by
  have byLength : TransCmp fun left right : Text => compare left.length right.length :=
    trans_cmp_key compare List.length
  exact trans_cmp_key
    (compareLex (fun left right : Text => compare left.length right.length) Text.order)
    (Text.dropLeading '0')

instance : TransCmp runOrder where
  eq_swap := by
    intro left right
    unfold runOrder
    cases isNumber left <;> cases isNumber right
    · exact @OrientedCmp.eq_swap _ Text.order _ left right
    · rfl
    · rfl
    · exact @OrientedCmp.eq_swap _ numberOrder _ left right
  isLE_trans := by
    intro first second third
    unfold runOrder
    -- a number in third place wants numbers in front of it, so six of the cases are immediate
    cases isNumber first <;> cases isNumber second <;> cases isNumber third
    · exact @TransCmp.isLE_trans _ Text.order _ first second third
    · intro _ false
      cases false
    · intro false _
      cases false
    · intro false _
      cases false
    · intro _ _
      rfl
    · intro _ false
      cases false
    · intro _ _
      rfl
    · exact @TransCmp.isLE_trans _ numberOrder _ first second third

instance : TransCmp naturalOrder :=
  trans_cmp_key (List.compareLex runOrder) runs

theorem trans_cmp_direction (direction : Direction) {cmp : Text → Text → Ordering} [TransCmp cmp] :
    TransCmp fun left right => direction.apply (cmp left right) := by
  cases direction with
  | ascending => exact inferInstanceAs (TransCmp cmp)
  | descending => exact trans_cmp_swap

instance (policy : SortPolicy) : TransCmp policy.order := by
  cases policy with
  | alphabetical direction => exact trans_cmp_direction direction
  | natural direction => exact trans_cmp_direction direction
  | length =>
      have byUnits : TransCmp fun left right : Text =>
          compare (Text.units left) (Text.units right) := trans_cmp_key compare Text.units
      exact inferInstanceAs (TransCmp (compareLex
        (fun left right : Text => compare (Text.units left) (Text.units right)) caseInsensitive))

variable (policy : SortPolicy) (texts : List Text)

theorem order_total (left right : Text) :
    (policy.order left right).isLE = true ∨ (policy.order right left).isLE = true := by
  cases outcome : policy.order left right with
  | lt => exact Or.inl rfl
  | eq => exact Or.inl rfl
  | gt =>
      right
      rw [OrientedCmp.lt_of_gt outcome]
      rfl

theorem sort_texts_perm : (policy.sortTexts texts).Perm texts :=
  StableSort.sort_perm _ texts

theorem sort_texts_pairwise :
    (policy.sortTexts texts).Pairwise fun left right => (policy.order left right).isLE = true := by
  apply StableSort.sort_pairwise
  · exact policy.order_total
  · intro first second third
    exact TransCmp.isLE_trans

theorem sort_texts_eq_self {texts : List Text}
    (ordered : texts.Pairwise fun left right => (policy.order left right).isLE = true) :
    policy.sortTexts texts = texts :=
  StableSort.sort_eq_self ordered

end SortPolicy
end PhpNames
