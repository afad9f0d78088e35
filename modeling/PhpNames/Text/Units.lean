import PhpNames.Text.Basic

/-!
UTF-16 code units, the unit in which editors count columns.
-/

namespace PhpNames
namespace Text

/-- A character beyond the basic plane takes a surrogate pair. -/
def unitsOf (c : Char) : Nat :=
  if c.toNat < 0x10000 then 1 else 2

/-- The length of a text in UTF-16 code units. -/
def units : Text → Nat
  | [] => 0
  | c :: rest => unitsOf c + units rest

theorem units_of_pos (c : Char) : 0 < unitsOf c := by
  unfold unitsOf
  split <;> decide

@[simp] theorem units_nil : units [] = 0 := rfl

@[simp] theorem units_cons (c : Char) (rest : Text) :
    units (c :: rest) = unitsOf c + units rest := rfl

@[simp] theorem units_append (left right : Text) :
    units (left ++ right) = units left + units right := by
  induction left with
  | nil => simp
  | cons c rest induction => simp [induction, Nat.add_assoc]

theorem units_pos {text : Text} (nonempty : text ≠ []) : 0 < units text := by
  cases text with
  | nil => exact absurd rfl nonempty
  | cons c rest =>
      have positive := units_of_pos c
      rw [units_cons]
      omega

/-- How many characters stand before UTF-16 column `column`. A column inside a surrogate pair
belongs to that character, and a column past the end stops there. -/
def charsBefore : Text → Nat → Nat
  | [], _ => 0
  | c :: rest, column =>
      if column < unitsOf c then 0 else charsBefore rest (column - unitsOf c) + 1

theorem chars_before_le_length (text : Text) (column : Nat) :
    charsBefore text column ≤ text.length := by
  induction text generalizing column with
  | nil => simp [charsBefore]
  | cons c rest induction =>
      unfold charsBefore
      split
      · omega
      · have := induction (column - unitsOf c)
        simp only [List.length_cons]
        omega

end Text
end PhpNames
