import PhpNames.Text.Basic

/-!
Lists of named values in which a value that is given anew keeps the place of its name.
-/

namespace PhpNames
namespace Entries

variable {α : Type}

/-- Gives a name its value, in the place it has or else at the end. -/
def set (name : Text) (value : α) : List (Text × α) → List (Text × α)
  | [] => [(name, value)]
  | (known, old) :: rest =>
      if known = name then (known, value) :: rest else (known, old) :: set name value rest

theorem lookup_cons (known name : Text) (value : α) (rest : List (Text × α)) :
    ((known, value) :: rest).lookup name =
      if known = name then some value else rest.lookup name := by
  by_cases same : known = name
  · simp [same]
  · have apart : (name == known) = false := beq_false_of_ne (Ne.symm same)
    simp [List.lookup_cons, same, apart]

theorem lookup_set (name other : Text) (value : α) (entries : List (Text × α)) :
    (set name value entries).lookup other =
      if name = other then some value else entries.lookup other := by
  induction entries with
  | nil => rw [set, lookup_cons]
  | cons entry rest induction =>
      obtain ⟨known, old⟩ := entry
      rw [set]
      split
      · rename_i same
        rw [lookup_cons, lookup_cons, same]
        split <;> rfl
      · rename_i apart
        rw [lookup_cons, lookup_cons, induction]
        split
        · rename_i found
          rw [if_neg fun same => apart (found.trans same.symm)]
        · rfl

end Entries
end PhpNames
