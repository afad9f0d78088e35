/-!
Text as a list of Unicode characters, with the few cuts and joins that the rest of the library
shares.
-/

namespace PhpNames

abbrev Text := List Char

namespace Text

def joinLines (lines : List Text) : Text :=
  List.intercalate ['\n'] lines

theorem join_lines_cons (first : Text) {rest : List Text} (more : rest ≠ []) :
    joinLines (first :: rest) = first ++ '\n' :: joinLines rest := by
  obtain ⟨second, rest, rfl⟩ := List.exists_cons_of_ne_nil more
  simp [joinLines, List.intercalate]

section Runs

variable {p : Char → Bool} {c : Char}

theorem take_while_append_cons (stops : p c = false) (left right : Text) :
    (left ++ c :: right).takeWhile p = left.takeWhile p := by
  rw [List.takeWhile_append, List.takeWhile_cons_of_neg (by simp [stops]), List.append_nil]
  split
  · rename_i whole
    exact ((List.takeWhile_prefix p).eq_of_length whole).symm
  · rfl

theorem drop_while_append_cons (stops : p c = false) (left right : Text) :
    (left ++ c :: right).dropWhile p = left.dropWhile p ++ c :: right := by
  rw [List.dropWhile_append, List.dropWhile_cons_of_neg (by simp [stops])]
  split
  · rename_i whole
    rw [List.isEmpty_iff.mp whole, List.nil_append]
  · rfl

end Runs

def cutAt? (separator : Char) : Text → Option (Text × Text)
  | [] => none
  | c :: rest =>
      if c = separator then some ([], rest)
      else (cutAt? separator rest).map fun (before, after) => (c :: before, after)

/-- The pieces of a text between the occurrences of `separator`; there is always at least one. -/
def splitAt (separator : Char) (piece : Text) : Text → List Text
  | [] => [piece.reverse]
  | c :: rest =>
      if c = separator then piece.reverse :: splitAt separator [] rest
      else splitAt separator (c :: piece) rest

def splitOn (separator : Char) (text : Text) : List Text :=
  splitAt separator [] text

def dropLeading (c : Char) (text : Text) : Text :=
  text.dropWhile (· == c)

def dropTrailing (c : Char) (text : Text) : Text :=
  (text.reverse.dropWhile (· == c)).reverse

def dropAround (c : Char) (text : Text) : Text :=
  dropTrailing c (dropLeading c text)

section Trimming

variable {c : Char} {text : Text}

theorem head?_drop_leading (c : Char) (text : Text) : (dropLeading c text).head? ≠ some c := by
  intro front
  have outside := List.head?_dropWhile_not (· == c) text
  rw [dropLeading] at front
  simp [front] at outside

theorem drop_leading_eq_self (front : text.head? ≠ some c) : dropLeading c text = text := by
  cases text with
  | nil => rfl
  | cons first rest =>
      have other : ¬(first == c) = true := fun same => front (congrArg some (beq_iff_eq.mp same))
      rw [dropLeading, List.dropWhile_cons, if_neg other]

theorem drop_leading_append {lead : Text} (same : ∀ d ∈ lead, d = c) (text : Text) :
    dropLeading c (lead ++ text) = dropLeading c text := by
  induction lead with
  | nil => rfl
  | cons first lead induction =>
      obtain ⟨here, others⟩ := List.forall_mem_cons.mp same
      rw [List.cons_append, dropLeading, List.dropWhile_cons, if_pos (beq_iff_eq.mpr here)]
      exact induction others

theorem drop_trailing_eq (c : Char) (text : Text) :
    dropTrailing c text = (dropLeading c text.reverse).reverse :=
  rfl

theorem exists_trail (c : Char) (text : Text) :
    ∃ trail, dropTrailing c text ++ trail = text ∧ ∀ d ∈ trail, d = c := by
  refine ⟨(text.reverse.takeWhile (· == c)).reverse, ?_, ?_⟩
  · rw [dropTrailing, ← List.reverse_append, List.takeWhile_append_dropWhile, List.reverse_reverse]
  · intro d member
    have passed := List.all_eq_true.mp List.all_takeWhile d (List.mem_reverse.mp member)
    exact beq_iff_eq.mp passed

theorem get_last?_drop_trailing (c : Char) (text : Text) :
    (dropTrailing c text).getLast? ≠ some c := by
  rw [drop_trailing_eq, List.getLast?_reverse]
  exact head?_drop_leading c text.reverse

theorem head?_drop_around (c : Char) (text : Text) : (dropAround c text).head? ≠ some c := by
  obtain ⟨trail, parts, -⟩ := exists_trail c (dropLeading c text)
  have front := head?_drop_leading c text
  rw [← parts] at front
  rw [dropAround]
  cases kept : dropTrailing c (dropLeading c text) with
  | nil => exact nofun
  | cons first others =>
      rw [kept] at front
      exact front

/-- What stands between runs of `c` is left, if it has none at its ends. -/
theorem drop_around_between {lead trail : Text} (leads : ∀ d ∈ lead, d = c)
    (trails : ∀ d ∈ trail, d = c) (front : text.head? ≠ some c) (back : text.getLast? ≠ some c) :
    dropAround c (lead ++ (text ++ trail)) = text := by
  rw [dropAround, drop_leading_append leads]
  cases text with
  | nil =>
      have none : dropLeading c trail = [] := by
        have all := drop_leading_append trails []
        rwa [List.append_nil] at all
      rw [List.nil_append, none]
      rfl
  | cons first rest =>
      have front : (first :: rest ++ trail).head? ≠ some c := front
      have back : (first :: rest).reverse.head? ≠ some c := by rwa [List.head?_reverse]
      have trails : ∀ d ∈ trail.reverse, d = c := fun d member =>
        trails d (List.mem_reverse.mp member)
      rw [drop_leading_eq_self front, drop_trailing_eq, List.reverse_append,
        drop_leading_append trails, drop_leading_eq_self back, List.reverse_reverse]

end Trimming

def cutAtText? (pattern : Text) : Text → Option (Text × Text)
  | [] => if pattern.isEmpty then some ([], []) else none
  | c :: rest =>
      match pattern.isPrefixOf? (c :: rest) with
      | some after => some ([], after)
      | none => (cutAtText? pattern rest).map fun (before, after) => (c :: before, after)

/-- The order of texts by code point. -/
def order (left right : Text) : Ordering :=
  List.compareLex (fun a b : Char => compare a.toNat b.toNat) left right

end Text
end PhpNames
