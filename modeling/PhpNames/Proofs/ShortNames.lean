import PhpNames.Proofs.NewUseLine

/-!
The names that `use` lines make available.

A line makes available the word before its first semicolon. For a class whose name consists of
segments that is its last segment or the other name that it is imported under, also where the line
has been written behind another one.
-/

namespace PhpNames

open Text

/-- A name made of nonempty segments of letters, with separators between them. -/
def Segmented (isLetter : Char → Bool) (name : Text) : Prop :=
  ∀ segment ∈ splitOn '\\' name, segment ≠ [] ∧ ∀ c ∈ segment, isLetter c = true

instance (isLetter : Char → Bool) (name : Text) : Decidable (Segmented isLetter name) :=
  have : (segment : Text) → Decidable (∀ c ∈ segment, isLetter c = true) :=
    fun segment => List.decidableBAll (isLetter · = true) segment
  List.decidableBAll (fun segment => segment ≠ [] ∧ ∀ c ∈ segment, isLetter c = true)
    (splitOn '\\' name)

namespace Text

/-! ### Segments -/

theorem mem_split_at {separator c : Char} (piece text : Text) (member : c ∈ piece.reverse ++ text) :
    c = separator ∨ ∃ segment ∈ splitAt separator piece text, c ∈ segment := by
  induction text generalizing piece with
  | nil => exact Or.inr ⟨piece.reverse, by simp [splitAt], by simpa using member⟩
  | cons first rest induction =>
      rw [splitAt]
      by_cases separates : first = separator
      · rw [if_pos separates]
        simp only [List.mem_append, List.mem_cons] at member
        rcases member with inPiece | same | inRest
        · exact Or.inr ⟨piece.reverse, List.mem_cons_self, inPiece⟩
        · exact Or.inl (same.trans separates)
        · rcases induction [] inRest with same | ⟨segment, found, inside⟩
          · exact Or.inl same
          · exact Or.inr ⟨segment, List.mem_cons_of_mem _ found, inside⟩
      · rw [if_neg separates]
        apply induction
        simpa using member

/-- The last segment stands behind the last separator. -/
theorem exists_last_segment (separator : Char) (piece text : Text) :
    ∃ front, ∃ last ∈ splitAt separator piece text, piece.reverse ++ text = front ++ last ∧
      ∀ c ∈ front.getLast?, c = separator := by
  induction text generalizing piece with
  | nil => exact ⟨[], piece.reverse, by simp [splitAt], by simp, by simp⟩
  | cons first rest induction =>
      rw [splitAt]
      by_cases separates : first = separator
      · obtain ⟨front, last, found, rest_eq, behind⟩ := induction []
        rw [if_pos separates]
        refine ⟨piece.reverse ++ first :: front, last, List.mem_cons_of_mem _ found, ?_, ?_⟩
        · have split : rest = front ++ last := rest_eq
          simp [split]
        · cases front with
          | nil => simpa using separates
          | cons c front => simpa using behind
      · rw [if_neg separates]
        simpa using induction (first :: piece)

end Text

namespace Segmented

variable {isLetter : Char → Bool} {name : Text}

theorem mem (segmented : Segmented isLetter name) {c : Char} (member : c ∈ name) :
    c = '\\' ∨ isLetter c = true := by
  rcases mem_split_at [] name member with same | ⟨segment, found, inside⟩
  · exact Or.inl same
  · exact Or.inr ((segmented segment found).2 c inside)

theorem exists_last (segmented : Segmented isLetter name) :
    ∃ front last, name = front ++ last ∧ last ≠ [] ∧ (∀ c ∈ last, isLetter c = true) ∧
      ∀ c ∈ front.getLast?, c = '\\' := by
  obtain ⟨front, last, found, name_eq, behind⟩ := exists_last_segment '\\' [] name
  obtain ⟨nonempty, letters⟩ := segmented last found
  exact ⟨front, last, name_eq, nonempty, letters, behind⟩

theorem ends_in_letter (segmented : Segmented isLetter name) :
    ∃ c ∈ name.getLast?, isLetter c = true := by
  obtain ⟨front, last, rfl, nonempty, letters, -⟩ := segmented.exists_last
  refine ⟨last.getLast nonempty, ?_, letters _ (List.getLast_mem nonempty)⟩
  rw [List.getLast?_append_of_ne_nil front nonempty]
  exact List.getLast?_eq_some_getLast nonempty

end Segmented

/-! ### The last word -/

namespace Text

theorem is_break_of_is_word_char {c : Char} (isWord : isWordChar c = true) :
    Document.isBreak c = false := by
  by_contra breaks
  rw [Bool.not_eq_false] at breaks
  simp only [Document.isBreak, Bool.or_eq_true, beq_iff_eq] at breaks
  rcases breaks with (((((rfl | rfl) | rfl) | rfl) | rfl) | rfl) | rfl <;>
    exact absurd isWord (by decide +kernel)

theorem unbroken_of_letters {text : Text} (letters : ∀ c ∈ text, isWordChar c = true) :
    Unbroken text :=
  fun c member => is_break_of_is_word_char (letters c member)

/-- The last word does not reach beyond a character that belongs to no word. -/
theorem last_run_behind {front : Text} (behind : ∀ c ∈ front.getLast?, isWordChar c = false)
    (text : Text) : lastRun (front ++ text) = lastRun text := by
  have stops : front.reverse.takeWhile isWordChar = [] := by
    cases reversed : front.reverse with
    | nil => rfl
    | cons c rest =>
        have last : front.getLast? = some c := by
          rw [← List.head?_reverse, reversed]
          rfl
        rw [List.takeWhile_cons, behind c last]
        rfl
  rw [lastRun, lastRun, List.reverse_append, List.takeWhile_append]
  split
  · rename_i whole
    rw [stops, List.append_nil, (List.takeWhile_sublist isWordChar).eq_of_length whole]
  · rfl

theorem last_run_letters {word : Text} (letters : ∀ c ∈ word, isWordChar c = true) :
    lastRun word = word := by
  have run : ∀ c ∈ word.reverse, isWordChar c = true := by simpa using letters
  rw [lastRun, List.takeWhile_eq_self_iff.mpr run, List.reverse_reverse]

theorem last_run_append {front word : Text} (letters : ∀ c ∈ word, isWordChar c = true)
    (behind : ∀ c ∈ front.getLast?, isWordChar c = false) : lastRun (front ++ word) = word := by
  rw [last_run_behind behind, last_run_letters letters]

/-- The last word of a text cannot be made longer. -/
theorem exists_last_run (text : Text) :
    ∃ front, text = front ++ lastRun text ∧ (∀ c ∈ lastRun text, isWordChar c = true) ∧
      ∀ c ∈ front.getLast?, isWordChar c = false := by
  refine ⟨(text.reverse.dropWhile isWordChar).reverse, ?_, ?_, ?_⟩
  · rw [lastRun, ← List.reverse_append, List.takeWhile_append_dropWhile, List.reverse_reverse]
  · intro c member
    exact List.mem_takeWhile_imp (List.mem_reverse.mp member)
  · intro c last
    rw [List.getLast?_reverse] at last
    have stopped := List.head?_dropWhile_not isWordChar text.reverse
    rw [last] at stopped
    exact stopped

theorem last_run_ne_nil {text : Text} (ends : ∃ c ∈ text.getLast?, isWordChar c = true) :
    lastRun text ≠ [] := by
  obtain ⟨c, last, isWord⟩ := ends
  obtain ⟨front, rfl⟩ := List.getLast?_eq_some_iff.mp last
  rw [lastRun, List.reverse_append, List.reverse_singleton, List.singleton_append,
    List.takeWhile_cons_of_pos isWord, List.reverse_cons]
  exact List.append_ne_nil_of_right_ne_nil _ (List.cons_ne_nil c [])

theorem cut_at?_append {separator : Char} {left : Text} (absent : separator ∉ left) (right : Text) :
    cutAt? separator (left ++ separator :: right) = some (left, right) := by
  induction left with
  | nil => simp [cutAt?]
  | cons c left induction =>
      simp only [List.mem_cons, not_or] at absent
      rw [List.cons_append, cutAt?, if_neg (Ne.symm absent.1), induction absent.2]
      rfl

theorem cut_at?_eq_none {separator : Char} {text : Text} (absent : separator ∉ text) :
    cutAt? separator text = none := by
  induction text with
  | nil => rfl
  | cons c text induction =>
      simp only [List.mem_cons, not_or] at absent
      rw [cutAt?, if_neg (Ne.symm absent.1), induction absent.2]
      rfl

end Text

theorem Segmented.unbroken {name : Text} (segmented : Segmented isWordChar name) :
    Unbroken name := by
  intro c member
  rcases segmented.mem member with rfl | isWord
  · decide
  · exact is_break_of_is_word_char isWord

/-- A name that ends in a word is shortened to that word. -/
theorem base_name_append {front last : Text} (nonempty : last ≠ [])
    (letters : ∀ c ∈ last, isWordChar c = true)
    (behind : ∀ c ∈ front.getLast?, isWordChar c = false) : baseName (front ++ last) = last := by
  -- the name ends in a word character, so nothing is cut off before its last word is taken
  have kept : (front ++ last).reverse.dropWhile (!isWordChar ·) = (front ++ last).reverse := by
    cases reversed : last.reverse with
    | nil => exact absurd (List.reverse_eq_nil_iff.mp reversed) nonempty
    | cons c rest =>
        have isWord : isWordChar c = true := by
          apply letters
          rw [← List.mem_reverse, reversed]
          exact List.mem_cons_self
        rw [List.reverse_append, reversed, List.cons_append, List.dropWhile_cons, isWord]
        rfl
  simp only [baseName, kept, List.reverse_reverse, last_run_append letters behind]
  rw [if_neg (by rwa [List.isEmpty_iff])]

theorem base_name_eq_last_run {name : Text} (ends : ∃ c ∈ name.getLast?, isWordChar c = true) :
    baseName name = lastRun name := by
  obtain ⟨front, name_eq, letters, behind⟩ := exists_last_run name
  have shortened := base_name_append (last_run_ne_nil ends) letters behind
  rwa [← name_eq] at shortened

/-! ### Lines -/

namespace UseStatement

def shownName (name : Text) (otherName : Option Text) : Text :=
  otherName.getD (baseName name)

theorem is_use_append {line : Text} (isUseLine : isUse line = true) (further : Text) :
    isUse (line ++ further) = true := by
  apply List.isPrefixOf_iff_prefix.mpr
  exact (List.isPrefixOf_iff_prefix.mp isUseLine).trans (List.prefix_append line further)

theorem short_name_of?_eq_none {line : Text} (noEnd : ';' ∉ line) : shortNameOf? line = none := by
  rw [shortNameOf?, cut_at?_eq_none noEnd]
  rfl

/-- A line makes the last word before its first semicolon available. -/
theorem short_name_of?_ended {before : Text} (noEnd : ';' ∉ before) (further : Text) :
    shortNameOf? (before ++ ';' :: further) =
      if lastRun before = [] then none else some (lastRun before) := by
  rw [shortNameOf?, cut_at?_append noEnd]
  simp only [Option.bind_eq_bind, Option.bind_some, List.isEmpty_iff]

theorem short_name_of?_statement {before word : Text} (noEnd : ';' ∉ before) (further : Text)
    (nonempty : word ≠ []) (letters : ∀ c ∈ word, isWordChar c = true)
    (behind : ∀ c ∈ before.getLast?, isWordChar c = false) :
    shortNameOf? (before ++ word ++ ';' :: further) = some word := by
  have noEndInWord : ';' ∉ word := by
    intro member
    have isWord := letters ';' member
    rw [is_word_char_semicolon] at isWord
    cases isWord
  have absent : ';' ∉ before ++ word := by simp [noEnd, noEndInWord]
  rw [short_name_of?_ended absent, last_run_append letters behind, if_neg nonempty]

/-- A line that has been ended already keeps its name, whatever is written behind it. -/
theorem short_name_of?_append {line : Text} (ended : ';' ∈ line) (further : Text) :
    shortNameOf? (line ++ further) = shortNameOf? line := by
  obtain ⟨before, after, rfl, noEnd⟩ := List.eq_append_cons_of_mem ended
  rw [List.append_assoc, List.cons_append, short_name_of?_ended noEnd, short_name_of?_ended noEnd]

/-- The line for a class makes the last word of its name available. -/
theorem short_name_of?_append_importing {before name : Text} (noEnd : ';' ∉ before)
    (noEndInName : ';' ∉ name) (ends : ∃ c ∈ name.getLast?, isWordChar c = true) :
    shortNameOf? (before ++ importing name) = some (baseName name) := by
  have keyword : ∀ c ∈ (before ++ "use ".toList).getLast?, isWordChar c = false := by
    intro c isLast
    have blank : "use ".toList.getLast? = some ' ' := by decide
    rw [List.getLast?_append, blank] at isLast
    obtain rfl : ' ' = c := Option.some.inj isLast
    decide
  have absent : ';' ∉ before ++ "use ".toList ++ name := by
    simp only [List.mem_append, not_or]
    exact ⟨⟨noEnd, by decide⟩, noEndInName⟩
  have line_eq : before ++ importing name = before ++ "use ".toList ++ name ++ ';' :: [] := by
    change before ++ ("use ".toList ++ name ++ [';']) = _
    rw [← List.append_assoc, ← List.append_assoc]
  rw [line_eq, short_name_of?_ended absent, last_run_behind keyword, if_neg (last_run_ne_nil ends),
    base_name_eq_last_run ends]

/-- The line for a class makes its name available, also behind a line that was not ended. -/
theorem short_name_of?_line_for {name : Text} {otherName : Option Text}
    (segmented : Segmented isWordChar name)
    (typed : ∀ other ∈ otherName, other ≠ [] ∧ ∀ c ∈ other, isWordChar c = true)
    {before : Text} (noEnd : ';' ∉ before) :
    shortNameOf? (before ++ lineFor name otherName) = some (shownName name otherName) := by
  have noEndInName : ';' ∉ name := by
    intro member
    rcases segmented.mem member with same | isWord
    · revert same
      decide
    · rw [is_word_char_semicolon] at isWord
      cases isWord
  cases otherName with
  | none =>
      exact short_name_of?_append_importing noEnd noEndInName segmented.ends_in_letter
  | some other =>
      obtain ⟨nonempty, letters⟩ := typed other rfl
      have noEndAbove : ';' ∉ before ++ "use ".toList ++ name ++ " as ".toList := by
        simp only [List.mem_append, not_or]
        exact ⟨⟨⟨noEnd, by decide⟩, noEndInName⟩, by decide⟩
      have line_eq : before ++ lineFor name (some other) =
          before ++ "use ".toList ++ name ++ " as ".toList ++ other ++ ';' :: [] := by
        change before ++ ("use ".toList ++ name ++ " as ".toList ++ other ++ [';']) = _
        rw [← List.append_assoc, ← List.append_assoc, ← List.append_assoc, ← List.append_assoc]
      rw [line_eq]
      apply short_name_of?_statement noEndAbove [] nonempty letters
      intro c isLast
      have link : " as ".toList.getLast? = some ' ' := by decide
      rw [List.getLast?_append, link] at isLast
      obtain rfl : ' ' = c := Option.some.inj isLast
      decide

end UseStatement
end PhpNames
