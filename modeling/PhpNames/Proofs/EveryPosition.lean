import PhpNames.Proofs.WholeLines

/-!
Positions of any document.

Every position means a place in the text, whichever terminators its lines have: the last boundary
between characters of a line's content that does not lie behind the position. So places keep the
order of the positions, and an edit always exchanges one stretch of the text for its new text.
-/

namespace PhpNames

open Text

namespace Text

theorem chars_before_mono (text : Text) {left right : Nat} (le : left ≤ right) :
    charsBefore text left ≤ charsBefore text right := by
  induction text generalizing left right with
  | nil => exact le_refl _
  | cons c rest induction =>
      simp only [charsBefore]
      by_cases short : left < unitsOf c
      · rw [if_pos short]
        exact Nat.zero_le _
      · have long : ¬ right < unitsOf c := by omega
        rw [if_neg short, if_neg long]
        exact Nat.succ_le_succ (induction (Nat.sub_le_sub_right le _))

/-- The characters before a column do not reach beyond it. -/
theorem units_take_chars_before_le (text : Text) (column : Nat) :
    units (text.take (charsBefore text column)) ≤ column := by
  induction text generalizing column with
  | nil => exact Nat.zero_le _
  | cons c rest induction =>
      simp only [charsBefore]
      by_cases short : column < unitsOf c
      · rw [if_pos short]
        exact Nat.zero_le _
      · have below := induction (column - unitsOf c)
        rw [if_neg short, List.take_succ_cons, units_cons]
        omega

end Text

namespace Document

/-! ### Offsets in lines -/

theorem length_content_le (line : Text) : (content line).length ≤ line.length := by
  have whole := congrArg List.length (content_append_ending line)
  rw [List.length_append] at whole
  omega

theorem chars_before_content_le (line : Text) (column : Nat) :
    charsBefore (content line) column ≤ line.length :=
  (chars_before_le_length (content line) column).trans (length_content_le line)

theorem offset_in_le_length (lines : List Text) (number column : Nat) :
    offsetIn lines number column ≤ lines.flatten.length := by
  induction lines generalizing number with
  | nil => exact Nat.zero_le _
  | cons line rest induction =>
      rw [List.flatten_cons, List.length_append]
      cases number with
      | zero =>
          have inLine := chars_before_content_le line column
          rw [offsetIn]
          omega
      | succ number =>
          rw [offsetIn]
          exact Nat.add_le_add_left (induction number) _

theorem offset_in_beyond {lines : List Text} {number : Nat} (beyond : lines.length ≤ number)
    (column : Nat) : offsetIn lines number column = lines.flatten.length := by
  induction lines generalizing number with
  | nil => rfl
  | cons line rest induction =>
      cases number with
      | zero => simp at beyond
      | succ number =>
          have below : rest.length ≤ number := by simpa using beyond
          rw [offsetIn, induction below, List.flatten_cons, List.length_append]

theorem offset_in_mono (lines : List Text) {left right : Position} (le : left ≤ right) :
    offsetIn lines left.line left.column ≤ offsetIn lines right.line right.column := by
  obtain ⟨number, column⟩ := left
  obtain ⟨otherNumber, otherColumn⟩ := right
  simp only [Position.le_def] at le ⊢
  induction lines generalizing number otherNumber with
  | nil => exact le_refl _
  | cons line rest induction =>
      cases number with
      | zero =>
          cases otherNumber with
          | zero =>
              have columns : column ≤ otherColumn := by omega
              exact chars_before_mono (content line) columns
          | succ otherNumber =>
              -- the first line ends before any later one starts
              have inLine := chars_before_content_le line column
              simp only [offsetIn]
              omega
      | succ number =>
          cases otherNumber with
          | zero => omega
          | succ otherNumber =>
              exact Nat.add_le_add_left (induction number otherNumber (by omega)) _

/-! ### Boundaries -/

/-- A beginning of a document that ends at a position: the lines above it and, of the content of its
own line, the characters in front of it. -/
def EndsAt (document : Document) (before : Text) (position : Position) : Prop :=
  ∃ front back, document.line? position.line = some (front ++ back) ∧
    before = (document.rawLines.take position.line).flatten ++ front ∧
    position.column = units front

variable {document : Document} {before : Text} {position : Position}

/-- A line of a document stands behind the lines above it. -/
theorem exists_around {number : Nat} {body : Text} (found : document.line? number = some body) :
    ∃ after, document.text = (document.rawLines.take number).flatten ++ (body ++ after) ∧
      ∀ column, document.offset ⟨number, column⟩ =
        (document.rawLines.take number).flatten.length + charsBefore body column := by
  rw [line?, lines, List.getElem?_map] at found
  obtain ⟨line, here, rfl⟩ := Option.map_eq_some_iff.mp found
  exact ⟨_, text_eq_around here, offset_in_line here⟩

theorem EndsAt.is_beginning (ends : document.EndsAt before position) :
    before <+: document.text := by
  obtain ⟨front, back, found, before_eq, -⟩ := ends
  obtain ⟨after, text_eq, -⟩ := exists_around found
  rw [text_eq, before_eq, List.append_assoc front, ← List.append_assoc]
  exact List.prefix_append _ _

theorem EndsAt.offset_eq (ends : document.EndsAt before position) :
    document.offset position = before.length := by
  obtain ⟨front, back, found, before_eq, column_eq⟩ := ends
  obtain ⟨after, -, offset_eq⟩ := exists_around found
  have here := offset_eq position.column
  rw [column_eq, chars_before_units] at here
  rw [before_eq, List.length_append, ← here, ← column_eq]

theorem unbroken_get_last_break_lines {line text last : Text} (unbroken : Unbroken line.reverse)
    (isLast : (breakLines line text).getLast? = some last) : Unbroken last := by
  have nothing : Unbroken ([] : Text).reverse := by simp [Unbroken]
  fun_induction breakLines line text with
  | case1 line =>
      rw [List.getLast?_singleton, Option.some.injEq] at isLast
      exact isLast ▸ unbroken
  | case2 line rest induction =>
      rw [List.getLast?_cons_of_ne_nil (break_lines_ne_nil [] rest)] at isLast
      exact induction nothing isLast
  | case3 line c rest notPair breaks induction =>
      rw [List.getLast?_cons_of_ne_nil (break_lines_ne_nil [] rest)] at isLast
      exact induction nothing isLast
  | case4 line c rest notPair kept induction =>
      apply induction _ isLast
      rw [List.reverse_cons]
      exact unbroken_append.mpr ⟨unbroken, by simpa [Unbroken] using kept⟩

/-- The whole of a document ends on its last line, which has no terminator. -/
theorem exists_ends_at_text (document : Document) :
    ∃ position, position.line < document.lineCount ∧ document.EndsAt document.text position := by
  have nonempty : document.rawLines ≠ [] := break_lines_ne_nil [] document.text
  obtain ⟨front, last, raw_eq⟩ : ∃ front last, document.rawLines = front ++ [last] :=
    ⟨_, _, (List.dropLast_concat_getLast nonempty).symm⟩
  have isLast : (breakLines [] document.text).getLast? = some last := by
    rw [← rawLines, raw_eq, List.getLast?_concat]
  have unbroken : Unbroken last := unbroken_get_last_break_lines (by simp [Unbroken]) isLast
  refine ⟨⟨front.length, units last⟩, ?_, last, [], ?_, ?_, rfl⟩
  · rw [lineCount, raw_eq, List.length_append]
    exact Nat.lt_succ_self _
  · rw [line?, lines, raw_eq, List.getElem?_map, List.getElem?_concat_length, Option.map_some,
      content_unbroken unbroken, List.append_nil]
  · rw [← flatten_raw_lines document, raw_eq]
    simp

/-- A position means a boundary that does not lie behind it. -/
theorem exists_ends_at_le (document : Document) (position : Position) :
    ∃ before boundary, document.EndsAt before boundary ∧ boundary ≤ position ∧
      document.offset position = before.length := by
  cases found : document.line? position.line with
  | some body =>
      obtain ⟨after, -, offset_eq⟩ := exists_around found
      let front := body.take (charsBefore body position.column)
      refine ⟨(document.rawLines.take position.line).flatten ++ front, ⟨position.line, units front⟩,
        ⟨front, body.drop (charsBefore body position.column), ?_, rfl, rfl⟩, ?_, ?_⟩
      · rw [List.take_append_drop]
        exact found
      · exact Or.inr ⟨rfl, units_take_chars_before_le body position.column⟩
      · have within := chars_before_le_length body position.column
        rw [List.length_append, List.length_take, Nat.min_eq_left within]
        exact offset_eq position.column
  | none =>
      obtain ⟨boundary, inside, ends⟩ := exists_ends_at_text document
      have beyond : document.lineCount ≤ position.line := by
        simpa [line?, lines, lineCount] using found
      refine ⟨document.text, boundary, ends, Or.inl (inside.trans_le beyond), ?_⟩
      rw [offset, offset_in_beyond beyond, flatten_raw_lines]

theorem offset_le_length (document : Document) (position : Position) :
    document.offset position ≤ document.text.length := by
  have within := offset_in_le_length document.rawLines position.line position.column
  rwa [flatten_raw_lines] at within

theorem offset_mono (document : Document) {left right : Position} (le : left ≤ right) :
    document.offset left ≤ document.offset right :=
  offset_in_mono document.rawLines le

/-! ### Edits -/

/-- An edit exchanges one stretch of a document for its new text. -/
theorem exists_exchange (document : Document) (edit : Edit) :
    ∃ before cut after, document.text = before ++ cut ++ after ∧
      before.length = document.offset edit.range.start ∧
      (before ++ cut).length = max (document.offset edit.range.stop)
        (document.offset edit.range.start) ∧
      (document.replace edit).text = before ++ edit.text ++ after := by
  let start := document.offset edit.range.start
  let stop := max (document.offset edit.range.stop) start
  have order : start ≤ stop := Nat.le_max_right _ _
  have within : stop ≤ document.text.length :=
    Nat.max_le.mpr ⟨offset_le_length document _, offset_le_length document _⟩
  have front : document.text.take start ++ (document.text.take stop).drop start =
      document.text.take stop := by
    have same : (document.text.take stop).take start = document.text.take start := by
      rw [List.take_take, Nat.min_eq_left order]
    rw [← same, List.take_append_drop]
  refine ⟨document.text.take start, (document.text.take stop).drop start, document.text.drop stop,
    ?_, ?_, ?_, rfl⟩
  · rw [front, List.take_append_drop]
  · rw [List.length_take, Nat.min_eq_left (order.trans within)]
  · rw [front, List.length_take, Nat.min_eq_left within]

/-- Every position has a place in every document, in the order of the positions, and an edit
replaces what stands between the places of its range. -/
theorem offset_total_and_monotone (document : Document) :
    (∀ position, document.offset position ≤ document.text.length) ∧
    (∀ left right : Position, left ≤ right → document.offset left ≤ document.offset right) ∧
    (∀ before position, document.EndsAt before position →
      before <+: document.text ∧ document.offset position = before.length) ∧
    (∀ position, ∃ before boundary, document.EndsAt before boundary ∧ boundary ≤ position ∧
      document.offset position = before.length) ∧
    ∀ edit : Edit, ∃ before cut after, document.text = before ++ cut ++ after ∧
      before.length = document.offset edit.range.start ∧
      (edit.range.start ≤ edit.range.stop →
        (before ++ cut).length = document.offset edit.range.stop) ∧
      (edit.range.stop ≤ edit.range.start → cut = []) ∧
      (document.replace edit).text = before ++ edit.text ++ after := by
  refine ⟨offset_le_length document, fun left right => offset_mono document,
    fun before position ends => ⟨ends.is_beginning, ends.offset_eq⟩, exists_ends_at_le document, ?_⟩
  intro edit
  obtain ⟨before, cut, after, text_eq, start_eq, stop_eq, replaced⟩ := exists_exchange document edit
  refine ⟨before, cut, after, text_eq, start_eq, ?_, ?_, replaced⟩
  · intro forwards
    rw [stop_eq, Nat.max_eq_left (offset_mono document forwards)]
  · intro backwards
    rw [Nat.max_eq_right (offset_mono document backwards), List.length_append, start_eq] at stop_eq
    exact List.eq_nil_of_length_eq_zero (by omega)

def mixedEnds : Document :=
  ⟨['a', Char.ofNat 0x1F600, '\r', '\n', 'b', Char.ofNat 0x2028, '\r']⟩

/-- The edit starts before U+2028, which belongs to the content of its line, and ends before it
starts, inside the surrogate pair. -/
theorem offset_total_and_monotone_mixed_ends :
    mixedEnds.EndsAt ['a', Char.ofNat 0x1F600, '\r', '\n', 'b'] ⟨1, 1⟩ ∧
    mixedEnds.offset ⟨1, 1⟩ = 5 ∧
    mixedEnds.offset ⟨0, 2⟩ ≤ mixedEnds.offset ⟨1, 1⟩ ∧
    ∃ before after, mixedEnds.text = before ++ after ∧ before.length = 5 ∧
      (mixedEnds.replace ⟨⟨⟨1, 1⟩, ⟨0, 2⟩⟩, ['x']⟩).text = before ++ ['x'] ++ after := by
  have ends : mixedEnds.EndsAt ['a', Char.ofNat 0x1F600, '\r', '\n', 'b'] ⟨1, 1⟩ :=
    ⟨['b'], [Char.ofNat 0x2028], by decide +kernel, by decide +kernel, by decide +kernel⟩
  obtain ⟨-, ordered, inverse, -, exchanges⟩ := offset_total_and_monotone mixedEnds
  have place := (inverse _ _ ends).2
  obtain ⟨before, cut, after, text_eq, start_eq, -, backwards, replaced⟩ :=
    exchanges ⟨⟨⟨1, 1⟩, ⟨0, 2⟩⟩, ['x']⟩
  have nothing : cut = [] := backwards (by decide)
  rw [nothing, List.append_nil] at text_eq
  exact ⟨ends, place, ordered _ _ (by decide), before, after, text_eq, start_eq.trans place,
    replaced⟩

end Document
end PhpNames
