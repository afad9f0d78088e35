import PhpNames.Proofs.ExactScan
import PhpNames.Proofs.FreshImport
import PhpNames.Proofs.ShortNames

/-!
How the `use` block grows.

A further line can only help a scan to find every construct, so a scan of a document with new lines
reads at most those more than before. Below the insertion point the old scan has read no statement,
and therefore the new one finds the old statements and perhaps the new one.
-/

namespace PhpNames

open Text

/-! ### Complete blocks -/

namespace Declarations

/-- Whatever other lines stand between them, lines that show every construct do. -/
theorem is_complete_shown_by_mono {lines more : List Text} (kept : lines ⊆ more)
    (complete : (shownBy lines).isComplete = true) : (shownBy more).isComplete = true := by
  rw [← shows_each_iff] at complete ⊢
  intro construct
  obtain ⟨line, member, shown⟩ := complete construct
  exact ⟨line, kept member, shown⟩

end Declarations

namespace Block

variable {lines front added back : List Text} {stop : Option Text} {block : Block}

def texts (lines : List Text) : List Text :=
  (lines.take (window lines)).filter UseStatement.isUse

theorem take_insert (front added back : List Text) (count : Nat) :
    (front ++ (added ++ back)).take (front.length + count + added.length) =
      front ++ (added ++ back.take count) := by
  rw [Nat.add_assoc, Nat.add_comm count, List.take_length_add_append, List.take_length_add_append]

theorem window_insert_le (added : List Text) (read : front.length ≤ window (front ++ back)) :
    window (front ++ (added ++ back)) ≤ window (front ++ back) + added.length := by
  have shorter := window_le_length (front ++ (added ++ back))
  by_contra further
  obtain ⟨count, window_eq⟩ := Nat.exists_eq_add_of_le read
  have whole : window (front ++ back) < (front ++ back).length := by
    simp only [List.length_append] at shorter ⊢
    omega
  have complete := is_complete_of_window_lt whole
  have unfinished := (lt_window_iff (by omega)).mp (not_le.mp further)
  rw [window_eq, take_insert] at unfinished
  rw [window_eq, List.take_length_add_append] at complete
  have kept : front ++ back.take count ⊆ front ++ (added ++ back.take count) := by
    intro line member
    rcases List.mem_append.mp member with above | below
    · exact List.mem_append_left _ above
    · exact List.mem_append_right _ (List.mem_append_right _ below)
  rw [Declarations.is_complete_shown_by_mono kept complete] at unfinished
  cases unfinished

/-- New lines among which one is a statement add at most that one. -/
theorem texts_insert {line : Text} (read : front.length ≤ window (front ++ back))
    (nothingBelow : (((front ++ back).take (window (front ++ back))).drop front.length).filter
      UseStatement.isUse = [])
    (only : added.filter UseStatement.isUse = [line]) :
    (texts (front ++ (added ++ back))).Sublist (texts (front ++ back) ++ [line]) := by
  have longer := window_insert_le added read
  obtain ⟨count, window_eq⟩ := Nat.exists_eq_add_of_le read
  rw [window_eq, List.take_length_add_append, List.drop_left] at nothingBelow
  have old : texts (front ++ back) = front.filter UseStatement.isUse := by
    rw [texts, window_eq, List.take_length_add_append, List.filter_append, nothingBelow,
      List.append_nil]
  have new : ((front ++ (added ++ back)).take (window (front ++ back) + added.length)).filter
      UseStatement.isUse = texts (front ++ back) ++ [line] := by
    rw [window_eq, take_insert, List.filter_append, List.filter_append, nothingBelow, only, old,
      List.append_nil]
  rw [← new]
  exact (List.take_sublist_take_left longer).filter _

theorem line_lt_last_use (scanned : scan lines stop = .ok block) {statement : UseStatement}
    (member : statement ∈ block.uses) :
    ∃ last, block.declarations.lastUse = some last ∧ statement.line < last := by
  obtain ⟨reached, records⟩ := exists_records scanned
  have position := last_use_shown_by (lines.take (window lines))
  rw [← eq_shown_by_of_scan scanned] at position
  cases uses_eq : block.uses.getLast? with
  | none =>
      rw [List.getLast?_eq_none_iff.mp uses_eq] at member
      cases member
  | some final =>
      refine ⟨final.line + 1, by rw [position, uses_eq]; rfl, ?_⟩
      obtain ⟨init, split⟩ := List.getLast?_eq_some_iff.mp uses_eq
      have ascending := records.ascending
      rw [split, List.pairwise_append] at ascending
      rw [split] at member
      rcases List.mem_append.mp member with earlier | same
      · have before := ascending.2.2 statement earlier final (List.mem_singleton.mpr rfl)
        omega
      · rw [List.mem_singleton.mp same]
        omega

theorem exists_use_of_last_use (scanned : scan lines stop = .ok block) {last : Nat}
    (found : block.declarations.lastUse = some last) :
    ∃ line text, last = line + 1 ∧ lines[line]? = some text ∧ UseStatement.isUse text = true := by
  have position := last_use_shown_by (lines.take (window lines))
  rw [← eq_shown_by_of_scan scanned, found] at position
  obtain ⟨statement, isLast, last_eq⟩ := Option.map_eq_some_iff.mp position.symm
  have member := List.mem_of_getLast? isLast
  rw [eq_shown_by_of_scan scanned, mem_uses_shown_by] at member
  refine ⟨statement.line, statement.text, last_eq.symm, ?_, member.2⟩
  have inside := (List.getElem?_eq_some_iff.mp member.1).1
  rw [List.length_take] at inside
  rw [← member.1, List.getElem?_take_of_lt (by omega)]

theorem no_use_below_insertion (scanned : scan lines stop = .ok block) :
    ((lines.take (window lines)).drop (InsertionPoint.of block.declarations).line).filter
      UseStatement.isUse = [] := by
  apply List.filter_eq_nil_iff.mpr
  intro text member isUse
  obtain ⟨below, here⟩ := List.mem_iff_getElem?.mp member
  rw [List.getElem?_drop] at here
  have found : ⟨text, (InsertionPoint.of block.declarations).line + below⟩ ∈ block.uses := by
    rw [eq_shown_by_of_scan scanned] at here ⊢
    exact mem_uses_shown_by.mpr ⟨here, isUse⟩
  obtain ⟨last, last_use_eq, above⟩ := line_lt_last_use scanned found
  rw [(InsertionPoint.blanks_above_eq_zero last_use_eq).2] at above
  simp only at above
  omega

end Block

/-! ### A new line -/

namespace UseStatement

open InsertionPoint

theorem filter_new_lines (name : Text) (otherName : Option Text) (found : Declarations) :
    (newLines name otherName found).filter isUse = [lineFor name otherName] := by
  simp [newLines, List.filter_append, is_use_nil, is_use_line_for]

end UseStatement

namespace Document

open UseStatement InsertionPoint

variable {document : Document} {name : Text} {otherName stop : Option Text} {block : Block}

theorem insertion_le_window (scanned : Block.scan document.lines stop = .ok block) :
    (InsertionPoint.of block.declarations).line ≤ Block.window document.lines := by
  cases last : block.declarations.lastUse with
  | none => exact (insertion_le scanned).trans (Block.length_le_window scanned last)
  | some line =>
      rw [(blanks_above_eq_zero last).2]
      exact Block.last_use_le_window scanned last

/-- A new line adds its statement, or is written behind the last one. -/
theorem texts_insert_use (plain : Plain document.text)
    (unbroken : Unbroken (lineFor name otherName))
    (scanned : Block.scan document.lines stop = .ok block) :
    (Block.texts (document.replaceAll [insertEdit name otherName block.declarations]).lines).Sublist
        (Block.texts document.lines ++ [lineFor name otherName]) ∨
      ∃ others last, Block.texts document.lines = others ++ [last] ∧
        (Block.texts (document.replaceAll
          [insertEdit name otherName block.declarations]).lines).Sublist
            (others ++ [last ++ lineFor name otherName]) := by
  have read := insertion_le_window scanned
  by_cases inside : (InsertionPoint.of block.declarations).line < document.lines.length
  · left
    have lines_eq := lines_insert_use plain unbroken inside
    have whole := List.take_append_drop (InsertionPoint.of block.declarations).line document.lines
    have front_length : (document.lines.take (InsertionPoint.of block.declarations).line).length =
        (InsertionPoint.of block.declarations).line := List.length_take_of_le inside.le
    have grown := @Block.texts_insert
      (document.lines.take (InsertionPoint.of block.declarations).line)
      (newLines name otherName block.declarations)
      (document.lines.drop (InsertionPoint.of block.declarations).line)
      (lineFor name otherName)
    rw [whole, front_length] at grown
    rw [lines_eq]
    exact grown read (Block.no_use_below_insertion scanned) (filter_new_lines _ _ _)
  · have atEnd := le_antisymm (insertion_le scanned) (not_lt.mp inside)
    obtain ⟨init, last, lines_eq, new_eq⟩ := lines_insert_use_end plain unbroken atEnd
    have old : Block.texts document.lines = init.filter isUse ++ [last].filter isUse := by
      rw [Block.texts, List.take_of_length_le (by omega), lines_eq, List.filter_append]
    have new : (Block.texts (document.replaceAll
        [insertEdit name otherName block.declarations]).lines).Sublist ((document.replaceAll
          [insertEdit name otherName block.declarations]).lines.filter isUse) :=
      (List.take_sublist _ _).filter _
    have lineCount : document.lines.length = init.length + 1 := by simp [lines_eq]
    cases lastUse : block.declarations.lastUse with
    | none =>
        left
        have apart := blanks_above_eq_one lastUse (by omega)
        have uses_eq : (document.replaceAll
            [insertEdit name otherName block.declarations]).lines.filter isUse =
              init.filter isUse ++ [last].filter isUse ++ [lineFor name otherName] := by
          rw [new_eq, if_neg (by omega)]
          cases isUseLast : isUse last with
          | true => simp [List.filter_append, is_use_line_for, is_use_nil, isUseLast]
          | false => simp [List.filter_append, is_use_line_for, is_use_nil, isUseLast]
        rw [old, ← uses_eq]
        exact new
    | some number =>
        right
        obtain ⟨glued, number_eq⟩ := blanks_above_eq_zero lastUse
        obtain ⟨line, text, above, here, isUseLast⟩ :=
          Block.exists_use_of_last_use scanned lastUse
        have atLast : line = init.length := by omega
        rw [lines_eq, atLast, List.getElem?_concat_length] at here
        obtain rfl : last = text := Option.some.inj here
        have uses_eq : (document.replaceAll
            [insertEdit name otherName block.declarations]).lines.filter isUse =
              init.filter isUse ++ [last ++ lineFor name otherName] := by
          rw [new_eq, if_pos glued]
          simp [List.filter_append, is_use_append isUseLast, is_use_nil]
        refine ⟨init.filter isUse, last, ?_, ?_⟩
        · rw [old, List.filter_singleton, isUseLast]
          rfl
        · rw [← uses_eq]
          exact new

end Document
end PhpNames
