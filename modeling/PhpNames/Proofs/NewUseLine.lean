import PhpNames.Proofs.Scanning
import PhpNames.Proofs.WholeLines

/-!
Where a new `use` line comes to stand.

In a document that goes on below the insertion point, the new line and the empty lines around it
come between old lines. At the end of a document without a final line break they stand apart only if
an empty line comes first: a new statement right below the last one is written behind it, on its
line.
-/

namespace PhpNames

open Text

/-! ### The inserted lines -/

namespace InsertionPoint

def blanksAbove (found : Declarations) : Nat :=
  (of found).before.length

def blanksBelow (found : Declarations) : Nat :=
  (of found).after.length - 1

theorem before_eq (found : Declarations) :
    (of found).before = List.replicate (blanksAbove found) '\n' := by
  rcases (surroundings found).1 with empty | feed
  · simp [blanksAbove, empty]
  · simp [blanksAbove, feed]

theorem after_eq (found : Declarations) :
    (of found).after = '\n' :: List.replicate (blanksBelow found) '\n' := by
  rcases (surroundings found).2 with feed | feeds
  · simp [blanksBelow, feed]
  · simp [blanksBelow, feeds]

theorem blanks_le (found : Declarations) : blanksAbove found ≤ 1 ∧ blanksBelow found ≤ 1 := by
  have around := surroundings found
  constructor
  · rcases around.1 with empty | feed
    · simp [blanksAbove, empty]
    · simp [blanksAbove, feed]
  · rcases around.2 with feed | feeds
    · simp [blanksBelow, feed]
    · simp [blanksBelow, feeds]

theorem blanks_above_eq_zero {found : Declarations} {line : Nat}
    (last : found.lastUse = some line) : blanksAbove found = 0 ∧ (of found).line = line := by
  simp [blanksAbove, of, last]

/-- Without a `use` statement, what is put below a line starts with an empty one. -/
theorem blanks_above_eq_one {found : Declarations} (absent : found.lastUse = none)
    (below : (of found).line ≠ 0) : blanksAbove found = 1 := by
  unfold blanksAbove
  unfold of at below ⊢
  rw [absent] at below ⊢
  cases inNamespace : found.namespaceLine with
  | some line => rfl
  | none =>
      cases opened : found.openingTag with
      | some line => rfl
      | none => simp [inNamespace, opened] at below

end InsertionPoint

namespace UseStatement

open InsertionPoint

variable {name : Text} {otherName : Option Text} {found : Declarations}

def newLines (name : Text) (otherName : Option Text) (found : Declarations) : List Text :=
  List.replicate (blanksAbove found) [] ++
    (lineFor name otherName :: List.replicate (blanksBelow found) [])

theorem insert_edit_eq (name : Text) (otherName : Option Text) (found : Declarations) :
    insertEdit name otherName found =
      Edit.insert ⟨(InsertionPoint.of found).line, 0⟩
        ((newLines name otherName found).map (· ++ ['\n'])).flatten := by
  simp [insertEdit, newLines, before_eq, after_eq]

theorem is_use_line_for (name : Text) (otherName : Option Text) :
    isUse (lineFor name otherName) = true := by
  apply List.isPrefixOf_iff_prefix.mpr
  cases otherName with
  | none => exact ⟨name ++ [';'], (List.append_assoc _ name [';']).symm⟩
  | some other =>
      refine ⟨name ++ (" as ".toList ++ (other ++ [';'])), ?_⟩
      rw [← List.append_assoc, ← List.append_assoc, ← List.append_assoc]
      rfl

theorem unbroken_line_for (nameUnbroken : Unbroken name)
    (otherUnbroken : ∀ other ∈ otherName, Unbroken other) :
    Unbroken (lineFor name otherName) := by
  have keyword : Unbroken "use ".toList := by decide
  have semicolon : Unbroken [';'] := by decide
  have named : Unbroken ("use ".toList ++ name) := unbroken_append.mpr ⟨keyword, nameUnbroken⟩
  cases otherName with
  | none => exact unbroken_append.mpr ⟨named, semicolon⟩
  | some other =>
      have link : Unbroken " as ".toList := by decide
      have linked := unbroken_append.mpr ⟨named, link⟩
      have aliased := unbroken_append.mpr ⟨linked, otherUnbroken other rfl⟩
      exact unbroken_append.mpr ⟨aliased, semicolon⟩

theorem unbroken_new_lines (unbroken : Unbroken (lineFor name otherName)) (found : Declarations) :
    ∀ line ∈ newLines name otherName found, Unbroken line := by
  intro line member
  rcases List.mem_append.mp member with above | below
  · rw [List.eq_of_mem_replicate above]
    simp [Unbroken]
  · rcases List.mem_cons.mp below with rfl | below
    · exact unbroken
    · rw [List.eq_of_mem_replicate below]
      simp [Unbroken]

end UseStatement

/-! ### The document with the inserted lines -/

namespace Document

open InsertionPoint UseStatement

variable {document : Document} {front bodies : List Text}

theorem length_lines (document : Document) : document.lines.length = document.rawLines.length := by
  simp [lines]

theorem terminated_line_feed (unbroken : ∀ body ∈ bodies, Unbroken body) :
    ∀ line ∈ bodies.map (· ++ ['\n']), Terminated line := by
  intro line member
  obtain ⟨body, inBodies, rfl⟩ := List.mem_map.mp member
  exact terminated_append (unbroken body inBodies) (Or.inl rfl)

theorem map_content_line_feed (unbroken : ∀ body ∈ bodies, Unbroken body) :
    (bodies.map (· ++ ['\n'])).map content = bodies := by
  have same : ∀ body ∈ bodies, (content ∘ (· ++ ['\n'])) body = id body := by
    intro body member
    exact content_line (unbroken body member) (Or.inl rfl)
  rw [List.map_map, List.map_congr_left same, List.map_id]

theorem Laid.exists_last {lines : List Text} (laid : Laid lines) :
    ∃ front last, lines = front ++ [last] ∧ (∀ line ∈ front, Terminated line) ∧
      Unbroken last := by
  induction laid with
  | @last body unbroken => exact ⟨[], body, rfl, by simp, unbroken⟩
  | @line first rest terminated _ induction =>
      obtain ⟨front, last, rfl, frontTerminated, unbroken⟩ := induction
      exact ⟨first :: front, last, rfl, List.forall_mem_cons.mpr ⟨terminated, frontTerminated⟩,
        unbroken⟩

/-- Below terminated lines come the new ones, and an empty last line. -/
theorem lines_terminated (terminated : ∀ line ∈ front, Terminated line) (bodies : List Text)
    (unbroken : ∀ body ∈ bodies, Unbroken body) :
    lines ⟨(front ++ bodies.map (· ++ ['\n'])).flatten⟩ = front.map content ++ bodies ++ [[]] := by
  have empty : Laid [([] : Text)] := .last (by simp [Unbroken])
  have laid := (empty.append (terminated_line_feed unbroken)).append terminated
  have raw := laid.raw_lines_flatten
  have same : (front ++ (bodies.map (· ++ ['\n']) ++ [[]])).flatten =
      (front ++ bodies.map (· ++ ['\n'])).flatten := by simp
  rw [same] at raw
  rw [lines, raw, List.map_append, List.map_append, map_content_line_feed unbroken,
    List.append_assoc]
  rfl

section Insertion

variable {name : Text} {otherName : Option Text} {found : Declarations}
  (plain : Plain document.text) (unbroken : Unbroken (lineFor name otherName))

include plain unbroken

theorem lines_insert_use (inside : (InsertionPoint.of found).line < document.lines.length) :
    (document.replaceAll [insertEdit name otherName found]).lines =
      document.lines.take (InsertionPoint.of found).line ++ (newLines name otherName found ++
        document.lines.drop (InsertionPoint.of found).line) := by
  have newUnbroken := unbroken_new_lines unbroken found
  change (document.replace (insertEdit name otherName found)).lines = _
  rw [length_lines] at inside
  rw [insert_edit_eq, lines, raw_lines_insert plain inside (terminated_line_feed newUnbroken),
    List.map_append, List.map_append, map_content_line_feed newUnbroken, List.map_take,
    List.map_drop, lines]

/-- Behind the last line, what is inserted is on a new line if it starts with an empty one. -/
theorem lines_insert_use_end (atEnd : (InsertionPoint.of found).line = document.lines.length) :
    ∃ init last, document.lines = init ++ [last] ∧
      (document.replaceAll [insertEdit name otherName found]).lines =
        init ++ (if blanksAbove found = 0 then [last ++ lineFor name otherName]
          else [last, lineFor name otherName]) ++
            List.replicate (blanksBelow found) [] ++ [[]] := by
  obtain ⟨front, last, raw, terminated, lastUnbroken⟩ := (laid_raw_lines plain).exists_last
  have lines_eq : document.lines = front.map content ++ [last] := by
    simp [lines, raw, content_unbroken lastUnbroken]
  refine ⟨front.map content, last, lines_eq, ?_⟩
  have blankUnbroken : ∀ line ∈ List.replicate (blanksBelow found) ([] : Text), Unbroken line := by
    intro line member
    rw [List.eq_of_mem_replicate member]
    simp [Unbroken]
  have new : document.replaceAll [insertEdit name otherName found] =
      ⟨(front ++ [last]).flatten ++
        ((newLines name otherName found).map (· ++ ['\n'])).flatten⟩ := by
    change document.replace (insertEdit name otherName found) = _
    rw [length_lines] at atEnd
    rw [insert_edit_eq, replace_insert, atEnd, List.take_length, List.drop_length, raw,
      List.flatten_nil, List.append_nil]
  have above := (blanks_le found).1
  by_cases glued : blanksAbove found = 0
  · have bodies := lines_terminated terminated
      ((last ++ lineFor name otherName) :: List.replicate (blanksBelow found) [])
      (List.forall_mem_cons.mpr ⟨unbroken_append.mpr ⟨lastUnbroken, unbroken⟩, blankUnbroken⟩)
    rw [new, if_pos glued]
    simpa [newLines, glued] using bodies
  · have one : blanksAbove found = 1 := by omega
    have bodies := lines_terminated terminated
      (last :: lineFor name otherName :: List.replicate (blanksBelow found) [])
      (List.forall_mem_cons.mpr ⟨lastUnbroken,
        List.forall_mem_cons.mpr ⟨unbroken, blankUnbroken⟩⟩)
    rw [new, if_neg glued]
    simpa [newLines, one] using bodies

theorem plain_insert_use :
    Plain (document.replaceAll [insertEdit name otherName found]).text := by
  have laid := laid_raw_lines plain
  have new := plain_terminated (terminated_line_feed (unbroken_new_lines unbroken found))
  change Plain (document.replace (insertEdit name otherName found)).text
  rw [insert_edit_eq, replace_insert]
  by_cases inside : (InsertionPoint.of found).line < document.rawLines.length
  · exact ((plain_terminated (laid.terminated_take inside)).append new).append
      (laid.drop inside).plain
  · rw [List.take_of_length_le (not_lt.mp inside), List.drop_of_length_le (not_lt.mp inside),
      flatten_raw_lines, List.flatten_nil, List.append_nil]
    exact plain.append new

end Insertion

variable {name : Text} {otherName : Option Text} {stop : Option Text} {block : Block}

theorem insertion_le (scanned : Block.scan document.lines stop = .ok block) :
    (InsertionPoint.of block.declarations).line ≤ document.lines.length := by
  obtain ⟨reached, records⟩ := Block.exists_records scanned
  rcases InsertionPoint.line_of block.declarations with top | below
  · omega
  · obtain ⟨line, body, line_eq, found, -⟩ := records.mentions _ below
    have inside := (List.getElem?_eq_some_iff.mp found).1
    omega

/-- Whether a document has the lines of another, in order, and a further one. -/
def AddsLine (document new : Document) (line : Text) : Prop :=
  ∃ front back, new.lines = front ++ line :: back ∧ document.lines.Sublist (front ++ back)

theorem adds_line_of_between {new : Document} {line : Text} {number above below : Nat}
    (lines_eq : new.lines = document.lines.take number ++
      (List.replicate above [] ++ line :: List.replicate below [] ++
        document.lines.drop number)) : document.AddsLine new line := by
  refine ⟨document.lines.take number ++ List.replicate above [],
    List.replicate below [] ++ document.lines.drop number, by simp [lines_eq], ?_⟩
  conv => left; rw [← List.take_append_drop number document.lines]
  apply List.Sublist.append
  · exact List.sublist_append_left _ _
  · exact List.sublist_append_right _ _

theorem not_adds_line_of_glued {new : Document} {init blanks : List Text} {last line : Text}
    (lines_eq : document.lines = init ++ [last]) (last_ne : last ≠ []) (line_ne : line ≠ [])
    (blank : ∀ other ∈ blanks, other = [])
    (new_eq : new.lines = init ++ (last ++ line) :: blanks) : ¬ document.AddsLine new line := by
  intro ⟨front, back, split, kept⟩
  -- the old last line occurs once less often than before
  have fewer : document.lines.count last ≤ new.lines.count last := by
    rw [split]
    apply (kept.count_le last).trans
    simp [List.count_cons]
  have notBlank : last ∉ blanks := fun member => last_ne (blank last member)
  have notGlued : last ++ line ≠ last := by simpa using line_ne
  rw [lines_eq, new_eq, List.count_append, List.count_append, List.count_cons_of_ne notGlued,
    List.count_eq_zero.mpr notBlank, List.count_singleton_self] at fewer
  omega

theorem line_for_ne_nil (name : Text) (otherName : Option Text) : lineFor name otherName ≠ [] := by
  cases otherName with
  | none => exact List.append_ne_nil_of_right_ne_nil _ (List.cons_ne_nil _ _)
  | some other => exact List.append_ne_nil_of_right_ne_nil _ (List.cons_ne_nil _ _)

/-- A new `use` line gets a line of its own, and all old lines are kept, unless the last statement
stands on the last line. -/
theorem insert_edit_line_of_its_own (document : Document) (name : Text)
    (otherName stop : Option Text) (block : Block) (plain : Plain document.text)
    (nameUnbroken : Unbroken name)
    (otherUnbroken : ∀ other ∈ otherName, Unbroken other)
    (scanned : Block.scan document.lines stop = .ok block) :
    document.AddsLine (document.replaceAll [insertEdit name otherName block.declarations])
        (lineFor name otherName) ↔
      block.declarations.lastUse ≠ some document.lineCount := by
  have unbroken := unbroken_line_for nameUnbroken otherUnbroken
  have count_eq : document.lineCount = document.lines.length := (length_lines document).symm
  rw [count_eq]
  constructor
  · intro adds last
    obtain ⟨above, line_eq⟩ := blanks_above_eq_zero last
    obtain ⟨init, lastLine, lines_eq, new_eq⟩ := lines_insert_use_end plain unbroken line_eq
    obtain ⟨reached, records⟩ := Block.exists_records scanned
    obtain ⟨line, body, number_eq, found, body_ne⟩ :=
      records.mentions document.lines.length (by simp [Declarations.Mentions, last])
    have lastLine_ne : lastLine ≠ [] := by
      have atLast : line = init.length := by
        rw [lines_eq, List.length_append, List.length_singleton] at number_eq
        omega
      rw [lines_eq, atLast, List.getElem?_concat_length] at found
      rw [Option.some.inj found]
      exact body_ne
    apply not_adds_line_of_glued lines_eq lastLine_ne (line_for_ne_nil name otherName) _ _ adds
    · exact List.replicate (blanksBelow block.declarations) [] ++ [[]]
    · intro other member
      rcases List.mem_append.mp member with blank | final
      · exact List.eq_of_mem_replicate blank
      · exact List.mem_singleton.mp final
    · rw [new_eq, if_pos above]
      simp
  · intro notLast
    by_cases inside : (InsertionPoint.of block.declarations).line < document.lines.length
    · exact adds_line_of_between (lines_insert_use plain unbroken inside)
    · have atEnd : (InsertionPoint.of block.declarations).line = document.lines.length :=
        le_antisymm (insertion_le scanned) (not_lt.mp inside)
      obtain ⟨init, lastLine, lines_eq, new_eq⟩ := lines_insert_use_end plain unbroken atEnd
      have absent : block.declarations.lastUse = none := by
        cases last : block.declarations.lastUse with
        | none => rfl
        | some line =>
            rw [(blanks_above_eq_zero last).2] at atEnd
            rw [atEnd] at last
            exact absurd last notLast
      have below : (InsertionPoint.of block.declarations).line ≠ 0 := by
        rw [atEnd, lines_eq, List.length_append, List.length_singleton]
        omega
      have above := blanks_above_eq_one absent below
      refine ⟨document.lines, List.replicate (blanksBelow block.declarations) [] ++ [[]], ?_,
        List.sublist_append_left _ _⟩
      rw [new_eq, if_neg (by omega), lines_eq]
      simp

theorem insert_edit_line_of_its_own_after_namespace :
    Document.AddsLine ⟨"<?php\r\nnamespace App;".toList⟩
      ⟨"<?php\r\nnamespace App;\nuse C\\D as E;\n".toList⟩ "use C\\D as E;".toList :=
  (insert_edit_line_of_its_own ⟨"<?php\r\nnamespace App;".toList⟩ "C\\D".toList
    (some "E".toList) none ⟨[], ⟨some 1, none, some 2, none, none⟩⟩ (by decide) (by decide)
    (by decide) (by decide)).mpr (by decide)

/-- Without a line break behind the last statement, the new one is written onto its line. -/
theorem insert_edit_behind_last_use :
    Block.scan (Document.mk "<?php\nuse A\\B;".toList).lines none =
        .ok ⟨[⟨"use A\\B;".toList, 1⟩], ⟨some 1, none, none, some 2, none⟩⟩ ∧
      ((Document.mk "<?php\nuse A\\B;".toList).replaceAll
          [insertEdit "C\\D".toList none ⟨some 1, none, none, some 2, none⟩]).lines =
        ["<?php".toList, "use A\\B;use C\\D;".toList, []] ∧
      ¬ (Document.mk "<?php\nuse A\\B;".toList).AddsLine
        ((Document.mk "<?php\nuse A\\B;".toList).replaceAll
          [insertEdit "C\\D".toList none ⟨some 1, none, none, some 2, none⟩])
        (lineFor "C\\D".toList none) := by
  have lines_eq : ((Document.mk "<?php\nuse A\\B;".toList).replaceAll
      [insertEdit "C\\D".toList none ⟨some 1, none, none, some 2, none⟩]).lines =
        ["<?php".toList, "use A\\B;use C\\D;".toList, []] := by decide
  refine ⟨by decide, lines_eq, ?_⟩
  intro ⟨front, back, split, _⟩
  have member : lineFor "C\\D".toList none ∈ ["<?php".toList, "use A\\B;use C\\D;".toList, []] := by
    rw [← lines_eq, split]
    exact List.mem_append_right _ List.mem_cons_self
  exact absurd member (by decide)

end Document
end PhpNames
