import PhpNames.Proofs.FreeImport

/-!
Documents that differ in the order of their `use` statements only.

A new statement goes below such documents' statements at the same place, and with the same empty
lines. Sorting does not lead out of them, and makes them equal if no two statements are ties. So
what two rounds of adding and sorting leave is what two additions and one sorting leave.
-/

namespace PhpNames

open Text Commands

/-! ### Lines without their statements -/

namespace UseStatement

def frame (line : Text) : Option Text :=
  Option.guard (!isUse ·) line

theorem frame_of_is_use {line : Text} (use : isUse line = true) : frame line = none := by
  simp [frame, Option.guard, use]

theorem frame_of_not_is_use {line : Text} (other : isUse line = false) :
    frame line = some line := by
  simp [frame, Option.guard, other]

theorem kind_of_frame (line : Text) :
    LineKind.of line = (frame line).elim .useStatement LineKind.of := by
  cases use : isUse line with
  | true =>
      rw [frame_of_is_use use, LineKind.of_eq_use_statement.mpr use]
      rfl
  | false =>
      rw [frame_of_not_is_use use]
      rfl

/-- The statements and the other lines determine lines. -/
theorem eq_of_frames {left right : List Text} (frames : left.map frame = right.map frame)
    (uses : left.filter isUse = right.filter isUse) : left = right := by
  induction left generalizing right with
  | nil => exact (List.map_eq_nil_iff.mp frames.symm).symm
  | cons line left induction =>
      cases right with
      | nil => cases frames
      | cons other right =>
          obtain ⟨frame_eq, rest_eq⟩ := List.cons.inj frames
          cases lineUse : isUse line with
          | true =>
              have otherUse : isUse other = true := by
                by_contra notUse
                have kept : isUse other = false := by simpa using notUse
                rw [frame_of_is_use lineUse, frame_of_not_is_use kept] at frame_eq
                cases frame_eq
              rw [List.filter_cons, if_pos lineUse, List.filter_cons, if_pos otherUse] at uses
              obtain ⟨line_eq, uses_eq⟩ := List.cons.inj uses
              rw [line_eq, induction rest_eq uses_eq]
          | false =>
              have otherUse : isUse other = false := by
                by_contra use
                rw [frame_of_not_is_use lineUse, frame_of_is_use (by simpa using use)] at frame_eq
                cases frame_eq
              rw [frame_of_not_is_use lineUse, frame_of_not_is_use otherUse] at frame_eq
              rw [List.filter_cons, if_neg (by simp [lineUse]), List.filter_cons,
                if_neg (by simp [otherUse])] at uses
              rw [Option.some.inj frame_eq, induction rest_eq uses]

end UseStatement

theorem SortPolicy.sort_texts_eq_of_perm (policy : SortPolicy) {left right : List Text}
    (perm : left.Perm right)
    (noTies : ∀ upper ∈ left, ∀ lower ∈ left, policy.order upper lower = .eq → upper = lower) :
    policy.sortTexts left = policy.sortTexts right := by
  have sorted := ((policy.sort_texts_perm left).trans perm).trans
    (policy.sort_texts_perm right).symm
  apply List.Perm.eq_of_pairwise _ (policy.sort_texts_pairwise left)
    (policy.sort_texts_pairwise right) sorted
  intro upper lower inLeft inRight below above
  have upperMember := (policy.sort_texts_perm left).mem_iff.mp inLeft
  have lowerMember := perm.mem_iff.mpr ((policy.sort_texts_perm right).mem_iff.mp inRight)
  apply noTies upper upperMember lower lowerMember
  exact Std.OrientedCmp.isLE_antisymm below above

theorem Declarations.not_is_complete_of_no_type {lines : List Text}
    (noType : ∀ line ∈ lines, LineKind.of line ≠ .typeDeclaration) :
    (shownBy lines).isComplete = false := by
  by_contra complete
  rw [Bool.not_eq_false, ← shows_each_iff] at complete
  obtain ⟨line, member, shown⟩ := complete .typeDeclaration
  rw [Construct.shown_by_iff] at shown
  apply noType line member
  cases kind : LineKind.of line <;> simp_all [LineKind.shows]

theorem Block.last_use_eq {lines : List Text} {stop : Option Text} {block : Block} {number : Nat}
    {text : Text} (scanned : scan lines stop = .ok block) (here : lines[number]? = some text)
    (use : UseStatement.isUse text = true) (read : number < window lines)
    (below : ((lines.take (window lines)).drop (number + 1)).filter UseStatement.isUse = []) :
    block.declarations.lastUse = some (number + 1) := by
  have member : ⟨text, number⟩ ∈ block.uses := by
    rw [eq_shown_by_of_scan scanned]
    exact mem_uses_shown_by.mpr ⟨by rw [List.getElem?_take_of_lt read, here], use⟩
  obtain ⟨last, last_use_eq, above⟩ := line_lt_last_use scanned member
  obtain ⟨line, lastText, last_eq, lastHere, lastUse⟩ := exists_use_of_last_use scanned last_use_eq
  have inside := last_use_le_window scanned last_use_eq
  rcases Nat.lt_or_ge number line with lower | same
  · have among : lastText ∈ (lines.take (window lines)).drop (number + 1) := by
      apply List.mem_iff_getElem?.mpr
      refine ⟨line - (number + 1), ?_⟩
      rw [List.getElem?_drop, Nat.add_sub_cancel' lower, List.getElem?_take_of_lt (by omega),
        lastHere]
    exact absurd lastUse (List.filter_eq_nil_iff.mp below lastText among)
  · have statement_above : number < last := above
    rw [last_use_eq]
    congr 1
    omega

/-! ### Blocks up to order -/

namespace Document

open UseStatement InsertionPoint

/-- Documents that differ, if at all, in the order of the `use` statements on their first lines. -/
structure Alike (number : Nat) (left right : Document) : Prop where
  endings : left.rawLines.map ending = right.rawLines.map ending
  front : (left.lines.take number).map frame = (right.lines.take number).map frame
  uses : ((left.lines.take number).filter isUse).Perm ((right.lines.take number).filter isUse)
  back : left.lines.drop number = right.lines.drop number

variable {document left right third : Document} {number : Nat} {name : Text}

theorem Alike.refl (number : Nat) (document : Document) : Alike number document document :=
  ⟨rfl, rfl, .refl _, rfl⟩

theorem Alike.symm (alike : Alike number left right) : Alike number right left :=
  ⟨alike.endings.symm, alike.front.symm, alike.uses.symm, alike.back.symm⟩

theorem Alike.trans (first : Alike number left right) (second : Alike number right third) :
    Alike number left third :=
  ⟨first.endings.trans second.endings, first.front.trans second.front,
    first.uses.trans second.uses, first.back.trans second.back⟩

theorem Alike.kinds (alike : Alike number left right) :
    left.lines.map LineKind.of = right.lines.map LineKind.of := by
  have read (lines : List Text) : lines.map LineKind.of =
      (lines.map frame).map (Option.elim · .useStatement LineKind.of) := by
    rw [List.map_map]
    exact List.map_congr_left fun line _ => kind_of_frame line
  rw [← List.take_append_drop number left.lines, ← List.take_append_drop number right.lines,
    List.map_append, List.map_append, read, read (right.lines.take number), alike.front, alike.back]

theorem eq_of_lines (lines_eq : left.lines = right.lines)
    (endings_eq : left.rawLines.map ending = right.rawLines.map ending) : left = right := by
  have rebuilt (document : Document) : document.text =
      (List.zipWith (· ++ ·) document.lines (document.rawLines.map ending)).flatten := by
    rw [lines, List.zipWith_map, List.zipWith_self]
    have whole : document.rawLines.map (fun line => content line ++ ending line) =
        document.rawLines := by
      rw [List.map_congr_left fun line _ => content_append_ending line, List.map_id']
    rw [whole, flatten_raw_lines]
  have texts_eq : left.text = right.text := by
    rw [rebuilt left, rebuilt right, lines_eq, endings_eq]
  cases left
  cases right
  exact congrArg Document.mk texts_eq

theorem Alike.eq (alike : Alike number left right)
    (uses_eq : (left.lines.take number).filter isUse = (right.lines.take number).filter isUse) :
    left = right := by
  apply eq_of_lines _ alike.endings
  rw [← List.take_append_drop number left.lines, eq_of_frames alike.front uses_eq, alike.back,
    List.take_append_drop]

/-- The `use` lines that a scan comes across are the same. -/
theorem Alike.mem_reach (alike : Alike number left right)
    (read : number ≤ Block.window left.lines) {line : Text} (use : isUse line = true)
    (found : line ∈ left.lines.take (Block.window left.lines + 1)) :
    line ∈ right.lines.take (Block.window right.lines + 1) := by
  obtain ⟨count, reach_eq⟩ : ∃ count, Block.window left.lines + 1 = number + count :=
    Nat.exists_eq_add_of_le (Nat.le_succ_of_le read)
  rw [← Block.window_congr alike.kinds]
  rw [reach_eq, List.take_add, List.mem_append] at found ⊢
  rw [← alike.back]
  apply found.imp_left
  intro above
  exact (List.mem_filter.mp (alike.uses.mem_iff.mp (List.mem_filter.mpr ⟨above, use⟩))).1

/-! ### New statements -/

theorem length_new_lines (name : Text) (found : Declarations) :
    (newLines name none found).length = blanksAbove found + (blanksBelow found + 1) := by
  simp [newLines]

/-- A document whose next new statement goes to a line of its own, above all type declarations. -/
structure TakesUseAt (document : Document) (number : Nat) : Prop where
  plain : Plain document.text
  place : (InsertionPoint.of document.declarations).line = number
  inside : number < document.lines.length
  noType : ∀ line ∈ document.lines.take number, LineKind.of line ≠ .typeDeclaration

theorem TakesUseAt.congr (takes : right.TakesUseAt number)
    (kinds_eq : left.lines.map LineKind.of = right.lines.map LineKind.of)
    (plain : Plain left.text) : left.TakesUseAt number where
  plain := plain
  place := by rw [declarations_congr kinds_eq, takes.place]
  inside := by
    have length_eq := congrArg List.length kinds_eq
    rw [List.length_map, List.length_map] at length_eq
    rw [length_eq]
    exact takes.inside
  noType := by
    intro line member isType
    have shown : LineKind.of line ∈ (left.lines.take number).map LineKind.of :=
      List.mem_map_of_mem member
    rw [List.map_take, kinds_eq, ← List.map_take, List.mem_map] at shown
    obtain ⟨other, otherMember, kind_eq⟩ := shown
    exact takes.noType other otherMember (kind_eq.trans isType)

section Takes

variable (takes : document.TakesUseAt number)

include takes

theorem TakesUseAt.le_window : number ≤ Block.window document.lines := by
  have read := insertion_le_window (Block.scan_none document.lines)
  rwa [declarations_of_scan (Block.scan_none document.lines), takes.place] at read

theorem TakesUseAt.no_use_below :
    ((document.lines.take (Block.window document.lines)).drop number).filter isUse = [] := by
  have below := Block.no_use_below_insertion (Block.scan_none document.lines)
  rwa [declarations_of_scan (Block.scan_none document.lines), takes.place] at below

theorem TakesUseAt.texts_eq :
    Block.texts document.lines = (document.lines.take number).filter isUse := by
  have split := List.take_append_drop number
    (document.lines.take (Block.window document.lines))
  rw [Block.texts, ← split, List.filter_append, takes.no_use_below, List.append_nil,
    List.take_take, Nat.min_eq_left takes.le_window]

variable (unbroken : Unbroken name)

include unbroken

theorem TakesUseAt.lines_with_use :
    (document.withUse name).lines = document.lines.take number ++
      (newLines name none document.declarations ++ document.lines.drop number) := by
  have lineUnbroken : Unbroken (lineFor name none) := unbroken_line_for unbroken (by simp)
  have new := @lines_insert_use document name none document.declarations takes.plain lineUnbroken
    (takes.place ▸ takes.inside)
  rwa [takes.place] at new

theorem TakesUseAt.endings_with_use :
    (document.withUse name).rawLines.map ending = (document.rawLines.map ending).take number ++
      (List.replicate (newLines name none document.declarations).length ['\n'] ++
        (document.rawLines.map ending).drop number) := by
  have newUnbroken := unbroken_new_lines (unbroken_line_for unbroken (by simp : ∀ other ∈ none, _))
    document.declarations
  have inside : number < document.rawLines.length := length_lines document ▸ takes.inside
  have endings : ((newLines name none document.declarations).map (· ++ ['\n'])).map ending =
      List.replicate (newLines name none document.declarations).length ['\n'] := by
    rw [List.map_map, ← List.map_const']
    apply List.map_congr_left
    intro line member
    exact ending_append (newUnbroken line member) (Or.inr (Or.inl rfl))
  change (document.replace (insertEdit name none document.declarations)).rawLines.map ending = _
  rw [insert_edit_eq, takes.place,
    raw_lines_insert takes.plain inside (terminated_line_feed newUnbroken), List.map_append,
    List.map_append, endings, List.map_take, List.map_drop]

theorem TakesUseAt.split_with_use :
    (document.withUse name).lines =
      (document.lines.take number ++
        (List.replicate (blanksAbove document.declarations) [] ++ [importing name])) ++
      (List.replicate (blanksBelow document.declarations) [] ++ document.lines.drop number) := by
  rw [takes.lines_with_use unbroken, newLines, lineFor]
  simp only [List.append_assoc, List.cons_append, List.nil_append]

theorem TakesUseAt.take_with_use :
    (document.withUse name).lines.take (number + (blanksAbove document.declarations + 1)) =
      document.lines.take number ++
        (List.replicate (blanksAbove document.declarations) [] ++ [importing name]) := by
  rw [takes.split_with_use unbroken]
  apply List.take_left'
  simp [takes.inside.le]

theorem TakesUseAt.drop_with_use :
    (document.withUse name).lines.drop (number + (blanksAbove document.declarations + 1)) =
      List.replicate (blanksBelow document.declarations) [] ++ document.lines.drop number := by
  rw [takes.split_with_use unbroken]
  apply List.drop_left'
  simp [takes.inside.le]

theorem TakesUseAt.plain_with_use : Plain (document.withUse name).text :=
  plain_insert_use takes.plain (unbroken_line_for unbroken (by simp))

theorem TakesUseAt.window_with_use_le :
    Block.window (document.withUse name).lines ≤
      Block.window document.lines + (newLines name none document.declarations).length := by
  have whole := List.take_append_drop number document.lines
  have front_length : (document.lines.take number).length = number :=
    List.length_take_of_le takes.inside.le
  have grown := @Block.window_insert_le (document.lines.take number) (document.lines.drop number)
    (newLines name none document.declarations)
  rw [whole, front_length] at grown
  rw [takes.lines_with_use unbroken]
  exact grown takes.le_window

theorem TakesUseAt.no_type_with_use :
    ∀ line ∈ (document.withUse name).lines.take (number + (blanksAbove document.declarations + 1)),
      LineKind.of line ≠ .typeDeclaration := by
  intro line member
  rw [takes.take_with_use unbroken, List.mem_append, List.mem_append, List.mem_singleton] at member
  rcases member with old | blank | rfl
  · exact takes.noType line old
  · rw [List.eq_of_mem_replicate blank]
    decide
  · rw [LineKind.of_eq_use_statement.mpr (is_use_importing name)]
    decide

/-- The new line is read, because no type declaration stands above it. -/
theorem TakesUseAt.lt_window_with_use :
    number + blanksAbove document.declarations < Block.window (document.withUse name).lines := by
  have inside : number + blanksAbove document.declarations <
      (document.withUse name).lines.length := by
    rw [takes.split_with_use unbroken]
    simp [takes.inside.le]
  apply (Block.lt_window_iff inside).mpr
  apply Declarations.not_is_complete_of_no_type
  intro line member
  exact takes.no_type_with_use unbroken line (List.take_subset_take_left _ (by omega) member)

theorem TakesUseAt.no_use_below_with_use :
    (((document.withUse name).lines.take (Block.window (document.withUse name).lines)).drop
      (number + (blanksAbove document.declarations + 1))).filter isUse = [] := by
  have shorter := takes.window_with_use_le unbroken
  have length_eq := length_new_lines name document.declarations
  apply List.filter_eq_nil_iff.mpr
  intro line member
  rw [List.drop_take, takes.drop_with_use unbroken] at member
  -- the scan reads at most the new lines more than before, and there is nothing to find below them
  have further := List.take_subset_take_left
    (List.replicate (blanksBelow document.declarations) [] ++ document.lines.drop number)
    (by omega : _ ≤ blanksBelow document.declarations + (Block.window document.lines - number))
    member
  rw [List.take_append, List.length_replicate, Nat.add_sub_cancel_left, List.mem_append,
    ← List.drop_take] at further
  rcases further with blank | old
  · rw [List.eq_of_mem_replicate (List.mem_of_mem_take blank), is_use_nil]
    decide
  · exact List.filter_eq_nil_iff.mp takes.no_use_below line old

theorem TakesUseAt.with_use :
    (document.withUse name).TakesUseAt (number + (blanksAbove document.declarations + 1)) where
  plain := takes.plain_with_use unbroken
  place := by
    have scanned := Block.scan_none (document.withUse name).lines
    have read := takes.lt_window_with_use unbroken
    have here : (document.withUse name).lines[number + blanksAbove document.declarations]? =
        some (importing name) := by
      have front_length : (document.lines.take number ++
          List.replicate (blanksAbove document.declarations) []).length =
            number + blanksAbove document.declarations := by simp [takes.inside.le]
      rw [takes.split_with_use unbroken, ← List.append_assoc (document.lines.take number),
        List.append_assoc (_ ++ _), ← front_length, List.getElem?_append_right (Nat.le_refl _),
        Nat.sub_self]
      rfl
    have last := Block.last_use_eq scanned here (is_use_importing name) read
      (takes.no_use_below_with_use unbroken)
    rw [declarations_of_scan scanned] at last
    exact (blanks_above_eq_zero last).2
  inside := by
    have below := takes.inside
    rw [takes.split_with_use unbroken]
    simp [takes.inside.le]
    omega
  noType := takes.no_type_with_use unbroken

theorem TakesUseAt.texts_with_use :
    Block.texts (document.withUse name).lines = Block.texts document.lines ++ [importing name] := by
  rw [(takes.with_use unbroken).texts_eq, takes.take_with_use unbroken, takes.texts_eq,
    List.filter_append, List.filter_append, List.filter_replicate, if_neg (by simp [is_use_nil]),
    List.nil_append, List.filter_singleton, is_use_importing]
  rfl

/-- What a scan comes across is the new statement, or what it has come across before. -/
theorem TakesUseAt.mem_reach_with_use {line : Text} (use : isUse line = true)
    (found : line ∈ (document.withUse name).lines.take
      (Block.window (document.withUse name).lines + 1)) :
    line = importing name ∨ line ∈ document.lines.take (Block.window document.lines + 1) := by
  have shorter := takes.window_with_use_le unbroken
  have read := takes.le_window
  have front_length : (document.lines.take number).length = number :=
    List.length_take_of_le takes.inside.le
  have whole : document.lines.take (Block.window document.lines + 1) = document.lines.take number ++
      (document.lines.drop number).take (Block.window document.lines + 1 - number) := by
    rw [← List.take_add, Nat.add_sub_cancel' (by omega)]
  have further := List.take_subset_take_left (document.withUse name).lines
    (by omega : _ ≤ number + (Block.window document.lines + 1 - number) +
      (newLines name none document.declarations).length) found
  have taken := Block.take_insert (document.lines.take number)
    (newLines name none document.declarations) (document.lines.drop number)
    (Block.window document.lines + 1 - number)
  rw [front_length] at taken
  rw [takes.lines_with_use unbroken, taken, List.mem_append, List.mem_append] at further
  rw [whole, List.mem_append]
  rcases further with above | new | below
  · exact Or.inr (Or.inl above)
  · left
    have filtered := List.mem_filter.mpr ⟨new, use⟩
    rw [filter_new_lines] at filtered
    exact List.mem_singleton.mp filtered
  · exact Or.inr (Or.inr below)

end Takes

theorem Alike.with_use (alike : Alike number left right) (takesLeft : left.TakesUseAt number)
    (takesRight : right.TakesUseAt number) (unbroken : Unbroken name) :
    Alike (number + (blanksAbove right.declarations + 1)) (left.withUse name)
      (right.withUse name) := by
  have same := declarations_congr alike.kinds
  have above := takesLeft.take_with_use unbroken
  have below := takesLeft.drop_with_use unbroken
  rw [same] at above below
  constructor
  · rw [takesLeft.endings_with_use unbroken, takesRight.endings_with_use unbroken, same,
      alike.endings]
  · rw [above, takesRight.take_with_use unbroken, List.map_append, alike.front, ← List.map_append]
  · rw [above, takesRight.take_with_use unbroken, List.filter_append,
      List.filter_append (right.lines.take number)]
    exact alike.uses.append_right _
  · rw [below, takesRight.drop_with_use unbroken, alike.back]

section Swap

variable {first second : Text} (takes : document.TakesUseAt number) (unbrokenFirst : Unbroken first)
  (unbrokenSecond : Unbroken second)

include takes unbrokenFirst unbrokenSecond

theorem TakesUseAt.kinds_with_use :
    (document.withUse first).lines.map LineKind.of =
      (document.withUse second).lines.map LineKind.of := by
  have kind_eq (name : Text) : LineKind.of (importing name) = .useStatement :=
    LineKind.of_eq_use_statement.mpr (is_use_importing name)
  rw [takes.split_with_use unbrokenFirst, takes.split_with_use unbrokenSecond]
  simp only [List.map_append, List.map_singleton, kind_eq]

theorem TakesUseAt.alike_swap :
    Alike (number + (blanksAbove document.declarations + 1) +
        (blanksAbove (document.withUse second).declarations + 1))
      ((document.withUse first).withUse second) ((document.withUse second).withUse first) := by
  have same := declarations_congr (takes.kinds_with_use unbrokenFirst unbrokenSecond)
  have takesFirst := takes.with_use unbrokenFirst
  have takesSecond := takes.with_use unbrokenSecond
  have above := takesFirst.take_with_use unbrokenSecond
  have below := takesFirst.drop_with_use unbrokenSecond
  rw [same] at above below
  have hidden (name : Text) : frame (importing name) = none :=
    frame_of_is_use (is_use_importing name)
  constructor
  · rw [takesFirst.endings_with_use unbrokenSecond, takesSecond.endings_with_use unbrokenFirst,
      takes.endings_with_use unbrokenFirst, takes.endings_with_use unbrokenSecond, same]
    simp only [length_new_lines]
  · rw [above, takesSecond.take_with_use unbrokenFirst, takes.take_with_use unbrokenFirst,
      takes.take_with_use unbrokenSecond]
    simp only [List.map_append, List.map_singleton, hidden]
  · rw [above, takesSecond.take_with_use unbrokenFirst, takes.take_with_use unbrokenFirst,
      takes.take_with_use unbrokenSecond]
    simp only [List.filter_append, List.filter_replicate, is_use_nil, List.filter_singleton,
      is_use_importing, List.append_assoc]
    apply List.Perm.append_left
    exact List.Perm.swap _ _ _
  · rw [below, takesSecond.drop_with_use unbrokenFirst, takes.drop_with_use unbrokenFirst,
      takes.drop_with_use unbrokenSecond]

end Swap

/-! ### Sorting -/

def sorted (document : Document) (policy : SortPolicy) : Document :=
  (document.sortBatch? policy).elim document document.replaceAll

theorem sorted_cases {block : Block} (scanned : Block.scan document.lines none = .ok block)
    (policy : SortPolicy) :
    (block.uses.length < 2 ∧ document.sorted policy = document) ∨
      ∃ sorted, UseStatement.sort policy block.uses = .ok sorted ∧
        document.sorted policy = document.resorted block.uses sorted := by
  unfold Document.sorted sortBatch?
  rw [scanned]
  dsimp only
  cases result : UseStatement.sort policy block.uses with
  | error reason =>
      left
      exact ⟨(UseStatement.sort_error result).2, rfl⟩
  | ok sorted =>
      right
      refine ⟨sorted, rfl, ?_⟩
      by_cases same : sorted = block.uses
      · simp [resorted, same]
      · simp [resorted, same]

variable (policy : SortPolicy)

theorem texts_sorted (plain : Plain document.text) :
    Block.texts (document.sorted policy).lines = policy.sortTexts (Block.texts document.lines) := by
  have scanned := Block.scan_none document.lines
  have texts_eq := Block.map_text_of_scan scanned
  rcases sorted_cases scanned policy with ⟨few, unchanged⟩ | ⟨sorted, result, sorted_eq⟩
  · rw [unchanged, Block.texts, ← texts_eq]
    symm
    apply policy.sort_texts_eq_self
    apply List.pairwise_iff_getElem.mpr
    intro upper lower _ inside above
    rw [List.length_map] at inside
    omega
  · have resorted := Block.map_text_of_scan (scan_resorted plain scanned result)
    rw [sorted_eq, Block.texts, ← resorted, map_text_of_sort result, Block.texts, texts_eq]

theorem kinds_sorted (plain : Plain document.text) :
    (document.sorted policy).lines.map LineKind.of = document.lines.map LineKind.of := by
  have scanned := Block.scan_none document.lines
  rcases sorted_cases scanned policy with ⟨-, unchanged⟩ | ⟨sorted, result, sorted_eq⟩
  · rw [unchanged]
  · rw [sorted_eq, kinds_resorted plain scanned result]

theorem TakesUseAt.sorted (takes : document.TakesUseAt number) :
    (document.sorted policy).TakesUseAt number := by
  apply takes.congr (kinds_sorted policy takes.plain)
  have scanned := Block.scan_none document.lines
  rcases sorted_cases scanned policy with ⟨-, unchanged⟩ | ⟨sorted, result, sorted_eq⟩
  · rw [unchanged]
    exact takes.plain
  · rw [sorted_eq]
    exact (rewrites_resorted takes.plain scanned result).plain

theorem TakesUseAt.alike_sorted (takes : document.TakesUseAt number) :
    Alike number (document.sorted policy) document := by
  have uses : (((document.sorted policy).lines.take number).filter isUse).Perm
      ((document.lines.take number).filter isUse) := by
    rw [← (takes.sorted policy).texts_eq, ← takes.texts_eq, texts_sorted policy takes.plain]
    exact policy.sort_texts_perm _
  have scanned := Block.scan_none document.lines
  rcases sorted_cases scanned policy with ⟨-, unchanged⟩ | ⟨sorted, result, sorted_eq⟩
  · rw [unchanged]
    exact .refl number document
  · rw [sorted_eq] at uses ⊢
    refine ⟨(rewrites_resorted takes.plain scanned result).endings, ?_, uses, ?_⟩
    · rw [List.map_take,
        map_resorted takes.plain scanned result frame none fun _ => frame_of_is_use,
        ← List.map_take]
    · apply List.ext_getElem?
      intro below
      rw [List.getElem?_drop, List.getElem?_drop]
      apply line?_resorted_elsewhere takes.plain scanned result
      intro statement member
      obtain ⟨last, last_use_eq, above⟩ := Block.line_lt_last_use scanned member
      rw [declarations_of_scan scanned] at last_use_eq
      have place := takes.place
      rw [(blanks_above_eq_zero last_use_eq).2] at place
      omega

/-- Sorting forgets the order that the statements had. -/
theorem Alike.sorted_eq (alike : Alike number left right) (takesLeft : left.TakesUseAt number)
    (takesRight : right.TakesUseAt number)
    (noTies : ∀ upper ∈ Block.texts left.lines, ∀ lower ∈ Block.texts left.lines,
      policy.order upper lower = .eq → upper = lower) :
    left.sorted policy = right.sorted policy := by
  have perm := alike.uses
  rw [← takesLeft.texts_eq, ← takesRight.texts_eq] at perm
  have sortedAlike := ((takesLeft.alike_sorted policy).trans alike).trans
    (takesRight.alike_sorted policy).symm
  apply sortedAlike.eq
  rw [← (takesLeft.sorted policy).texts_eq, ← (takesRight.sorted policy).texts_eq,
    texts_sorted policy takesLeft.plain, texts_sorted policy takesRight.plain]
  exact policy.sort_texts_eq_of_perm perm noTies

end Document
end PhpNames
