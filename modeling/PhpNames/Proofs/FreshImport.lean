import PhpNames.Proofs.ImportRuns
import PhpNames.Proofs.NewUseLine
import PhpNames.Proofs.SortedBlock

/-!
An import adds one line, and adds it once.

The new line stands where a scan of the new document still looks: either among the lines that it
reads or directly behind them. Sorting exchanges statements only among the lines that a scan reads,
so the class is found imported afterwards, whether its line has been moved or not.
-/

namespace PhpNames

open Text Commands

/-! ### Where a scan looks -/

namespace Block

variable {lines : List Text} {stop : Option Text} {block : Block}

theorem line_lt_window (scanned : scan lines stop = .ok block) {statement : UseStatement}
    (member : statement ∈ block.uses) : statement.line < window lines := by
  rw [eq_shown_by_of_scan scanned, mem_uses_shown_by, List.getElem?_take] at member
  by_contra beyond
  rw [if_neg beyond] at member
  cases member.1

theorem filter_is_use (scanned : scan lines stop = .ok block) :
    lines.filter UseStatement.isUse =
      block.uses.map (·.text) ++ (lines.drop (window lines)).filter UseStatement.isUse := by
  rw [map_text_of_scan scanned, ← List.filter_append, List.take_append_drop]

/-- A scan that finds no `use` statement has read the whole document. -/
theorem length_le_window (scanned : scan lines stop = .ok block)
    (absent : block.declarations.lastUse = none) : lines.length ≤ window lines := by
  by_contra inside
  have complete := is_complete_of_window_lt (not_le.mp inside)
  have block_eq := eq_shown_by_of_scan scanned
  have present : block.declarations.isComplete = true := by
    rw [block_eq]
    exact complete
  simp [Declarations.isComplete, absent] at present

theorem no_use_of_last_use (scanned : scan lines stop = .ok block)
    (absent : block.declarations.lastUse = none) :
    LineKind.useStatement ∉ lines.map LineKind.of := by
  have whole : lines.take (window lines) = lines :=
    List.take_of_length_le (length_le_window scanned absent)
  rw [eq_shown_by_of_scan scanned, whole] at absent
  exact (Declarations.last_use_note_all_eq_none.mp absent).2

theorem last_use_le_window (scanned : scan lines stop = .ok block) {last : Nat}
    (found : block.declarations.lastUse = some last) : last ≤ window lines := by
  have position := last_use_shown_by (lines.take (window lines))
  rw [← eq_shown_by_of_scan scanned, found] at position
  obtain ⟨statement, ending, line_eq⟩ := Option.map_eq_some_iff.mp position.symm
  rw [← line_eq]
  exact line_lt_window scanned (List.mem_of_getLast? ending)

end Block

/-! ### Sorting keeps lines -/

namespace Document

def otherLines (document : Document) : List Text :=
  document.lines.filter (!UseStatement.isUse ·)

section Resorted

variable {document : Document} {block : Block} {policy : SortPolicy} {sorted : List UseStatement}
  (plain : Plain document.text) (scanned : Block.scan document.lines none = .ok block)
  (result : UseStatement.sort policy block.uses = .ok sorted)

include plain scanned result

theorem other_lines_resorted :
    (document.resorted block.uses sorted).otherLines = document.otherLines := by
  have hidden := map_resorted plain scanned result (Option.guard (!UseStatement.isUse ·)) none
    (fun text isUse => by simp [Option.guard, isUse])
  have shown := congrArg (List.filterMap id) hidden
  rwa [List.filterMap_map, List.filterMap_map, Function.id_comp, List.filterMap_eq_filter] at shown

theorem drop_resorted :
    (document.resorted block.uses sorted).lines.drop (Block.window document.lines) =
      document.lines.drop (Block.window document.lines) := by
  apply List.ext_getElem?
  intro number
  rw [List.getElem?_drop, List.getElem?_drop]
  apply line?_resorted_elsewhere plain scanned result
  intro statement member
  have above := Block.line_lt_window scanned member
  omega

theorem window_resorted :
    Block.window (document.resorted block.uses sorted).lines = Block.window document.lines :=
  Block.window_congr (kinds_resorted plain scanned result)

theorem lines_perm_resorted :
    (document.resorted block.uses sorted).lines.Perm document.lines := by
  have uses : ((document.resorted block.uses sorted).lines.filter UseStatement.isUse).Perm
      (document.lines.filter UseStatement.isUse) := by
    rw [Block.filter_is_use (scan_resorted plain scanned result), Block.filter_is_use scanned,
      window_resorted plain scanned result, drop_resorted plain scanned result,
      UseStatement.map_text_of_sort result]
    exact (policy.sort_texts_perm _).append_right _
  have others := other_lines_resorted plain scanned result
  unfold otherLines at others
  have together := uses.append_right (document.lines.filter (!UseStatement.isUse ·))
  rw [← others] at together
  apply (List.filter_append_perm UseStatement.isUse _).symm.trans
  apply together.trans
  rw [others]
  exact List.filter_append_perm UseStatement.isUse _

/-- A `use` line that a scan comes across stays one that it comes across. -/
theorem mem_reach_resorted {text : Text} (isUse : UseStatement.isUse text = true)
    (found : text ∈ document.lines.take (Block.window document.lines + 1)) :
    text ∈ (document.resorted block.uses sorted).lines.take
      (Block.window (document.resorted block.uses sorted).lines + 1) := by
  rw [window_resorted plain scanned result]
  obtain ⟨number, here⟩ := List.mem_iff_getElem?.mp found
  rw [List.getElem?_take] at here
  split at here
  · rename_i reach
    apply List.mem_iff_getElem?.mpr
    by_cases read : number < Block.window document.lines
    · -- the line of a statement: its text now stands on the line of some statement
      have inside := (List.getElem?_eq_some_iff.mp here).1
      have member : (⟨text, number⟩ : UseStatement) ∈ block.uses :=
        (Block.mem_uses_of_scan scanned).mpr ⟨here, isUse, (Block.lt_window_iff inside).mp read⟩
      have inTexts : text ∈ sorted.map (·.text) := by
        rw [UseStatement.map_text_of_sort result, (policy.sort_texts_perm _).mem_iff]
        exact List.mem_map_of_mem member
      obtain ⟨target, inSorted, text_eq⟩ := List.mem_map.mp inTexts
      have inReach := Block.line_lt_window (scan_resorted plain scanned result) inSorted
      rw [window_resorted plain scanned result] at inReach
      refine ⟨target.line, ?_⟩
      rw [List.getElem?_take_of_lt (Nat.lt_succ_of_lt inReach), ← text_eq]
      exact line?_resorted plain scanned result inSorted
    · refine ⟨number, ?_⟩
      rw [List.getElem?_take_of_lt reach, ← here]
      apply line?_resorted_elsewhere plain scanned result
      intro statement member
      have above := Block.line_lt_window scanned member
      omega
  · cases here

end Resorted

end Document

/-! ### The new line -/

namespace UseStatement

theorem is_use_importing (name : Text) : isUse (importing name) = true :=
  is_use_line_for name none

theorem is_use_nil : isUse [] = false := rfl

end UseStatement

namespace InsertionPoint

theorem exists_construct (found : Declarations) :
    ∃ construct ∈ [found.lastUse, found.namespaceLine, found.openingTag],
      construct.getD 0 = (of found).line := by
  unfold of
  cases found.lastUse with
  | some line => exact ⟨some line, by simp, rfl⟩
  | none =>
      cases found.namespaceLine with
      | some line => exact ⟨some line, by simp, rfl⟩
      | none =>
          refine ⟨found.openingTag, by simp, ?_⟩
          cases found.openingTag with
          | some line => rfl
          | none => rfl

/-- A type declaration right below the new line is kept apart from it. -/
theorem blanks_below_ne_zero {found : Declarations}
    (first : found.firstType = some ((of found).line + 1)) : blanksBelow found ≠ 0 := by
  have crowded : isCrowded found = true := by
    obtain ⟨construct, member, line_eq⟩ := exists_construct found
    rw [isCrowded, first, Option.any_some]
    apply List.any_eq_true.mpr
    refine ⟨construct, member, ?_⟩
    rw [line_eq, decide_eq_true_eq]
  have after_eq : (of found).after = ['\n', '\n'] := by
    unfold of
    rw [crowded]
    cases found.lastUse <;> cases found.namespaceLine <;> cases found.openingTag <;> rfl
  rw [blanksBelow, after_eq]
  decide

end InsertionPoint

namespace Document

open UseStatement InsertionPoint

/-- A document with the lines of another, one line that imports a class, and empty lines. The lines
without a `use` statement are in order, and the empty lines come together among them. -/
structure AddsImport (document : Document) (name : Text) (blanks : Nat) (new : Document) :
    Prop where
  lines_perm : new.lines.Perm (importing name :: (List.replicate blanks [] ++ document.lines))
  others : ∃ front back, document.otherLines = front ++ back ∧
    new.otherLines = front ++ (List.replicate blanks [] ++ back)

theorem AddsImport.resorted {document inserted : Document} {name : Text} {blanks : Nat}
    {block : Block} {policy : SortPolicy} {sorted : List UseStatement}
    (adds : document.AddsImport name blanks inserted) (plain : Plain inserted.text)
    (scanned : Block.scan inserted.lines none = .ok block)
    (result : UseStatement.sort policy block.uses = .ok sorted) :
    document.AddsImport name blanks (inserted.resorted block.uses sorted) := by
  constructor
  · exact (lines_perm_resorted plain scanned result).trans adds.lines_perm
  · rw [other_lines_resorted plain scanned result]
    exact adds.others

section Inserted

variable {document : Document} {name : Text} {stop : Option Text} {block : Block}

theorem Closed.exists_last_line (closed : document.Closed) :
    ∃ init, document.lines = init ++ [[]] := by
  obtain ⟨front, last, raw, -, unbroken⟩ := (laid_raw_lines closed.plain).exists_last
  have empty : last = [] := by
    by_contra nonempty
    have split : document.text = front.flatten ++ last ++ [] := by
      rw [← flatten_raw_lines, raw]
      simp
    exact closed.after_ne split nonempty unbroken rfl
  refine ⟨front.map content, ?_⟩
  rw [lines, raw, empty, List.map_append]
  rfl

variable (closed : document.Closed) (unbroken : Unbroken name)
  (scanned : Block.scan document.lines stop = .ok block)

include closed scanned

theorem Closed.insertion_lt :
    (InsertionPoint.of block.declarations).line < document.lines.length := by
  obtain ⟨init, lines_eq⟩ := closed.exists_last_line
  obtain ⟨reached, records⟩ := Block.exists_records scanned
  have length_eq : document.lines.length = init.length + 1 := by simp [lines_eq]
  rcases InsertionPoint.line_of block.declarations with top | below
  · omega
  · obtain ⟨line, body, line_eq, found, nonempty⟩ := records.mentions _ below
    have inside := (List.getElem?_eq_some_iff.mp found).1
    have notLast : line ≠ init.length := by
      rintro rfl
      rw [lines_eq, List.getElem?_concat_length] at found
      exact nonempty (Option.some.inj found).symm
    omega

/-- What stands above the new line does not end a scan. -/
theorem Closed.unfinished_above {fewer : Nat}
    (above : fewer < (InsertionPoint.of block.declarations).line + blanksAbove block.declarations) :
    (Declarations.shownBy ((document.lines.take (InsertionPoint.of block.declarations).line ++
      List.replicate (blanksAbove block.declarations) []).take fewer)).isComplete = false := by
  cases last : block.declarations.lastUse with
  | none =>
      have noUse := Block.no_use_of_last_use scanned last
      have absent : (Declarations.shownBy
          ((document.lines.take (InsertionPoint.of block.declarations).line ++
            List.replicate (blanksAbove block.declarations) []).take fewer)).lastUse = none := by
        apply Declarations.last_use_note_all_eq_none.mpr
        refine ⟨rfl, ?_⟩
        intro shows
        obtain ⟨line, member, isUse⟩ := List.mem_map.mp shows
        rcases List.mem_append.mp (List.mem_of_mem_take member) with old | blank
        · exact noUse (List.mem_map.mpr ⟨line, List.mem_of_mem_take old, isUse⟩)
        · rw [List.eq_of_mem_replicate blank] at isUse
          cases isUse
      simp [Declarations.isComplete, absent]
  | some line =>
      obtain ⟨noBlank, line_eq⟩ := blanks_above_eq_zero last
      have inside := closed.insertion_lt scanned
      have read := Block.last_use_le_window scanned last
      rw [noBlank, line_eq] at above
      rw [line_eq] at inside
      rw [noBlank, line_eq, List.replicate_zero, List.append_nil, List.take_take,
        Nat.min_eq_left (by omega)]
      exact (Block.lt_window_iff (by omega)).mp (by omega)

include unbroken

/-- What stands above the new line, and what below. -/
theorem Closed.lines_inserted :
    (document.replaceAll [insertEdit name none block.declarations]).lines =
      document.lines.take (InsertionPoint.of block.declarations).line ++
        (List.replicate (blanksAbove block.declarations) [] ++
          importing name :: (List.replicate (blanksBelow block.declarations) [] ++
            document.lines.drop (InsertionPoint.of block.declarations).line)) := by
  have lineUnbroken : Unbroken (lineFor name none) := unbroken_line_for unbroken (by simp)
  rw [lines_insert_use closed.plain lineUnbroken (closed.insertion_lt scanned), newLines,
    List.append_assoc]
  rfl

theorem Closed.plain_inserted :
    Plain (document.replaceAll [insertEdit name none block.declarations]).text := by
  obtain ⟨reached, records⟩ := Block.exists_records scanned
  exact ((closed.orderly_insert records unbroken.plain).closed closed).plain

theorem Closed.adds_import_inserted :
    document.AddsImport name (blanksAbove block.declarations + blanksBelow block.declarations)
      (document.replaceAll [insertEdit name none block.declarations]) := by
  have lines_eq := closed.lines_inserted unbroken scanned
  have whole := List.take_append_drop (InsertionPoint.of block.declarations).line document.lines
  constructor
  · apply List.perm_iff_count.mpr
    intro line
    have counts := congrArg (List.count line) whole
    rw [List.count_append] at counts
    simp only [lines_eq, List.count_append, List.count_cons, List.count_replicate]
    split
    · omega
    · omega
  · refine ⟨(document.lines.take (InsertionPoint.of block.declarations).line).filter (!isUse ·),
      (document.lines.drop (InsertionPoint.of block.declarations).line).filter (!isUse ·), ?_, ?_⟩
    · rw [← List.filter_append, whole, otherLines]
    · have noBlank : (!isUse []) = true := by rw [is_use_nil]; rfl
      have noUse : ¬ (!isUse (importing name)) = true := by rw [is_use_importing]; decide
      rw [otherLines, lines_eq, List.filter_append, List.filter_append, List.filter_replicate,
        if_pos noBlank, List.filter_cons, if_neg noUse, List.filter_append, List.filter_replicate,
        if_pos noBlank, List.replicate_add, List.append_assoc]

theorem Closed.mem_reach_inserted :
    importing name ∈ (document.replaceAll [insertEdit name none block.declarations]).lines.take
      (Block.window (document.replaceAll [insertEdit name none block.declarations]).lines + 1) := by
  have lines_eq := closed.lines_inserted unbroken scanned
  have inside := closed.insertion_lt scanned
  rw [← List.append_assoc] at lines_eq
  have front_length : (document.lines.take (InsertionPoint.of block.declarations).line ++
      List.replicate (blanksAbove block.declarations) []).length =
        (InsertionPoint.of block.declarations).line + blanksAbove block.declarations := by
    rw [List.length_append, List.length_take, List.length_replicate, Nat.min_eq_left inside.le]
  have reached : (InsertionPoint.of block.declarations).line + blanksAbove block.declarations ≤
      Block.window (document.replaceAll [insertEdit name none block.declarations]).lines := by
    apply Block.le_window
    · rw [lines_eq, List.length_append, front_length]
      omega
    · intro fewer above
      rw [lines_eq, List.take_append_of_le_length (by omega)]
      exact closed.unfinished_above scanned above
  apply List.mem_iff_getElem?.mpr
  refine ⟨(InsertionPoint.of block.declarations).line + blanksAbove block.declarations, ?_⟩
  rw [List.getElem?_take_of_lt (Nat.lt_succ_of_le reached), lines_eq, ← front_length,
    List.getElem?_append_right (Nat.le_refl _), Nat.sub_self]
  rfl

theorem Closed.adds_import_followed_up (settings : Settings) :
    document.AddsImport name (blanksAbove block.declarations + blanksBelow block.declarations)
      ((document.replaceAll [insertEdit name none block.declarations]).followedUp settings) := by
  have adds := closed.adds_import_inserted unbroken scanned
  rcases followed_up_cases _ settings with same | ⟨-, found, sorted, rescanned, result, resorted_eq⟩
  · rw [same]
    exact adds
  · rw [resorted_eq]
    exact adds.resorted (closed.plain_inserted unbroken scanned) rescanned result

theorem Closed.mem_reach_followed_up (settings : Settings) :
    importing name ∈
      ((document.replaceAll [insertEdit name none block.declarations]).followedUp
        settings).lines.take (Block.window ((document.replaceAll
          [insertEdit name none block.declarations]).followedUp settings).lines + 1) := by
  have reach := closed.mem_reach_inserted unbroken scanned
  rcases followed_up_cases _ settings with same | ⟨-, found, sorted, rescanned, result, resorted_eq⟩
  · rw [same]
    exact reach
  · rw [resorted_eq]
    exact mem_reach_resorted (closed.plain_inserted unbroken scanned) rescanned result
      (is_use_importing name) reach

end Inserted

end Document

/-! ### The command -/

namespace FaithfulEditor

open Job InsertionPoint

section Command

variable {σ : Type} [MonadEditor (StateM σ)] {uri : Text}

theorem ends_import_class_error {editor : FaithfulEditor σ uri} {s : σ} {document : Document}
    {name : Text} {error : ResolveError} (present : (editor.desk s).document = some document)
    (scanned : Block.scan document.lines (some name) = .error error) (replaceSelection : Bool) :
    ends (importClass uri none name replaceSelection : Job σ Outcome) s = (.error error, s) := by
  rw [importClass, ends_bind, ends_lines_of present]
  change ends (liftM (Block.scan document.lines (some name)) >>= _) s = _
  rw [ends_bind, ends_except, scanned]

/-- An import of a class whose name is free adds its line, keeps every other one, and is not
repeated. -/
theorem import_class_adds_line_once (editor : FaithfulEditor σ uri) (s : σ) (document : Document)
    (name : Text) (block : Block) (replaceSelection : Bool)
    (present : (editor.desk s).document = some document) (closed : document.Closed)
    (unbroken : Unbroken name)
    (scanned : Block.scan document.lines (some name) = .ok block)
    (free : UseStatement.takes block.uses (baseName name) = false)
    (accepted : (ends (importClass uri none name replaceSelection : Job σ Outcome) s).1 ≠
      .error .editRejected) :
    ∃ after new blanks,
      ends (importClass uri none name replaceSelection) s = (.ok .done, after) ∧
      (editor.desk after).document = some new ∧
      blanks ≤ 2 ∧ document.AddsImport name blanks new ∧
      ((∀ state : σ, Reaches s state → (settingsAt state).autoSort = false) →
        ∃ index above below, new.lines =
            document.lines.take index ++ (List.replicate above [] ++
              UseStatement.importing name :: (List.replicate below [] ++
                document.lines.drop index)) ∧
          (below = 0 → block.declarations.firstType ≠ some (index + 1))) ∧
      ∀ later, (editor.desk later).document = some new → ∀ replaceAgain,
        ends (importClass uri none name replaceAgain) later =
          (.error (.alreadyImported name), later) := by
  have concludes : Concludes uri (fun _ => False) _ s _ :=
    concludes_import_class editor s none name replaceSelection
  unfold Concludes at concludes
  generalize ends (importClass uri none name replaceSelection : Job σ Outcome) s = ended
    at concludes accepted ⊢
  obtain ⟨result, after⟩ := ended
  obtain ⟨made, trace, ended⟩ := concludes
  have batchEnd : BatchEnd s uri document
      [UseStatement.insertEdit name none block.declarations] result made := by
    have handed := ended.of_free present scanned free
    rw [ite_self] at handed
    exact handed
  rcases batchEnd.done_or_refused with ⟨settings, ⟨asked, reached, rfl⟩, rfl, written⟩ | ⟨rfl, -⟩
  · have shows := trace.document_eq present
    rw [written] at shows
    obtain ⟨aboveLe, belowLe⟩ := blanks_le block.declarations
    refine ⟨after, _, blanksAbove block.declarations + blanksBelow block.declarations, rfl, shows,
      by omega, closed.adds_import_followed_up unbroken scanned _, ?_, ?_⟩
    · intro never
      have manual : (settingsToSort asked).autoSort = false := never asked reached
      rcases Document.followed_up_cases _ (settingsToSort asked) with same | ⟨automatic, -⟩
      · rw [same]
        refine ⟨_, _, _, closed.lines_inserted unbroken scanned, ?_⟩
        intro noBlank first
        exact blanks_below_ne_zero first noBlank
      · rw [manual] at automatic
        cases automatic
    · intro later presentLater replaceAgain
      exact ends_import_class_error presentLater
        (Block.scan_already_imported (closed.mem_reach_followed_up unbroken scanned _)) replaceAgain
  · exact absurd rfl accepted

end Command

def fullHeader : Document :=
  ⟨"<?php\r\ndeclare(strict_types=1);\nnamespace App;\nuse Zeta\\Widget;\nclass C\n".toList⟩

def sortingBench : Workbench where
  documents := [("file:///m".toList, fullHeader)]

def unsortingBench : Workbench where
  settings := { autoSort := false }
  documents := [("file:///m".toList, fullHeader)]

theorem import_class_adds_line_once_full_header :
    (∃ after new blanks,
      ends (importClass "file:///m".toList none "App\\Foo".toList true) sortingBench =
        (.ok .done, after) ∧
      after.document? "file:///m".toList = some new ∧
      blanks ≤ 2 ∧ fullHeader.AddsImport "App\\Foo".toList blanks new ∧
      ends (importClass "file:///m".toList none "App\\Foo".toList false) after =
        (.error (.alreadyImported "App\\Foo".toList), after)) ∧
    ∃ after new index above below,
      ends (importClass "file:///m".toList none "App\\Foo".toList true) unsortingBench =
        (.ok .done, after) ∧
      after.document? "file:///m".toList = some new ∧
      new.lines = fullHeader.lines.take index ++ (List.replicate above [] ++
        UseStatement.importing "App\\Foo".toList ::
          (List.replicate below [] ++ fullHeader.lines.drop index)) ∧
      (below = 0 → some 5 ≠ some (index + 1)) := by
  have closed : fullHeader.Closed := ⟨by decide, by decide⟩
  have scanned : Block.scan fullHeader.lines (some "App\\Foo".toList) =
      .ok ⟨[⟨"use Zeta\\Widget;".toList, 3⟩], ⟨some 1, some 2, some 3, some 4, some 5⟩⟩ := by
    decide +kernel
  constructor
  · obtain ⟨after, new, blanks, ended, written, few, adds, -, again⟩ := import_class_adds_line_once
      (Workbench.faithful "file:///m".toList) sortingBench fullHeader "App\\Foo".toList _ true rfl
      closed (by decide) scanned (by decide +kernel) (by decide +kernel)
    exact ⟨after, new, blanks, ended, written, few, adds, again after written false⟩
  · obtain ⟨after, new, -, ended, written, -, -, unsorted, -⟩ := import_class_adds_line_once
      (Workbench.faithful "file:///m".toList) unsortingBench fullHeader "App\\Foo".toList _ true rfl
      closed (by decide) scanned (by decide +kernel) (by decide +kernel)
    have never : ∀ state, Reaches unsortingBench state → (settingsAt state).autoSort = false := by
      intro state reached
      change state.settings.autoSort = false
      rw [Workbench.settings_reached reached]
      rfl
    obtain ⟨index, above, below, lines_eq, apart⟩ := unsorted never
    exact ⟨after, new, index, above, below, ended, written, lines_eq, apart⟩

end FaithfulEditor
end PhpNames
