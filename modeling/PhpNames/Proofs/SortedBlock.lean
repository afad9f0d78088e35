import PhpNames.Proofs.CommandRuns
import PhpNames.Proofs.PolicyOrder
import PhpNames.Proofs.WholeLines

/-!
Sorting changes the `use` block and nothing else.

The sorted statements keep their lines and exchange their texts. A line keeps its kind therefore, so
a scan of the sorted document stops where it stopped before, and finds the sorted statements: there
is nothing left to sort.
-/

namespace PhpNames

open Text Commands

/-! ### Sorted statements -/

namespace UseStatement

variable {statements sorted left right : List UseStatement} {texts : List Text}
  {policy : SortPolicy}

theorem map_line_with_texts (length_eq : texts.length = statements.length) :
    (withTexts statements texts).map (·.line) = statements.map (·.line) := by
  induction statements generalizing texts with
  | nil => rfl
  | cons statement rest induction =>
      cases texts with
      | nil => cases length_eq
      | cons text texts =>
          apply congrArg (statement.line :: ·)
          exact induction (Nat.succ.inj length_eq)

theorem map_text_with_texts (length_eq : texts.length = statements.length) :
    (withTexts statements texts).map (·.text) = texts := by
  induction statements generalizing texts with
  | nil =>
      rw [List.eq_nil_of_length_eq_zero length_eq]
      rfl
  | cons statement rest induction =>
      cases texts with
      | nil => cases length_eq
      | cons text texts =>
          apply congrArg (text :: ·)
          exact induction (Nat.succ.inj length_eq)

theorem with_texts_self (statements : List UseStatement) :
    withTexts statements (statements.map (·.text)) = statements := by
  induction statements with
  | nil => rfl
  | cons statement rest induction => exact congrArg (statement :: ·) induction

theorem sort_eq (several : 2 ≤ statements.length) :
    sort policy statements =
      .ok (withTexts statements (policy.sortTexts (statements.map (·.text)))) := by
  rw [sort, if_neg (not_lt.mpr several)]

theorem length_sort_texts (policy : SortPolicy) (statements : List UseStatement) :
    (policy.sortTexts (statements.map (·.text))).length = statements.length := by
  rw [(policy.sort_texts_perm _).length_eq, List.length_map]

section OfSort

variable (result : sort policy statements = .ok sorted)

include result

theorem several_of_sort : 2 ≤ statements.length := by
  unfold sort at result
  split at result
  · cases result
  · omega

theorem eq_of_sort :
    sorted = withTexts statements (policy.sortTexts (statements.map (·.text))) := by
  rw [sort_eq (several_of_sort result)] at result
  exact (Except.ok.inj result).symm

theorem map_line_of_sort : sorted.map (·.line) = statements.map (·.line) := by
  rw [eq_of_sort result, map_line_with_texts (length_sort_texts policy statements)]

theorem map_text_of_sort :
    sorted.map (·.text) = policy.sortTexts (statements.map (·.text)) := by
  rw [eq_of_sort result, map_text_with_texts (length_sort_texts policy statements)]

theorem ordered_of_sort :
    (sorted.map (·.text)).Pairwise fun upper lower => (policy.order upper lower).isLE = true := by
  rw [map_text_of_sort result]
  exact policy.sort_texts_pairwise _

/-- What is sorted stays as it is. -/
theorem sort_sorted : sort policy sorted = .ok sorted := by
  have length_eq : sorted.length = statements.length := by
    simpa using congrArg List.length (map_line_of_sort result)
  have several := several_of_sort result
  rw [sort_eq (by omega), policy.sort_texts_eq_self (ordered_of_sort result), with_texts_self]

end OfSort

/-- The edits of sorting, read as statements, are the sorted ones. -/
theorem map_sort_edits (lines_eq : sorted.map (·.line) = statements.map (·.line)) :
    (sortEdits statements sorted).map (fun edit => ⟨edit.text, edit.range.start.line⟩) =
      sorted := by
  induction statements generalizing sorted with
  | nil =>
      rw [List.map_eq_nil_iff.mp lines_eq]
      rfl
  | cons statement rest induction =>
      cases sorted with
      | nil => cases lines_eq
      | cons target sorted =>
          obtain ⟨line_eq, rest_eq⟩ := List.cons.inj lines_eq
          change target.line = statement.line at line_eq
          change ⟨target.text, statement.line⟩ :: _ = target :: sorted
          rw [← line_eq]
          exact congrArg (target :: ·) (induction rest_eq)

theorem map_start_sort_edits (lines_eq : sorted.map (·.line) = statements.map (·.line)) :
    (sortEdits statements sorted).map (·.range.start.line) = statements.map (·.line) := by
  have read := congrArg (List.map (·.line)) (map_sort_edits lines_eq)
  rwa [List.map_map, lines_eq] at read

/-- Statements that are read off the same lines are the same. -/
theorem eq_of_same_lines (lines : List Text)
    (lines_eq : left.map (·.line) = right.map (·.line))
    (readLeft : ∀ statement ∈ left, lines[statement.line]? = some statement.text)
    (readRight : ∀ statement ∈ right, lines[statement.line]? = some statement.text) :
    left = right := by
  induction left generalizing right with
  | nil => exact (List.map_eq_nil_iff.mp lines_eq.symm).symm
  | cons first left induction =>
      cases right with
      | nil => cases lines_eq
      | cons other right =>
          obtain ⟨line_eq, rest_eq⟩ := List.cons.inj lines_eq
          change first.line = other.line at line_eq
          obtain ⟨firstRead, leftRead⟩ := List.forall_mem_cons.mp readLeft
          obtain ⟨otherRead, rightRead⟩ := List.forall_mem_cons.mp readRight
          have text_eq : first.text = other.text := by
            rw [line_eq, otherRead] at firstRead
            exact (Option.some.inj firstRead).symm
          have same : first = other := by
            cases first
            cases other
            cases text_eq
            cases line_eq
            rfl
          rw [same, induction rest_eq leftRead rightRead]

end UseStatement

/-! ### Lines of the same kinds -/

namespace Block

variable {left right : List Text}

theorem map_line_uses_from (index : Nat)
    (kinds_eq : left.map LineKind.of = right.map LineKind.of) :
    (usesFrom index left).map (·.line) = (usesFrom index right).map (·.line) := by
  induction left generalizing index right with
  | nil => rw [List.map_eq_nil_iff.mp kinds_eq.symm]
  | cons line left induction =>
      cases right with
      | nil => cases kinds_eq
      | cons other right =>
          obtain ⟨kind_eq, rest_eq⟩ := List.cons.inj kinds_eq
          rw [uses_from_cons, uses_from_cons, List.map_append, List.map_append,
            induction (index + 1) rest_eq, kind_eq]
          congr 1
          split <;> rfl

theorem window_congr (kinds_eq : left.map LineKind.of = right.map LineKind.of) :
    window left = window right := by
  rw [window, kinds_eq, window]

end Block

/-! ### The sorted document -/

namespace Document

/-- A document whose `use` block has been put in order: it has the same line ends, and the same
lines apart from those of the statements, and a scan finds the statements in order on the lines that
they had. -/
structure SortsInto (document : Document) (policy : SortPolicy) (block : Block) (new : Document) :
    Prop where
  endings : new.rawLines.map ending = document.rawLines.map ending
  kept : ∀ number, (∀ statement ∈ block.uses, statement.line ≠ number) →
    new.line? number = document.line? number
  rescanned : ∃ sorted : List UseStatement,
    Block.scan new.lines none = .ok ⟨sorted, block.declarations⟩ ∧
      sorted.map (·.line) = block.uses.map (·.line) ∧
      (sorted.map (·.text)).Perm (block.uses.map (·.text)) ∧
      (sorted.map (·.text)).Pairwise fun upper lower => (policy.order upper lower).isLE = true

section Sorted

variable {document : Document} {block : Block} {policy : SortPolicy} {sorted : List UseStatement}
  (plain : Plain document.text) (scanned : Block.scan document.lines none = .ok block)
  (result : UseStatement.sort policy block.uses = .ok sorted)

include plain scanned result

theorem rewrites_resorted :
    document.Rewrites (UseStatement.sortEdits block.uses sorted)
      (document.resorted block.uses sorted) := by
  obtain ⟨reached, records⟩ := Block.exists_records scanned
  by_cases same : sorted = block.uses
  · rw [resorted, if_pos same, same]
    refine ⟨plain, rfl, ?_, fun _ _ => rfl⟩
    intro edit member
    have target : (⟨edit.text, edit.range.start.line⟩ : UseStatement) ∈ block.uses := by
      have inMap := List.mem_map_of_mem
        (f := fun edit : Edit => (⟨edit.text, edit.range.start.line⟩ : UseStatement)) member
      rwa [UseStatement.map_sort_edits rfl] at inMap
    exact (records.uses _ target).2.1
  · rw [resorted, if_neg same]
    apply rewrites_replace_all plain
    · intro edit member
      obtain ⟨statement, inUses, target, inSorted, rfl⟩ := UseStatement.mem_sort_edits member
      obtain ⟨source, sourceInUses, text_eq⟩ := UseStatement.text_mem_of_sort result inSorted
      obtain ⟨before, after, line⟩ := exists_line_at plain (records.uses source sourceInUses).2.1
      exact ⟨statement.line, statement.text, target.text, (records.uses statement inUses).2.1,
        text_eq ▸ line.unbroken, rfl⟩
    · have lines_eq := UseStatement.map_start_sort_edits (UseStatement.map_line_of_sort result)
      have ascending : (block.uses.map (·.line)).Pairwise (· ≠ ·) :=
        List.pairwise_map.mpr (records.ascending.imp Nat.ne_of_lt)
      rw [← lines_eq] at ascending
      exact List.pairwise_map.mp ascending

theorem line?_resorted_elsewhere {number : Nat}
    (elsewhere : ∀ statement ∈ block.uses, statement.line ≠ number) :
    (document.resorted block.uses sorted).line? number = document.line? number := by
  apply (rewrites_resorted plain scanned result).kept
  intro edit member
  obtain ⟨statement, inUses, -, -, rfl⟩ := UseStatement.mem_sort_edits member
  exact elsewhere statement inUses

theorem line?_resorted {target : UseStatement} (member : target ∈ sorted) :
    (document.resorted block.uses sorted).line? target.line = some target.text := by
  rw [← UseStatement.map_sort_edits (UseStatement.map_line_of_sort result)] at member
  obtain ⟨edit, inEdits, rfl⟩ := List.mem_map.mp member
  exact (rewrites_resorted plain scanned result).changed edit inEdits

/-- A line of a statement holds a statement before and after. -/
theorem is_use_resorted {statement : UseStatement} (member : statement ∈ block.uses) :
    ∃ text, (document.resorted block.uses sorted).line? statement.line = some text ∧
      UseStatement.isUse text = true := by
  have inLines : statement.line ∈ sorted.map (·.line) := by
    rw [UseStatement.map_line_of_sort result]
    exact List.mem_map_of_mem member
  obtain ⟨target, inSorted, line_eq⟩ := List.mem_map.mp inLines
  obtain ⟨source, inUses, text_eq⟩ := UseStatement.text_mem_of_sort result inSorted
  refine ⟨target.text, ?_, ?_⟩
  · rw [← line_eq]
    exact line?_resorted plain scanned result inSorted
  · rw [← text_eq]
    exact ((Block.mem_uses_of_scan scanned).mp inUses).2.1

/-- What does not tell one statement from another is the same on every line. -/
theorem map_resorted {α : Type} (view : Text → α) (ofUse : α)
    (blind : ∀ text, UseStatement.isUse text = true → view text = ofUse) :
    (document.resorted block.uses sorted).lines.map view = document.lines.map view := by
  apply List.ext_getElem?
  intro number
  rw [List.getElem?_map, List.getElem?_map]
  change ((document.resorted block.uses sorted).line? number).map view =
    (document.line? number).map view
  by_cases onUse : ∃ statement ∈ block.uses, statement.line = number
  · obtain ⟨statement, member, rfl⟩ := onUse
    obtain ⟨text, found, isUse⟩ := is_use_resorted plain scanned result member
    obtain ⟨here, wasUse, -⟩ := (Block.mem_uses_of_scan scanned).mp member
    have before : document.line? statement.line = some statement.text := here
    rw [found, before, Option.map_some, Option.map_some, blind text isUse, blind _ wasUse]
  · rw [line?_resorted_elsewhere plain scanned result]
    intro statement member same
    exact onUse ⟨statement, member, same⟩

theorem kinds_resorted :
    (document.resorted block.uses sorted).lines.map LineKind.of =
      document.lines.map LineKind.of :=
  map_resorted plain scanned result LineKind.of .useStatement
    fun _ isUse => LineKind.of_eq_use_statement.mpr isUse

theorem scan_resorted :
    Block.scan (document.resorted block.uses sorted).lines none =
      .ok ⟨sorted, block.declarations⟩ := by
  have kinds_eq := kinds_resorted plain scanned result
  have block_eq := Block.eq_shown_by_of_scan scanned
  have window_eq := Block.window_congr kinds_eq
  have rescanned := Block.scan_none (document.resorted block.uses sorted).lines
  rw [window_eq] at rescanned
  have front_eq : ((document.resorted block.uses sorted).lines.take
      (Block.window document.lines)).map LineKind.of =
        (document.lines.take (Block.window document.lines)).map LineKind.of := by
    rw [List.map_take, kinds_eq, List.map_take]
  rw [rescanned]
  congr 1
  have declarations_eq : Declarations.shownBy ((document.resorted block.uses sorted).lines.take
      (Block.window document.lines)) = block.declarations := by
    rw [Declarations.shownBy, front_eq]
    exact congrArg Block.declarations block_eq.symm
  have uses_eq : Block.usesFrom 0 ((document.resorted block.uses sorted).lines.take
      (Block.window document.lines)) = sorted := by
    apply UseStatement.eq_of_same_lines (document.resorted block.uses sorted).lines
    · rw [Block.map_line_uses_from 0 front_eq, UseStatement.map_line_of_sort result]
      exact congrArg (fun found : Block => found.uses.map (·.line)) block_eq.symm
    · intro statement member
      exact ((Block.mem_uses_of_scan (Block.scan_none _)).mp (by rwa [window_eq])).1
    · intro target member
      exact line?_resorted plain scanned result member
  rw [Block.shownBy, uses_eq, declarations_eq]

theorem sorts_into_resorted :
    document.SortsInto policy block (document.resorted block.uses sorted) where
  endings := (rewrites_resorted plain scanned result).endings
  kept _ := line?_resorted_elsewhere plain scanned result
  rescanned := by
    refine ⟨sorted, scan_resorted plain scanned result, UseStatement.map_line_of_sort result, ?_,
      UseStatement.ordered_of_sort result⟩
    rw [UseStatement.map_text_of_sort result]
    exact policy.sort_texts_perm _

end Sorted

end Document

/-! ### The command -/

namespace FaithfulEditor

open Job

section Command

variable {σ : Type} [MonadEditor (StateM σ)] {uri : Text}

theorem sort_imports_again {editor : FaithfulEditor σ uri} {later : σ} {document : Document}
    {block : Block} (present : (editor.desk later).document = some document)
    (scanned : Block.scan document.lines none = .ok block)
    (ordered : UseStatement.sort (settingsAt later).sortPolicy block.uses = .ok block.uses) :
    ∃ final, ends (sortImports uri) later = (.ok (), final) ∧
      editor.desk final = editor.desk later := by
  have idle : document.sortBatch? (settingsAt later).sortPolicy = none := by
    rw [Document.sort_batch?_eq scanned ordered, if_pos rfl]
  rw [ends_sort_imports present scanned, ordered]
  dsimp only
  rw [idle]
  exact ⟨askedSettings later, rfl, (keeps_settings later).desk_eq⟩

/-- Sorting succeeds if there are two statements and the editor does not refuse. It touches nothing
but the `use` block then, and to sort again changes nothing. -/
theorem sort_imports_use_block_only (editor : FaithfulEditor σ uri) (s : σ) (document : Document)
    (present : (editor.desk s).document = some document) (plain : Plain document.text)
    (accepted : (ends (sortImports uri : Job σ Unit) s).1 ≠ .error .editRejected) :
    ∃ block, Block.scan document.lines none = .ok block ∧
      ((ends (sortImports uri : Job σ Unit) s).1 = .ok () ↔ 2 ≤ block.uses.length) ∧
      ∀ after, ends (sortImports uri) s = (.ok (), after) →
        ∃ new, (editor.desk after).document = some new ∧
          document.SortsInto (settingsAt s).sortPolicy block new ∧
          ∀ later, (editor.desk later).document = some new →
            (settingsAt later).sortPolicy = (settingsAt s).sortPolicy →
              ∃ final, ends (sortImports uri) later = (.ok (), final) ∧
                editor.desk final = editor.desk later := by
  have scanned := Block.scan_none document.lines
  obtain ⟨made, trace, ended⟩ : Concludes uri (fun _ => False) (sortImports uri) s _ :=
    concludes_sort_imports editor s
  refine ⟨_, scanned, ?_, ?_⟩
  · rcases ended.of_present present scanned with ⟨failed, few⟩ | ⟨sorted, result, hands⟩
    · rw [failed]
      constructor
      · intro succeeded
        cases succeeded
      · intro several
        omega
    · rcases hands.succeeds_or_refused with ⟨succeeded, -⟩ | ⟨refused, -⟩
      · exact iff_of_true succeeded (UseStatement.several_of_sort result)
      · exact absurd refused accepted
  · intro after succeeded
    rw [succeeded] at trace ended
    obtain ⟨sorted, result, written⟩ := ended.resorted present scanned trace
    refine ⟨_, written, Document.sorts_into_resorted plain scanned result, ?_⟩
    intro later presentLater samePolicy
    apply sort_imports_again presentLater (Document.scan_resorted plain scanned result)
    rw [samePolicy]
    exact UseStatement.sort_sorted result

end Command

def scatteredUses : Document :=
  ⟨"<?php\r\nuse Zeta\\𝒳;\r\n// B\nuse B;\n\nclass C\r\nuse a;".toList⟩

def scatteredBench : Workbench where
  documents := [("file:///m".toList, scatteredUses)]

theorem sort_imports_use_block_only_scattered :
    ∃ block after new,
      Block.scan scatteredUses.lines none = .ok block ∧
      ends (sortImports "file:///m".toList) scatteredBench = (.ok (), after) ∧
      after.document? "file:///m".toList = some new ∧
      new.lines = ["<?php".toList, "use a;".toList, "// B".toList, "use B;".toList, [],
        "class C".toList, "use Zeta\\𝒳;".toList] ∧
      scatteredUses.SortsInto .length block new ∧
      ∃ final, ends (sortImports "file:///m".toList) after = (.ok (), final) ∧
        final.desk "file:///m".toList = after.desk "file:///m".toList := by
  have accepted : (ends (sortImports "file:///m".toList) scatteredBench).1 ≠
      .error .editRejected := by decide +kernel
  obtain ⟨block, scanned, succeeds, sorts⟩ := sort_imports_use_block_only
    (Workbench.faithful "file:///m".toList) scatteredBench scatteredUses rfl (by decide) accepted
  have block_eq : Block.scan scatteredUses.lines none =
      .ok ⟨[⟨"use Zeta\\𝒳;".toList, 1⟩, ⟨"use B;".toList, 3⟩, ⟨"use a;".toList, 6⟩],
        ⟨some 1, none, none, some 7, some 6⟩⟩ := by decide +kernel
  have several : 2 ≤ block.uses.length := by
    rw [← Except.ok.inj (block_eq.symm.trans scanned)]
    decide
  have succeeded := succeeds.mpr several
  have shown : (((ends (sortImports "file:///m".toList) scatteredBench).2.document?
      "file:///m".toList).map (·.lines)) = some ["<?php".toList, "use a;".toList, "// B".toList,
        "use B;".toList, [], "class C".toList, "use Zeta\\𝒳;".toList] := by decide +kernel
  have samePolicy :
      (settingsAt (ends (sortImports "file:///m".toList) scatteredBench).2).sortPolicy =
        (settingsAt scatteredBench).sortPolicy := by decide +kernel
  generalize ends (sortImports "file:///m".toList) scatteredBench = ended at *
  obtain ⟨outcome, after⟩ := ended
  cases succeeded
  obtain ⟨new, written, into, again⟩ := sorts after rfl
  have present : after.document? "file:///m".toList = some new := written
  rw [present] at shown
  exact ⟨block, after, new, scanned, rfl, present, Option.some.inj shown, into,
    again after written samePolicy⟩

end FaithfulEditor
end PhpNames
