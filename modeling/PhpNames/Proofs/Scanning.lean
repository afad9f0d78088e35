import PhpNames.Proofs.ImportBatches

/-!
What a scan of the declaration block finds.

A scan reads lines until those that it has read show every construct. So the block that it finds is
the block of a beginning of the document, `Block.window` lines long, and a class is already imported
if its line is one of those or directly follows them.
-/

namespace PhpNames

open Text

inductive Construct where
  | openingTag
  | declareStatement
  | namespaceStatement
  | useStatement
  | typeDeclaration
  deriving DecidableEq, Repr

namespace LineKind

def shows : LineKind → Construct → Bool
  | .openingTag withNamespace, construct =>
      construct == .openingTag || withNamespace && construct == .namespaceStatement
  | .declareStatement, construct => construct == .declareStatement
  | .namespaceStatement, construct => construct == .namespaceStatement
  | .useStatement, construct => construct == .useStatement
  | .typeDeclaration, construct => construct == .typeDeclaration
  | .other, _ => false

theorem shows_type_declaration {kind : LineKind} :
    kind.shows .typeDeclaration = true ↔ kind = .typeDeclaration := by
  cases kind <;> simp [shows]

theorem of_eq_use_statement {line : Text} :
    LineKind.of line = .useStatement ↔ UseStatement.isUse line = true := by
  constructor
  · intro isUse
    unfold LineKind.of at isUse
    split at isUse
    · cases isUse
    · split at isUse
      · cases isUse
      · split at isUse
        · cases isUse
        · split at isUse
          · assumption
          · split at isUse <;> cases isUse
  · intro isUse
    -- the other constructs start differently
    obtain ⟨rest, rfl⟩ := List.isPrefixOf_iff_prefix.mp isUse
    rfl

end LineKind

/-! ### What lines show together -/

namespace Declarations

/-- What is known after lines of the given kinds, the first of which has index `index`. -/
def noteAll (found : Declarations) (index : Nat) : List LineKind → Declarations
  | [] => found
  | kind :: rest => (found.note (index + 1) kind).noteAll (index + 1) rest

/-- How many lines are read until every construct has been found. -/
def window (found : Declarations) (index : Nat) : List LineKind → Nat
  | [] => 0
  | kind :: rest =>
      if found.isComplete then 0 else (found.note (index + 1) kind).window (index + 1) rest + 1

def line (found : Declarations) : Construct → Option Nat
  | .openingTag => found.openingTag
  | .declareStatement => found.declareLine
  | .namespaceStatement => found.namespaceLine
  | .useStatement => found.lastUse
  | .typeDeclaration => found.firstType

variable {found : Declarations} {index number : Nat} {kind : LineKind} {kinds : List LineKind}
  {construct : Construct}

theorem is_complete_note (complete : found.isComplete = true) :
    (found.note number kind).isComplete = true := by
  unfold isComplete at complete ⊢
  cases kind with
  | openingTag withNamespace => cases withNamespace <;> simp_all [note]
  | _ => simp_all [note]

theorem is_complete_note_all (complete : found.isComplete = true) :
    (found.noteAll index kinds).isComplete = true := by
  induction kinds generalizing found index with
  | nil => exact complete
  | cons kind rest induction => exact induction (is_complete_note complete)

theorem note_all_append (found : Declarations) (index : Nat) (left right : List LineKind) :
    found.noteAll index (left ++ right) =
      (found.noteAll index left).noteAll (index + left.length) right := by
  induction left generalizing found index with
  | nil => rfl
  | cons kind rest induction =>
      rw [List.cons_append, noteAll, noteAll, induction, List.length_cons]
      congr 1
      omega

theorem window_le_length (found : Declarations) (index : Nat) (kinds : List LineKind) :
    found.window index kinds ≤ kinds.length := by
  induction kinds generalizing found index with
  | nil => exact Nat.le_refl 0
  | cons kind rest induction =>
      rw [window]
      split
      · exact Nat.zero_le _
      · exact Nat.succ_le_succ (induction _ _)

/-- A line is read if and only if those before it leave something to be found. -/
theorem lt_window_iff {count : Nat} (inside : count < kinds.length) :
    count < found.window index kinds ↔
      (found.noteAll index (kinds.take count)).isComplete = false := by
  induction kinds generalizing found index count with
  | nil => simp at inside
  | cons kind rest induction =>
      rw [window]
      by_cases complete : found.isComplete = true
      · simp [complete, is_complete_note_all complete]
      · cases count with
        | zero => simp [complete, noteAll]
        | succ count =>
            rw [if_neg complete, List.take_succ_cons, noteAll, Nat.add_lt_add_iff_right]
            apply induction
            simpa using inside

/-- Of every construct but `use` the first line counts. -/
theorem line_note (first : construct ≠ .useStatement) :
    (found.note number kind).line construct =
      (found.line construct).or (if kind.shows construct then some number else none) := by
  cases construct with
  | useStatement => exact absurd rfl first
  | _ =>
      cases kind with
      | openingTag withNamespace => cases withNamespace <;> simp [note, line, LineKind.shows]
      | _ => simp [note, line, LineKind.shows]

theorem line_note_all (first : construct ≠ .useStatement) :
    (found.noteAll index kinds).line construct =
      (found.line construct).or
        ((kinds.findIdx? (·.shows construct)).map fun count => index + count + 1) := by
  induction kinds generalizing found index with
  | nil => simp [noteAll]
  | cons kind rest induction =>
      rw [noteAll, induction, line_note first, Option.or_assoc, List.findIdx?_cons]
      congr 1
      cases kind.shows construct with
      | true => rfl
      | false =>
          rw [if_neg Bool.false_ne_true, if_neg Bool.false_ne_true, Option.none_or, Option.map_map]
          congr 1
          funext count
          simp only [Function.comp_apply]
          omega

theorem last_use_note (found : Declarations) (number : Nat) (kind : LineKind) :
    (found.note number kind).lastUse =
      if kind = .useStatement then some number else found.lastUse := by
  cases kind <;> rfl

theorem last_use_note_all_eq_none :
    (found.noteAll index kinds).lastUse = none ↔
      found.lastUse = none ∧ LineKind.useStatement ∉ kinds := by
  induction kinds generalizing found index with
  | nil => simp [noteAll]
  | cons kind rest induction =>
      rw [noteAll, induction, last_use_note]
      by_cases isUse : kind = .useStatement
      · simp [isUse]
      · simp [isUse, Ne.symm isUse]

def shownBy (lines : List Text) : Declarations :=
  noteAll {} 0 (lines.map LineKind.of)

theorem line_shown_by (first : construct ≠ .useStatement) (lines : List Text) :
    (shownBy lines).line construct =
      (lines.findIdx? fun line => (LineKind.of line).shows construct).map (· + 1) := by
  have nothing : ({} : Declarations).line construct = none := by cases construct <;> rfl
  rw [shownBy, line_note_all first, nothing, Option.none_or, List.findIdx?_map]
  congr 1
  funext count
  omega

/-- No line that shows a construct stands above the one that is noted for it. -/
theorem exists_line_le (first : construct ≠ .useStatement) {lines : List Text} {count : Nat}
    {line : Text} (here : lines[count]? = some line)
    (shows : (LineKind.of line).shows construct = true) :
    ∃ number, (shownBy lines).line construct = some number ∧ number ≤ count + 1 := by
  obtain ⟨inside, rfl⟩ := List.getElem?_eq_some_iff.mp here
  rw [line_shown_by first]
  cases searched : lines.findIdx? fun line => (LineKind.of line).shows construct with
  | none => exact absurd shows (by simp [List.findIdx?_eq_none_iff.mp searched])
  | some index =>
      refine ⟨index + 1, rfl, ?_⟩
      have above := (List.findIdx?_eq_some_iff_getElem.mp searched).2.2
      by_contra further
      exact above count (by omega) shows

theorem is_complete_shown_by_take {lines : List Text} {count more : Nat} (le : count ≤ more)
    (complete : (shownBy (lines.take count)).isComplete = true) :
    (shownBy (lines.take more)).isComplete = true := by
  have split : lines.take more = lines.take count ++ (lines.drop count).take (more - count) := by
    rw [← List.take_add, Nat.add_sub_cancel' le]
  rw [split, shownBy, List.map_append, note_all_append]
  exact is_complete_note_all complete

end Declarations

/-! ### The block of some lines -/

namespace Block

def usesFrom (index : Nat) (lines : List Text) : List UseStatement :=
  ((lines.zipIdx index).filter fun numbered => UseStatement.isUse numbered.1).map
    fun numbered => ⟨numbered.1, numbered.2⟩

def shownBy (lines : List Text) : Block where
  uses := usesFrom 0 lines
  declarations := Declarations.shownBy lines

def window (lines : List Text) : Nat :=
  Declarations.window {} 0 (lines.map LineKind.of)

variable {lines : List Text} {stop : Option Text} {block : Block} {name : Text}

theorem window_le_length (lines : List Text) : window lines ≤ lines.length := by
  simpa [window] using Declarations.window_le_length {} 0 (lines.map LineKind.of)

theorem lt_window_iff {count : Nat} (inside : count < lines.length) :
    count < window lines ↔
      (Declarations.shownBy (lines.take count)).isComplete = false := by
  rw [window, Declarations.lt_window_iff (by simpa using inside), Declarations.shownBy,
    List.map_take]

theorem is_complete_of_window_lt (inside : window lines < lines.length) :
    (Declarations.shownBy (lines.take (window lines))).isComplete = true := by
  have stopped := (lt_window_iff inside).not.mp (Nat.lt_irrefl _)
  simpa using stopped

theorem le_window {count : Nat} (inside : count ≤ lines.length)
    (unfinished : ∀ fewer < count, (Declarations.shownBy (lines.take fewer)).isComplete = false) :
    count ≤ window lines := by
  cases count with
  | zero => exact Nat.zero_le _
  | succ count => exact (lt_window_iff inside).mpr (unfinished count (Nat.lt_succ_self count))

theorem uses_from_cons (index : Nat) (line : Text) (rest : List Text) :
    usesFrom index (line :: rest) =
      (if LineKind.of line = .useStatement then [⟨line, index⟩] else []) ++
        usesFrom (index + 1) rest := by
  unfold usesFrom
  by_cases isUse : UseStatement.isUse line = true
  · simp [isUse, LineKind.of_eq_use_statement]
  · simp [isUse, LineKind.of_eq_use_statement]

/-- A scan fails on the class that it looks for up to the line behind those it reads. -/
theorem scan_from_eq (stop : Option Text) (block : Block) (index : Nat) (lines : List Text) :
    scanFrom stop block index lines =
      let count := block.declarations.window index (lines.map LineKind.of)
      if (lines.take (count + 1)).any (isStop stop) then .error (.alreadyImported (stop.getD []))
      else .ok
        { uses := block.uses ++ usesFrom index (lines.take count)
          declarations :=
            block.declarations.noteAll index ((lines.take count).map LineKind.of) } := by
  induction lines generalizing block index with
  | nil => simp [scanFrom, Declarations.window, Declarations.noteAll, usesFrom]
  | cons line rest induction =>
      rw [scanFrom, List.map_cons, Declarations.window]
      by_cases stops : isStop stop line = true
      · simp [stops]
      · by_cases complete : block.declarations.isComplete = true
        · simp [stops, complete, usesFrom, Declarations.noteAll]
        · have taken : (block.take index line).declarations =
              block.declarations.note (index + 1) (LineKind.of line) := rfl
          rw [if_neg stops, if_neg complete, induction, take_uses, taken]
          simp [stops, complete, uses_from_cons, Declarations.noteAll]

theorem scan_eq (lines : List Text) (stop : Option Text) :
    scan lines stop =
      if (lines.take (window lines + 1)).any (isStop stop) then
        .error (.alreadyImported (stop.getD []))
      else .ok (shownBy (lines.take (window lines))) :=
  scan_from_eq stop {} 0 lines

theorem scan_none (lines : List Text) :
    scan lines none = .ok (shownBy (lines.take (window lines))) := by
  rw [scan_eq]
  simp [isStop]

theorem eq_shown_by_of_scan (scanned : scan lines stop = .ok block) :
    block = shownBy (lines.take (window lines)) := by
  rw [scan_eq] at scanned
  split at scanned
  · cases scanned
  · cases scanned
    rfl

/-- What a scan that looks for a class finds is what any scan finds. -/
theorem scan_none_of_scan (scanned : scan lines stop = .ok block) :
    scan lines none = .ok block := by
  rw [scan_none, eq_shown_by_of_scan scanned]

theorem scan_already_imported
    (found : UseStatement.importing name ∈ lines.take (window lines + 1)) :
    scan lines (some name) = .error (.alreadyImported name) := by
  have stops : (lines.take (window lines + 1)).any (isStop (some name)) = true :=
    List.any_eq_true.mpr ⟨_, found, by simp [isStop]⟩
  rw [scan_eq, if_pos stops]
  rfl

theorem mem_uses_shown_by {statement : UseStatement} :
    statement ∈ (shownBy lines).uses ↔
      lines[statement.line]? = some statement.text ∧
        UseStatement.isUse statement.text = true := by
  simp only [shownBy, usesFrom, List.mem_map, List.mem_filter]
  constructor
  · rintro ⟨⟨text, number⟩, ⟨member, isUse⟩, rfl⟩
    exact ⟨List.mk_mem_zipIdx_iff_getElem?.mp member, isUse⟩
  · intro ⟨found, isUse⟩
    exact ⟨(statement.text, statement.line), ⟨List.mk_mem_zipIdx_iff_getElem?.mpr found, isUse⟩,
      rfl⟩

theorem map_text_uses_from (index : Nat) (lines : List Text) :
    (usesFrom index lines).map (·.text) = lines.filter UseStatement.isUse := by
  induction lines generalizing index with
  | nil => rfl
  | cons line rest induction =>
      rw [uses_from_cons, List.map_append, induction]
      by_cases isUse : UseStatement.isUse line = true
      · simp [isUse, LineKind.of_eq_use_statement]
      · simp [isUse, LineKind.of_eq_use_statement]

theorem map_text_of_scan (scanned : scan lines stop = .ok block) :
    block.uses.map (·.text) = (lines.take (window lines)).filter UseStatement.isUse := by
  rw [eq_shown_by_of_scan scanned]
  exact map_text_uses_from 0 _

theorem last_use_note_all (found : Declarations) (index : Nat) (lines : List Text) :
    (found.noteAll index (lines.map LineKind.of)).lastUse =
      ((usesFrom index lines).getLast?.map (·.line + 1)).or found.lastUse := by
  induction lines generalizing found index with
  | nil => rfl
  | cons line rest induction =>
      rw [List.map_cons, Declarations.noteAll, induction, Declarations.last_use_note,
        uses_from_cons, List.getLast?_append]
      by_cases isUse : LineKind.of line = .useStatement
      · cases (usesFrom (index + 1) rest).getLast? <;> simp [isUse]
      · cases (usesFrom (index + 1) rest).getLast? <;> simp [isUse]

/-- The last line with a `use` statement is that of the last statement. -/
theorem last_use_shown_by (lines : List Text) :
    (shownBy lines).declarations.lastUse = (shownBy lines).uses.getLast?.map (·.line + 1) := by
  have last := last_use_note_all {} 0 lines
  rwa [Option.or_none] at last

theorem exists_first_type {typeLine : Nat}
    (first : (shownBy lines).declarations.firstType = some typeLine) :
    ∃ count line, typeLine = count + 1 ∧ lines[count]? = some line ∧
      LineKind.of line = .typeDeclaration := by
  have noted :=
    Declarations.line_shown_by (by decide : Construct.typeDeclaration ≠ .useStatement) lines
  obtain ⟨count, searched, rfl⟩ := Option.map_eq_some_iff.mp (noted.symm.trans first)
  obtain ⟨inside, shows, -⟩ := List.findIdx?_eq_some_iff_getElem.mp searched
  exact ⟨count, lines[count], rfl, List.getElem?_eq_getElem inside,
    LineKind.shows_type_declaration.mp shows⟩

/-! ### The first type declaration -/

section FirstType

variable {typeLine : Nat} (scanned : scan lines none = .ok block)
  (first : block.declarations.firstType = some typeLine)

include scanned

theorem mem_uses_of_scan {statement : UseStatement} :
    statement ∈ block.uses ↔
      lines[statement.line]? = some statement.text ∧
        UseStatement.isUse statement.text = true ∧
        (Declarations.shownBy (lines.take statement.line)).isComplete = false := by
  rw [eq_shown_by_of_scan scanned, mem_uses_shown_by, List.getElem?_take]
  by_cases inside : statement.line < lines.length
  · rw [← lt_window_iff inside]
    by_cases read : statement.line < window lines
    · simp [read]
    · simp [read]
  · simp [List.getElem?_eq_none (not_lt.mp inside)]

include first

theorem type_line_read : ∃ line, lines[typeLine - 1]? = some line ∧
    LineKind.of line = .typeDeclaration ∧ 0 < typeLine ∧ typeLine ≤ window lines := by
  rw [eq_shown_by_of_scan scanned] at first
  obtain ⟨count, line, rfl, here, isType⟩ := exists_first_type first
  rw [List.getElem?_take] at here
  split at here
  · exact ⟨line, here, isType, Nat.succ_pos count, by assumption⟩
  · cases here

/-- The statements stand above the first type declaration exactly if every further `use` line has
all constructs above it. -/
theorem uses_above_iff :
    (∀ statement ∈ block.uses, statement.line + 1 < typeLine) ↔
      ∀ index line, typeLine ≤ index → lines[index]? = some line →
        UseStatement.isUse line = true →
          (Declarations.shownBy (lines.take index)).isComplete = true := by
  constructor
  · intro above index line below here isUse
    by_contra unfinished
    rw [Bool.not_eq_true] at unfinished
    have member : (⟨line, index⟩ : UseStatement) ∈ block.uses :=
      (mem_uses_of_scan scanned).mpr ⟨here, isUse, unfinished⟩
    have higher : index + 1 < typeLine := above _ member
    omega
  · intro complete statement member
    obtain ⟨here, isUse, unfinished⟩ := (mem_uses_of_scan scanned).mp member
    obtain ⟨typeText, typeHere, isType, positive, -⟩ := type_line_read scanned first
    by_contra notAbove
    rcases Nat.lt_or_ge statement.line typeLine with onLine | below
    · -- the type declaration itself is no `use` line
      have same : statement.line = typeLine - 1 := by omega
      rw [same, typeHere, Option.some.injEq] at here
      rw [← here, ← LineKind.of_eq_use_statement, isType] at isUse
      cases isUse
    · rw [complete _ _ below here isUse] at unfinished
      cases unfinished

theorem insertion_above (complete : (Declarations.shownBy (lines.take typeLine)).isComplete = true)
    (above : ∀ statement ∈ block.uses, statement.line + 1 < typeLine) :
    (InsertionPoint.of block.declarations).line < typeLine := by
  obtain ⟨-, -, -, -, read⟩ := type_line_read scanned first
  have whole := Declarations.is_complete_shown_by_take read complete
  have block_eq := eq_shown_by_of_scan scanned
  have declarations_eq : Declarations.shownBy (lines.take (window lines)) = block.declarations := by
    rw [block_eq]
    rfl
  have last := last_use_shown_by (lines.take (window lines))
  rw [← block_eq] at last
  rw [declarations_eq] at whole
  have found : block.declarations.lastUse.isSome = true := by
    simp only [Declarations.isComplete, Bool.and_eq_true] at whole
    exact whole.1.2
  cases ending : block.uses.getLast? with
  | none =>
      rw [last, ending] at found
      cases found
  | some statement =>
      rw [ending, Option.map_some] at last
      have line_eq : (InsertionPoint.of block.declarations).line = statement.line + 1 := by
        simp [InsertionPoint.of, last]
      rw [line_eq]
      exact above statement (List.mem_of_getLast? ending)

end FirstType

/-- When the `use` statements that a scan finds stand above the first type declaration, and what
follows for sorting and for new statements. -/
theorem scan_uses_above_first_type (lines : List Text) (block : Block) (typeLine : Nat)
    (scanned : scan lines none = .ok block)
    (first : block.declarations.firstType = some typeLine) :
    ((∀ statement ∈ block.uses, statement.line + 1 < typeLine) ↔
        ∀ index line, typeLine ≤ index → lines[index]? = some line →
          UseStatement.isUse line = true →
            (Declarations.shownBy (lines.take index)).isComplete = true) ∧
      ((∀ statement ∈ block.uses, statement.line + 1 < typeLine) →
        ∀ sorted, ∀ edit ∈ UseStatement.sortEdits block.uses sorted,
          edit.range.stop.line + 1 < typeLine) ∧
      ((Declarations.shownBy (lines.take typeLine)).isComplete = true →
        (∀ statement ∈ block.uses, statement.line + 1 < typeLine) ∧
          (InsertionPoint.of block.declarations).line < typeLine) := by
  refine ⟨uses_above_iff scanned first, ?_, ?_⟩
  · intro above sorted edit member
    obtain ⟨statement, inUses, target, -, rfl⟩ := UseStatement.mem_sort_edits member
    exact above statement inUses
  · intro complete
    have above : ∀ statement ∈ block.uses, statement.line + 1 < typeLine := by
      apply (uses_above_iff scanned first).mpr
      intro index line below _ _
      exact Declarations.is_complete_shown_by_take below complete
    exact ⟨above, insertion_above scanned first complete above⟩

theorem scan_uses_above_first_type_full_header :
    (InsertionPoint.of ⟨some 1, some 2, some 3, some 4, some 5⟩).line < 5 ∧
      ∀ statement ∈ [(⟨"use A\\B;".toList, 3⟩ : UseStatement)], statement.line + 1 < 5 := by
  obtain ⟨above, inserted⟩ := (scan_uses_above_first_type
    ["<?php".toList, "declare(strict_types=1);".toList, "namespace App;".toList,
      "use A\\B;".toList, "class C".toList, "use D;".toList]
    ⟨[⟨"use A\\B;".toList, 3⟩], ⟨some 1, some 2, some 3, some 4, some 5⟩⟩ 5
    (by decide) rfl).2.2 (by decide)
  exact ⟨inserted, above⟩

def useInClass : List Text :=
  ["<?php".toList, "namespace App;".toList, "use Zeta\\Thing;".toList, "class Foo".toList,
    "\x7b".toList, "use Greets;".toList, "\x7d".toList]

/-- The `use` line of a class body is taken for an import: sorting exchanges it with one, and a
new one goes below it. -/
theorem scan_takes_use_in_class :
    ∃ block, scan useInClass none = .ok block ∧ block.declarations.firstType = some 4 ∧
      ¬ (∀ statement ∈ block.uses, statement.line + 1 < 4) ∧
      UseStatement.sort .length block.uses =
        .ok [⟨"use Greets;".toList, 2⟩, ⟨"use Zeta\\Thing;".toList, 5⟩] ∧
      ¬ (InsertionPoint.of block.declarations).line < 4 :=
  ⟨⟨[⟨"use Zeta\\Thing;".toList, 2⟩, ⟨"use Greets;".toList, 5⟩],
    ⟨some 1, none, some 2, some 6, some 4⟩⟩, by decide⟩

end Block
end PhpNames
