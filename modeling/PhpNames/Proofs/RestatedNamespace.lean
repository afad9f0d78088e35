import PhpNames.Proofs.DerivedNamespace
import PhpNames.Proofs.ExactScan
import PhpNames.Proofs.MixedLineEnds
import PhpNames.Proofs.NamespaceRoundTrip

/-!
A namespace statement that is replaced where it stands.

The other lines of the document stay, and so does the opening tag in front of the statement. But the
statement is replaced up to the end of its line: what stands behind its semicolon stays exactly if
it is blank.
-/

namespace PhpNames

open Text

/-! ### Texts with an end of their own -/

namespace Text

theorem FirstOccurrence.before_eq {c : Char} {pattern text before after earlier later : Text}
    (occurs : FirstOccurrence (c :: pattern) text before after)
    (parts : text = earlier ++ (c :: pattern ++ later)) (absent : c ∉ earlier) :
    before = earlier := by
  have short := occurs.first earlier later parts
  rcases List.append_eq_append_iff.mp (occurs.parts.symm.trans parts) with
    ⟨middle, rfl, behind⟩ | ⟨middle, rfl, -⟩
  · cases middle with
    | nil => rw [List.append_nil]
    | cons d middle =>
        obtain rfl : c = d := (List.cons.inj behind).1
        exact absurd (List.mem_append_right before List.mem_cons_self) absent
  · rw [List.length_append] at short
    have none : middle = [] := List.eq_nil_of_length_eq_zero (by omega)
    rw [none, List.append_nil]

theorem trim_start_eq_self {text : Text} (front : ∀ c ∈ text.head?, isBlank c = false) :
    trimStart text = text :=
  drop_while_blank_append (List.forall_mem_nil _) front

/-- Behind a character that is not blank, only blank space is trimmed off. -/
theorem trim_end_eq_iff {front rest : Text} {c : Char} (visible : isBlank c = false) :
    trimEnd (front ++ [c] ++ rest) = front ++ [c] ↔ ∀ d ∈ rest, isBlank d = true := by
  have stops : ((front ++ [c]).reverse).dropWhile isBlank = (front ++ [c]).reverse := by
    rw [List.reverse_append, List.reverse_singleton, List.singleton_append,
      List.dropWhile_cons_of_neg (Bool.eq_false_iff.mp visible)]
  rw [trimEnd, List.reverse_eq_iff, List.reverse_append, List.dropWhile_append, stops]
  constructor
  · intro same
    split at same
    · rename_i none
      rw [List.isEmpty_iff, List.dropWhile_eq_nil_iff] at none
      exact fun d member => none d (List.mem_reverse.mpr member)
    · rename_i more
      have none := List.append_left_eq_self.mp same
      rw [none] at more
      exact absurd rfl more
  · intro blank
    have none : rest.reverse.dropWhile isBlank = [] :=
      List.dropWhile_eq_nil_iff.mpr fun d member => blank d (List.mem_reverse.mp member)
    rw [none, List.isEmpty_nil, if_pos rfl]

end Text

/-! ### Several lines in the place of one -/

namespace Document

theorem EndedLine.get_last? {line : Text} (ended : EndedLine line) :
    ∃ c, line.getLast? = some c ∧ isBreak c = true := by
  obtain ⟨body, terminator, rfl, -, rfl | ⟨c, breaks, rfl⟩⟩ := ended
  · exact ⟨'\n', by simp, by decide⟩
  · exact ⟨c, by simp, breaks⟩

/-- Lines that do not end in a line break have a last line that is not empty. -/
theorem Cut.exists_last {lines : List Text} {c : Char} (cut : Cut lines)
    (closed : lines.flatten.getLast? = some c) (whole : isBreak c = false) :
    ∃ front last, lines = front ++ [last] ∧ Unbroken last ∧ last ≠ [] := by
  induction cut with
  | @last body unbroken =>
      refine ⟨[], body, rfl, unbroken, ?_⟩
      rintro rfl
      cases closed
  | @line first next rest ended apart cut induction =>
      rw [List.flatten_cons] at closed
      by_cases none : (next :: rest).flatten = []
      · rw [none, List.append_nil] at closed
        obtain ⟨d, lastOfFirst, breaks⟩ := ended.get_last?
        obtain rfl : d = c := Option.some.inj (lastOfFirst.symm.trans closed)
        rw [whole] at breaks
        cases breaks
      · rw [List.getLast?_append_of_ne_nil _ none] at closed
        obtain ⟨front, last, parts, unbroken, filled⟩ := induction closed
        exact ⟨first :: front, last, by rw [parts, List.cons_append], unbroken, filled⟩

/-- Below the last line of a text that does not end in a line break, further lines follow as they
are. -/
theorem lines_append {text ends : Text} {below : List Text} {c : Char}
    (closed : text.getLast? = some c) (whole : isBreak c = false)
    (follows : ends = [] ∧ below = [] ∨ IsTerminator ends ∧ rawLines ⟨below.flatten⟩ = below) :
    lines ⟨text ++ (ends ++ below.flatten)⟩ = lines ⟨text⟩ ++ below.map content := by
  have cut := cut_raw_lines ⟨text⟩
  have same := flatten_raw_lines ⟨text⟩
  obtain ⟨front, last, parts, unbroken, filled⟩ := cut.exists_last (same ▸ closed) whole
  have text_eq : front.flatten ++ last = text := by
    simpa [parts] using same
  have starts : (last ++ (ends ++ below.flatten)).head? ≠ some '\n' := by
    obtain ⟨d, rest, rfl⟩ := List.exists_cons_of_ne_nil filled
    intro first
    exact unbroken.ne List.mem_cons_self (by decide) (Option.some.inj first)
  have above : rawLines ⟨text ++ (ends ++ below.flatten)⟩ =
      front ++ rawLines ⟨last ++ (ends ++ below.flatten)⟩ := by
    have inside : front.length < (rawLines ⟨text⟩).length := by simp [parts]
    have taken := cut.raw_lines_take inside starts
    rw [parts, List.take_left] at taken
    rwa [← text_eq, List.append_assoc]
  have here : (rawLines ⟨last ++ (ends ++ below.flatten)⟩).map content =
      last :: below.map content := by
    rcases follows with ⟨rfl, rfl⟩ | ⟨terminates, laid⟩
    · rw [List.flatten_nil, List.append_nil, List.append_nil, raw_lines_last unbroken,
        List.map_singleton, content_unbroken unbroken, List.map_nil]
    · rw [← List.append_assoc, raw_lines_line unbroken terminates, laid, List.map_cons,
        content_line unbroken terminates]
  rw [lines, above, List.map_append, here, lines, parts, List.map_append, List.map_singleton,
    content_unbroken unbroken, List.append_assoc, List.singleton_append]

/-- Whatever takes the place of a line, the lines above and below it stay, unless a line break at
one of its ends meets theirs. -/
theorem lines_replace_line_closed {document : Document} {number : Nat} {body text : Text} {c : Char}
    (plain : Plain document.text) (found : document.line? number = some body)
    (starts : text.head? ≠ some '\n') (closed : text.getLast? = some c)
    (whole : isBreak c = false) :
    (document.replace (Edit.replaceLine number body text)).lines =
      document.lines.take number ++ (lines ⟨text⟩ ++ document.lines.drop (number + 1)) := by
  obtain ⟨line, here, rfl⟩ := line?_eq_some found
  obtain ⟨inside, line_eq⟩ := List.getElem?_eq_some_iff.mp here
  have laid := (laid_raw_lines plain).drop inside
  rw [List.drop_eq_getElem_cons inside, line_eq] at laid
  have follows : ending line = [] ∧ document.rawLines.drop (number + 1) = [] ∨
      IsTerminator (ending line) ∧ rawLines ⟨(document.rawLines.drop (number + 1)).flatten⟩ =
        document.rawLines.drop (number + 1) := by
    generalize document.rawLines.drop (number + 1) = below at laid
    cases laid with
    | last unbroken =>
        have none := ending_append unbroken (Or.inl rfl)
        rw [List.append_nil] at none
        exact Or.inl ⟨none, rfl⟩
    | line terminated laid => exact Or.inr ⟨terminated.2, laid.raw_lines_flatten⟩
  have filled : text ≠ [] := by
    rintro rfl
    cases closed
  have first : (text ++ (ending line ++ (document.rawLines.drop (number + 1)).flatten)).head? ≠
      some '\n' := by
    rwa [List.head?_append_of_ne_nil _ filled]
  have below := lines_append closed whole follows
  rw [lines] at below
  rw [replace_replace_line here, List.set_eq_take_append_cons_drop, if_pos inside,
    List.flatten_append, List.flatten_cons, List.append_assoc, lines,
    (cut_raw_lines document).raw_lines_take inside first, List.map_append, below, List.map_take,
    List.map_drop]
  rfl

end Document

/-! ### The line with the statement -/

namespace NamespaceStatement

/-- Where the namespace statement of a line stands: from the first keyword to the next semicolon. -/
structure StatementIn (line front old rest : Text) : Prop where
  keyword : FirstOccurrence "namespace".toList line front (old ++ ';' :: rest)
  ended : ';' ∉ old

def IsOpening (front : Text) : Prop :=
  front = [] ∨ ∃ space : Text, front = "<?php".toList ++ space ∧ space.IsSpace

section Restated

variable {line front old rest : Text}

theorem IsOpening.not_mem (opening : IsOpening front) : 'n' ∉ front := by
  rcases opening with rfl | ⟨space, rfl, -, blank⟩
  · exact List.not_mem_nil
  · rw [List.mem_append]
    rintro (inTag | inSpace)
    · exact absurd inTag (by decide)
    · exact absurd (blank 'n' inSpace) (by decide)

theorem IsOpening.head?_append (opening : IsOpening front) (name rest : Text) :
    ∃ c, (front ++ (statement name ++ rest)).head? = some c ∧ isBlank c = false := by
  rcases opening with rfl | ⟨space, rfl, -⟩
  · exact ⟨'n', rfl, by decide⟩
  · exact ⟨'<', rfl, by decide⟩

theorem exists_of_is_noted (noted : isNoted line = true) :
    ∃ front rest, line = front ++ ("namespace ".toList ++ rest) ∧ IsOpening front := by
  rw [isNoted] at noted
  rcases Construct.shown_by_iff.mpr noted with ⟨⟨rest, rfl⟩, -⟩ | ⟨-, space, rest, rfl, blank⟩
  · exact ⟨[], rest, rfl, Or.inl rfl⟩
  · exact ⟨"<?php".toList ++ space, rest, (List.append_assoc _ _ _).symm,
      Or.inr ⟨space, rfl, blank⟩⟩

/-- In a line that a scan notes, only an opening tag stands in front of the first keyword, and one
space stands behind it. -/
theorem StatementIn.opening (stands : StatementIn line front old rest)
    (noted : isNoted line = true) :
    IsOpening front ∧ ∃ c behind, line = front ++ ("namespace".toList ++ ' ' :: c :: behind) := by
  obtain ⟨lead, behind, parts, opening⟩ := exists_of_is_noted noted
  have split : line = lead ++ ("namespace".toList ++ ' ' :: behind) := parts
  obtain rfl : front = lead := stands.keyword.before_eq split opening.not_mem
  refine ⟨opening, ?_⟩
  have same : old ++ ';' :: rest = ' ' :: behind :=
    List.append_cancel_left (List.append_cancel_left (stands.keyword.parts.symm.trans split))
  cases old with
  | nil => cases same
  | cons d old =>
      have filled : behind ≠ [] := by
        rw [← (List.cons.inj same).2]
        exact List.append_ne_nil_of_right_ne_nil old (List.cons_ne_nil _ _)
      obtain ⟨c, behind, rfl⟩ := List.exists_cons_of_ne_nil filled
      exact ⟨c, behind, split⟩

theorem StatementIn.restate (stands : StatementIn line front old rest) (noted : isNoted line = true)
    (unbroken : Unbroken line) (name : Text) : restate name line = front ++ statement name := by
  obtain ⟨opening, c, behind, rfl⟩ := stands.opening noted
  rw [restate_append name opening.not_mem, restate_namespace name (unbroken_append.mp unbroken).2,
    statement_eq]

theorem append_statement (front name : Text) :
    front ++ statement name = front ++ ("namespace ".toList ++ name) ++ [';'] :=
  (List.append_assoc front ("namespace ".toList ++ name) [';']).symm

theorem IsOpening.trim_eq_iff (opening : IsOpening front) (name rest : Text) :
    trim (front ++ (statement name ++ rest)) = front ++ statement name ↔
      ∀ c ∈ rest, isBlank c = true := by
  obtain ⟨c, first, visible⟩ := opening.head?_append name rest
  have untrimmed : trimStart (front ++ (statement name ++ rest)) =
      front ++ (statement name ++ rest) := by
    apply trim_start_eq_self
    intro d same
    rwa [← Option.mem_unique first same]
  rw [trim, untrimmed, ← List.append_assoc, append_statement]
  exact trim_end_eq_iff (by decide)

theorem IsOpening.trim_eq_self (opening : IsOpening front) (name : Text) :
    trim (front ++ statement name) = front ++ statement name := by
  have nothing := (opening.trim_eq_iff name []).mpr (List.forall_mem_nil _)
  rwa [List.append_nil] at nothing

theorem StatementIn.edit_eq {lines : List Text} {found : Declarations} {index : Nat}
    (stands : StatementIn line front old rest) (noted : isNoted line = true)
    (unbroken : Unbroken line) (there : found.namespaceLine = some (index + 1))
    (here : lines[index]? = some line) (name : Text) :
    edit name lines found = Edit.replaceLine index line (front ++ statement name) := by
  have opening := (stands.opening noted).1
  rw [edit, there]
  dsimp only
  rw [Nat.add_sub_cancel, here, Option.getD_some, stands.restate noted unbroken name,
    opening.trim_eq_self name]

end Restated

end NamespaceStatement

/-! ### The document with the new statement -/

namespace Block

theorem is_noted_of_scan {lines : List Text} {block : Block} {index : Nat} {line : Text}
    (scanned : scan lines none = .ok block)
    (there : block.declarations.namespaceLine = some (index + 1))
    (here : lines[index]? = some line) : NamespaceStatement.isNoted line = true := by
  rw [namespace_line_of_scan scanned, Option.map_eq_some_iff] at there
  obtain ⟨found, first, same⟩ := there
  obtain rfl : found = index := Nat.succ.inj same
  obtain ⟨inside, noted, -⟩ := List.findIdx?_eq_some_iff_getElem.mp first
  rw [List.getElem?_eq_getElem inside] at here
  rwa [Option.some.inj here] at noted

end Block

namespace Document

open NamespaceStatement

/-- A namespace that is written over another leaves the other lines, and what stands in front of the
statement on its own line. What stands behind the statement there stays exactly if it is blank. -/
theorem namespace_replaced_to_line_end (document : Document) (name : Text) {block : Block}
    {index : Nat} {line front old rest : Text} (plain : Plain document.text)
    (scanned : Block.scan document.lines none = .ok block)
    (there : block.declarations.namespaceLine = some (index + 1))
    (here : document.line? index = some line) (stands : StatementIn line front old rest) :
    (document.replaceAll [edit name document.lines block.declarations]).lines =
        document.lines.take index ++
          (lines ⟨front ++ statement name⟩ ++ document.lines.drop (index + 1)) ∧
      (Unbroken name → lines ⟨front ++ statement name⟩ = [front ++ statement name]) ∧
      (trim (front ++ statement name) = trim (front ++ (statement name ++ rest)) ↔
        ∀ c ∈ rest, isBlank c = true) := by
  have noted := Block.is_noted_of_scan scanned there here
  obtain ⟨_, _, lineAt⟩ := exists_line_at plain here
  have opening := (stands.opening noted).1
  refine ⟨?_, ?_, ?_⟩
  · change (document.replace (edit name document.lines block.declarations)).lines = _
    rw [stands.edit_eq noted lineAt.unbroken there here name]
    have starts : (front ++ statement name).head? ≠ some '\n' := by
      obtain ⟨c, first, visible⟩ := opening.head?_append name []
      rw [List.append_nil] at first
      intro feed
      rw [Option.mem_unique first feed] at visible
      exact absurd visible (by decide)
    have closed : (front ++ statement name).getLast? = some ';' := by
      rw [append_statement, List.getLast?_concat]
    exact lines_replace_line_closed plain here starts closed (by decide)
  · intro unbroken
    have frontUnbroken : Unbroken front := by
      have whole := lineAt.unbroken
      rw [stands.keyword.parts] at whole
      exact (unbroken_append.mp whole).1
    have member : "namespace".toList ∈ keywords := List.mem_cons_self
    exact lines_last (unbroken_append.mpr ⟨frontUnbroken, unbroken_declaring member unbroken⟩)
  · rw [opening.trim_eq_self name, eq_comm]
    exact opening.trim_eq_iff name rest

def looselyDeclared : Document :=
  ⟨"<?php\tnamespace Old ; \t\r\n\r\nuse A\\B;\nclass A".toList⟩

theorem namespace_replaced_to_line_end_loosely_declared :
    StatementIn "<?php\tnamespace Old ; \t".toList "<?php\t".toList " Old ".toList " \t".toList ∧
      ∃ block, Block.scan looselyDeclared.lines none = .ok block ∧
        (looselyDeclared.replaceAll [edit "App\\Http".toList looselyDeclared.lines
          block.declarations]).lines = ["<?php\tnamespace App\\Http;".toList, [],
            "use A\\B;".toList, "class A".toList] := by
  have stands : StatementIn "<?php\tnamespace Old ; \t".toList "<?php\t".toList " Old ".toList
      " \t".toList :=
    ⟨first_occurrence_of_cut_at_text? (by decide +kernel), by decide⟩
  have scanned := Block.scan_none looselyDeclared.lines
  have here : looselyDeclared.line? 0 = some "<?php\tnamespace Old ; \t".toList := by decide +kernel
  refine ⟨stands, _, scanned, ?_⟩
  obtain ⟨written, single, -⟩ := namespace_replaced_to_line_end looselyDeclared "App\\Http".toList
    (by decide) scanned (by decide +kernel) here stands
  rw [single (by decide)] at written
  exact written.trans (by decide +kernel)

/-- A class on the line of the namespace statement is lost. -/
theorem namespace_replaced_drops_class :
    let document : Document := ⟨"<?php\nnamespace Old; class A \x7b\x7d\n".toList⟩
    ∃ block, Block.scan document.lines none = .ok block ∧
      block.declarations.namespaceLine = some 2 ∧
      StatementIn "namespace Old; class A \x7b\x7d".toList [] " Old".toList
        " class A \x7b\x7d".toList ∧
      document.line? 1 = some "namespace Old; class A \x7b\x7d".toList ∧
      (document.replaceAll [edit "App".toList document.lines block.declarations]).line? 1 =
        some "namespace App;".toList :=
  ⟨_, Block.scan_none _, by decide +kernel,
    ⟨first_occurrence_of_cut_at_text? (by decide +kernel), by decide⟩, by decide +kernel,
    by decide +kernel⟩

end Document
end PhpNames
