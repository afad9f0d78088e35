import Mathlib.Data.List.DropRight
import PhpNames.Proofs.NamespaceLine
import PhpNames.Proofs.NewUseLine

/-!
A namespace that is written into a document is read back.

The statement either takes the place of the one that was there, or comes on a line of its own. In
both cases nothing above it can be taken for a namespace statement, so it is the one that is read
and noted, and to write the same name again changes nothing.
-/

namespace PhpNames

open Text

namespace NamespaceStatement

structure Writable (name : Text) : Prop where
  nonempty : name ≠ []
  unbroken : Unbroken name
  unended : ';' ∉ name
  trimmed : trim name = name

/-- The statement for a name, in one of the ways in which a line can begin with it. -/
def declaring (keyword name : Text) : Text :=
  keyword ++ ' ' :: (name ++ [';'])

def hasOtherBlank (line : Text) : Bool :=
  keywords.any fun keyword =>
    ((keyword.isPrefixOf? line).bind List.head?).any fun c => isBlank c && c != ' '

def isFollowed (line : Text) : Bool :=
  keywords.any fun keyword => ((keyword ++ [' ']).isPrefixOf? line).any fun rest => !rest.isEmpty

/-! ### The name of a written statement -/

section Reading

variable {keyword name text rest : Text} {c : Char}

theorem Writable.trim_parts (writable : Writable name) :
    trimStart name = name ∧ trimEnd name = name := by
  have shorter : (trimEnd (trimStart name)).length ≤ (trimStart name).length := by
    rw [trimEnd, List.length_reverse]
    exact (List.dropWhile_suffix isBlank).length_le.trans_eq List.length_reverse
  have trimmed : trimEnd (trimStart name) = name := writable.trimmed
  rw [trimmed] at shorter
  have start : trimStart name = name :=
    (List.dropWhile_suffix isBlank).eq_of_length_le shorter
  rw [start] at trimmed
  exact ⟨start, trimmed⟩

theorem Writable.head_not_blank (writable : Writable (c :: rest)) : isBlank c = false := by
  have kept := List.dropWhile_eq_self_iff.mp writable.trim_parts.1 (Nat.succ_pos _)
  simpa using kept

theorem Writable.last_not_blank (writable : Writable name) (nonempty : name ≠ []) :
    isBlank (name.getLast nonempty) = false := by
  have kept := List.rdropWhile_eq_self_iff.mp writable.trim_parts.2 nonempty
  simpa using kept

theorem ends_here_append (nonempty : text ≠ []) (unended : ';' ∉ text)
    (last : isBlank (text.getLast nonempty) = false) : endsHere (text ++ [';']) = false := by
  induction text with
  | nil => exact absurd rfl nonempty
  | cons c rest induction =>
      have other : c ≠ ';' := fun same => unended (same ▸ List.mem_cons_self)
      cases blank : isBlank c with
      | false =>
          rw [endsHere, List.cons_append, List.dropWhile_cons_of_neg (by simp [blank])]
          simpa using other
      | true =>
          have more : rest ≠ [] := by
            rintro rfl
            rw [List.getLast_singleton, blank] at last
            cases last
          rw [List.getLast_cons more] at last
          have further :=
            induction more (fun member => unended (List.mem_cons_of_mem c member)) last
          rw [endsHere, List.cons_append, List.dropWhile_cons_of_pos blank]
          exact further

theorem shortest_name?_append (nonempty : name ≠ []) (sameLine : '\n' ∉ name) (unended : ';' ∉ name)
    (last : isBlank (name.getLast nonempty) = false) :
    shortestName? (name ++ [';']) = some name := by
  -- a shorter name would need the end of the statement right behind it, or behind blanks only
  induction name with
  | nil => exact absurd rfl nonempty
  | cons c rest induction =>
      have notFeed : c ≠ '\n' := fun same => sameLine (same ▸ List.mem_cons_self)
      have restUnended : ';' ∉ rest := fun member => unended (List.mem_cons_of_mem c member)
      rw [List.cons_append, shortestName?, if_neg notFeed]
      by_cases more : rest = []
      · rw [more]
        rfl
      · rw [List.getLast_cons more] at last
        have further := induction more (fun member => sameLine (List.mem_cons_of_mem c member))
          restUnended last
        rw [ends_here_append more restUnended last, if_neg Bool.false_ne_true, further,
          Option.map_some]

theorem Writable.name_after_blank?_eq (writable : Writable name) :
    nameAfterBlank? (' ' :: (name ++ [';'])) = some name := by
  have sameLine : '\n' ∉ name := fun member => writable.unbroken.ne member (by decide) rfl
  have found := shortest_name?_append writable.nonempty sameLine writable.unended
    (writable.last_not_blank writable.nonempty)
  have notFurther : nameAfterBlank? (name ++ [';']) = none := by
    cases name with
    | nil => exact absurd rfl writable.nonempty
    | cons c rest =>
        rw [List.cons_append, nameAfterBlank?, writable.head_not_blank, if_neg Bool.false_ne_true]
  rw [nameAfterBlank?, if_pos (by decide), notFurther, Option.none_or, found]

theorem name_in?_declaring (member : keyword ∈ keywords) (writable : Writable name) :
    nameIn? (declaring keyword name) = some name := by
  rw [declaring, name_in?_keyword member, writable.name_after_blank?_eq]

theorem is_noted_declaring (member : keyword ∈ keywords) (name : Text) :
    isNoted (declaring keyword name) = true := by
  rw [declaring, is_noted_keyword member]
  rfl

end Reading

/-! ### Restating -/

section Restating

variable {keyword name text rest : Text} {c : Char}

theorem unbroken_declaring (member : keyword ∈ keywords) (unbroken : Unbroken name) :
    Unbroken (declaring keyword name) := by
  have keywordUnbroken : ∀ keyword ∈ keywords, Unbroken keyword := by decide
  have named : Unbroken (name ++ [';']) := unbroken_append.mpr ⟨unbroken, by decide⟩
  exact unbroken_append.mpr ⟨keywordUnbroken keyword member, unbroken_cons.mpr ⟨by decide, named⟩⟩

theorem restate_append (name : Text) {front : Text} (other : 'n' ∉ front) (text : Text) :
    restate name (front ++ text) = front ++ restate name text := by
  induction front with
  | nil => rfl
  | cons c rest induction =>
      have different : c ≠ 'n' := fun same => other (same ▸ List.mem_cons_self)
      have notHere : startsHere (c :: (rest ++ text)) = false := by
        have mismatch : "namespace ".toList.isPrefixOf? (c :: (rest ++ text)) = none := by
          change (if ('n' == c) = true then _ else none) = none
          rw [if_neg (by simpa using different.symm)]
        rw [startsHere, mismatch]
      rw [List.cons_append, restate, notHere, if_neg Bool.false_ne_true,
        induction fun member => other (List.mem_cons_of_mem c member), List.cons_append]

theorem restate_of_starts_here (name : Text) (starts : startsHere text = true)
    (unbroken : Unbroken text) : restate name text = statement name := by
  cases text with
  | nil => cases starts
  | cons c rest =>
      have nothing : (c :: rest).dropWhile (· != '\n') = [] := by
        rw [List.dropWhile_eq_nil_iff]
        intro other member
        simpa using unbroken.ne member (by decide)
      rw [restate, if_pos starts, nothing, List.append_nil]

theorem statement_eq (name : Text) : statement name = declaring "namespace".toList name := rfl

theorem restate_namespace (name : Text)
    (unbroken : Unbroken ("namespace".toList ++ ' ' :: c :: rest)) :
    restate name ("namespace".toList ++ ' ' :: c :: rest) = declaring "namespace".toList name := by
  have member : c ∈ "namespace".toList ++ ' ' :: c :: rest := List.mem_append_right _ (by simp)
  have notFeed : c ≠ '\n' := unbroken.ne member (by decide)
  have behind : "namespace ".toList.isPrefixOf? ("namespace".toList ++ ' ' :: c :: rest) =
      some (c :: rest) := rfl
  have starts : startsHere ("namespace".toList ++ ' ' :: c :: rest) = true := by
    rw [startsHere, behind]
    simpa using notFeed
  rw [restate_of_starts_here name starts unbroken, statement_eq]

/-- A statement is replaced, and what stands before it stays. -/
theorem restate_keyword (member : keyword ∈ keywords) (name : Text)
    (unbroken : Unbroken (keyword ++ ' ' :: c :: rest)) :
    restate name (keyword ++ ' ' :: c :: rest) = declaring keyword name := by
  simp only [keywords, List.mem_cons, List.not_mem_nil, or_false] at member
  rcases member with rfl | rfl
  · exact restate_namespace name unbroken
  · have split : "<?php namespace".toList ++ ' ' :: c :: rest =
        "<?php ".toList ++ ("namespace".toList ++ ' ' :: c :: rest) := rfl
    rw [split] at unbroken ⊢
    rw [restate_append name (by decide), restate_namespace name (unbroken_append.mp unbroken).2]
    rfl

theorem trim_declaring (member : keyword ∈ keywords) (name : Text) :
    trim (declaring keyword name) = declaring keyword name := by
  have start : trimStart (declaring keyword name) = declaring keyword name := by
    simp only [keywords, List.mem_cons, List.not_mem_nil, or_false] at member
    rcases member with rfl | rfl <;> rfl
  have split : declaring keyword name = (keyword ++ ' ' :: name) ++ [';'] := by simp [declaring]
  rw [trim, start, split]
  exact List.rdropWhile_concat_neg _ _ _ (by decide)

end Restating

/-! ### Lines that are noted or read -/

section Lines

variable {line : Text}

theorem exists_of_is_followed (followed : isFollowed line = true) :
    ∃ keyword ∈ keywords, ∃ c rest, line = keyword ++ ' ' :: c :: rest := by
  obtain ⟨keyword, member, found⟩ := List.any_eq_true.mp followed
  obtain ⟨behind, starts, more⟩ := (Option.any_eq_true _ _).mp found
  have line_eq := List.isPrefixOf?_eq_some_iff_append_eq.mp starts
  cases behind with
  | nil => cases more
  | cons c rest => exact ⟨keyword, member, c, rest, by rw [← line_eq, List.append_assoc]; rfl⟩

/-- Without other blank space, whatever is read is noted as well. -/
theorem is_noted_of_is_read (spaced : hasOtherBlank line = false) (read : isRead line = true) :
    isNoted line = true := by
  obtain ⟨name, found⟩ := Option.isSome_iff_exists.mp read
  obtain ⟨keyword, member, behind, rfl, searched⟩ := name_in?_eq_some found
  obtain ⟨c, rest, rfl, blank⟩ := name_after_blank?_cons searched
  rw [is_noted_keyword member]
  have starts : keyword.isPrefixOf? (keyword ++ c :: rest) = some (c :: rest) :=
    List.isPrefixOf?_eq_some_iff_append_eq.mpr rfl
  have allowed := List.any_eq_false.mp spaced keyword member
  rw [starts] at allowed
  simpa [blank] using allowed

end Lines

/-! ### The edit -/

section Editing

variable {keyword rest : Text} {c : Char} {lines : List Text} {found : Declarations} {index : Nat}

theorem edit_of_noted (name : Text) (member : keyword ∈ keywords)
    (noted : found.namespaceLine = some (index + 1))
    (here : lines[index]? = some (keyword ++ ' ' :: c :: rest))
    (unbroken : Unbroken (keyword ++ ' ' :: c :: rest)) :
    edit name lines found =
      Edit.replaceLine index (keyword ++ ' ' :: c :: rest) (declaring keyword name) := by
  rw [edit, noted]
  dsimp only
  rw [Nat.add_sub_cancel, here, Option.getD_some, restate_keyword member name unbroken,
    trim_declaring member]

theorem edit_of_absent (absent : found.namespaceLine = none) (name : Text) (lines : List Text) :
    edit name lines found = Edit.insert ⟨(found.declareLine.or found.openingTag).getD 0, 0⟩
      (([[], statement name] : List Text).map (· ++ ['\n'])).flatten := by
  rw [edit, absent]
  simp

end Editing

end NamespaceStatement

/-! ### Documents that declare a namespace -/

namespace Document

open NamespaceStatement

variable {document : Document} {name body text : Text} {number : Nat}

/-- Whether the first line that is noted or read is the statement for a name. -/
def Declares (document : Document) (name : Text) : Prop :=
  ∃ keyword ∈ keywords, ∃ front back, document.lines = front ++ declaring keyword name :: back ∧
    ∀ line ∈ front, isNoted line = false ∧ isRead line = false

theorem find_idx?_append_cons {p : Text → Bool} {front back : List Text} {line : Text}
    (passed : ∀ other ∈ front, p other = false) (stops : p line = true) :
    (front ++ line :: back).findIdx? p = some front.length := by
  rw [List.findIdx?_append, List.findIdx?_eq_none_iff.mpr passed, Option.none_or,
    List.findIdx?_cons, if_pos stops, Option.map_some, Nat.zero_add]

theorem Declares.declared? (declares : document.Declares name) (writable : Writable name) :
    NamespaceStatement.declared? document.lines = some name := by
  obtain ⟨keyword, member, front, back, lines_eq, above⟩ := declares
  have unread : ∀ line ∈ front, nameIn? line = none := by
    intro line inFront
    simpa [isRead] using (above line inFront).2
  rw [NamespaceStatement.declared?, lines_eq, List.findSome?_append,
    List.findSome?_eq_none_iff.mpr unread, Option.none_or, List.findSome?_cons,
    name_in?_declaring member writable]

theorem replace_replace_line_self (found : document.line? number = some body) :
    document.replace (Edit.replaceLine number body body) = document := by
  obtain ⟨line, here, rfl⟩ := line?_eq_some found
  obtain ⟨inside, line_eq⟩ := List.getElem?_eq_some_iff.mp here
  rw [replace_replace_line here, content_append_ending, ← line_eq, List.set_getElem_self,
    flatten_raw_lines]

/-- In such a document the statement is found where it is read, and written once more it stays. -/
theorem Declares.settled (declares : document.Declares name) (writable : Writable name) :
    ∃ block index, Block.scan document.lines none = .ok block ∧
      readLine? document.lines = some index ∧ block.declarations.namespaceLine = some (index + 1) ∧
      document.replaceAll [edit name document.lines block.declarations] = document := by
  obtain ⟨keyword, member, front, back, lines_eq, above⟩ := declares
  have scanned := Block.scan_none document.lines
  have noted := Block.namespace_line_of_scan scanned
  rw [lines_eq, find_idx?_append_cons (fun line inFront => (above line inFront).1)
    (is_noted_declaring member name), Option.map_some, ← lines_eq] at noted
  have readable : isRead (declaring keyword name) = true := by
    rw [isRead, name_in?_declaring member writable]
    rfl
  have read : readLine? document.lines = some front.length := by
    rw [readLine?, lines_eq]
    exact find_idx?_append_cons (fun line inFront => (above line inFront).2) readable
  have here : document.lines[front.length]? = some (declaring keyword name) := by
    rw [lines_eq, List.getElem?_append_right (le_refl _), Nat.sub_self, List.getElem?_cons_zero]
  refine ⟨_, front.length, scanned, read, noted, ?_⟩
  obtain ⟨c, rest, behind⟩ := List.exists_cons_of_ne_nil
    (List.append_ne_nil_of_right_ne_nil name (List.cons_ne_nil ';' []))
  have split : declaring keyword name = keyword ++ ' ' :: c :: rest := by rw [declaring, behind]
  have unbroken := unbroken_declaring member writable.unbroken
  have again := edit_of_noted name member noted (split ▸ here) (split ▸ unbroken)
  change document.replace (edit name document.lines _) = document
  rw [again, ← split]
  exact replace_replace_line_self here

/-! ### Writing a namespace -/

theorem lines_replace_line (plain : Plain document.text) (found : document.line? number = some body)
    (unbroken : Unbroken text) :
    (document.replace (Edit.replaceLine number body text)).lines =
      document.lines.set number text := by
  obtain ⟨line, here, rfl⟩ := line?_eq_some found
  rw [lines, raw_lines_replace_line plain here unbroken, List.map_set,
    content_append unbroken (ending_cases line), lines]

theorem declares_replaced {keyword : Text} (plain : Plain document.text)
    (member : keyword ∈ keywords) (nameUnbroken : Unbroken name)
    (found : document.line? number = some body)
    (above : ∀ line ∈ document.lines.take number, isNoted line = false ∧ isRead line = false) :
    Declares (document.replace (Edit.replaceLine number body (declaring keyword name))) name := by
  have inside := (List.getElem?_eq_some_iff.mp found).1
  refine ⟨keyword, member, document.lines.take number, document.lines.drop (number + 1), ?_, above⟩
  rw [lines_replace_line plain found (unbroken_declaring member nameUnbroken),
    List.set_eq_take_append_cons_drop, if_pos inside]

/-- Behind an empty line, a new line stands on its own wherever it is inserted. -/
theorem exists_lines_insert (plain : Plain document.text) (unbroken : Unbroken body)
    (within : number ≤ document.lines.length) :
    ∃ front back, (document.replace (Edit.insert ⟨number, 0⟩
        (([[], body] : List Text).map (· ++ ['\n'])).flatten)).lines = front ++ body :: back ∧
      ∀ line ∈ front, line ∈ document.lines ∨ line = [] := by
  have newUnbroken : ∀ line ∈ ([[], body] : List Text), Unbroken line :=
    List.forall_mem_cons.mpr ⟨by simp [Unbroken], List.forall_mem_singleton.mpr unbroken⟩
  rw [length_lines] at within
  rcases within.lt_or_eq with inside | atEnd
  · refine ⟨document.lines.take number ++ [[]], document.lines.drop number, ?_, ?_⟩
    · rw [lines, raw_lines_insert plain inside (terminated_line_feed newUnbroken), List.map_append,
        List.map_append, map_content_line_feed newUnbroken, lines, List.map_take, List.map_drop]
      simp
    · intro line inFront
      rcases List.mem_append.mp inFront with old | new
      · exact Or.inl (List.mem_of_mem_take old)
      · exact Or.inr (List.mem_singleton.mp new)
  · obtain ⟨front, last, raw, terminated, lastUnbroken⟩ := (laid_raw_lines plain).exists_last
    have lines_eq : document.lines = front.map content ++ [last] := by
      simp [lines, raw, content_unbroken lastUnbroken]
    have below := lines_terminated terminated [last, body]
      (List.forall_mem_cons.mpr ⟨lastUnbroken, List.forall_mem_singleton.mpr unbroken⟩)
    refine ⟨document.lines, [[]], ?_, fun line old => Or.inl old⟩
    rw [replace_insert, atEnd, List.take_length, List.drop_length, raw, lines_eq]
    simpa using below

theorem declares_inserted (plain : Plain document.text) (nameUnbroken : Unbroken name)
    (within : number ≤ document.lines.length)
    (clear : ∀ line ∈ document.lines, isNoted line = false ∧ isRead line = false) :
    Declares (document.replace (Edit.insert ⟨number, 0⟩
      (([[], statement name] : List Text).map (· ++ ['\n'])).flatten)) name := by
  have member : "namespace".toList ∈ keywords := List.mem_cons_self
  obtain ⟨front, back, lines_eq, old⟩ :=
    exists_lines_insert plain (unbroken_declaring member nameUnbroken) within
  refine ⟨"namespace".toList, member, front, back, lines_eq, ?_⟩
  intro line inFront
  rcases old line inFront with inDocument | rfl
  · exact clear line inDocument
  · decide

/-- A new statement goes below a line of the document, or to its top. -/
theorem insertion_within {block : Block} (scanned : Block.scan document.lines none = .ok block) :
    (block.declarations.declareLine.or block.declarations.openingTag).getD 0 ≤
      document.lines.length := by
  obtain ⟨reached, records⟩ := Block.exists_records scanned
  cases below : block.declarations.declareLine.or block.declarations.openingTag with
  | none => exact Nat.zero_le _
  | some number =>
      have mentions : block.declarations.Mentions number := by
        rcases Option.or_eq_some_iff.mp below with declared | ⟨-, opened⟩
        · exact Or.inr (Or.inl declared.symm)
        · exact Or.inl opened.symm
      obtain ⟨line, body, rfl, found, -⟩ := records.mentions number mentions
      exact (List.getElem?_eq_some_iff.mp found).1

theorem declares_edit {block : Block} (plain : Plain document.text) (nameUnbroken : Unbroken name)
    (spaced : ∀ line ∈ document.lines, hasOtherBlank line = false)
    (followed : ∀ line ∈ document.lines, isNoted line = true → isFollowed line = true)
    (scanned : Block.scan document.lines none = .ok block) :
    Declares (document.replaceAll [edit name document.lines block.declarations]) name := by
  -- so a line above the first that is noted can be taken for a statement by neither reader
  have unread : ∀ line ∈ document.lines, isNoted line = false → isRead line = false := by
    intro line member unnoted
    cases read : isRead line with
    | false => rfl
    | true =>
        rw [is_noted_of_is_read (spaced line member) read] at unnoted
        exact unnoted
  have noted := Block.namespace_line_of_scan scanned
  change Declares (document.replace (edit name document.lines block.declarations)) name
  cases first : document.lines.findIdx? isNoted with
  | none =>
      have clear := List.findIdx?_eq_none_iff.mp first
      rw [first] at noted
      rw [edit_of_absent noted]
      exact declares_inserted plain nameUnbroken (insertion_within scanned)
        fun line member => ⟨clear line member, unread line member (clear line member)⟩
  | some index =>
      rw [first] at noted
      obtain ⟨inside, noticed, before⟩ := List.findIdx?_eq_some_iff_getElem.mp first
      have above : ∀ line ∈ document.lines.take index,
          isNoted line = false ∧ isRead line = false := by
        intro line member
        obtain ⟨other, otherLt, rfl⟩ := List.mem_take_iff_getElem.mp member
        have unnoted := Bool.eq_false_iff.mpr (before other (by omega))
        exact ⟨unnoted, unread _ (List.getElem_mem _) unnoted⟩
      obtain ⟨keyword, member, c, rest, line_eq⟩ :=
        exists_of_is_followed (followed _ (List.getElem_mem inside) noticed)
      have here : document.line? index = some (keyword ++ ' ' :: c :: rest) := by
        rw [line?, List.getElem?_eq_getElem inside, line_eq]
      obtain ⟨_, _, lineAt⟩ := exists_line_at plain here
      rw [edit_of_noted name member noted here lineAt.unbroken]
      exact declares_replaced plain member nameUnbroken here above

/-- A namespace that is written into a document is the one that is read and noted, and written once
more it stays. -/
theorem namespace_written_is_read (document : Document) (name : Text) (plain : Plain document.text)
    (writable : Writable name)
    (spaced : ∀ line ∈ document.lines, hasOtherBlank line = false)
    (followed : ∀ line ∈ document.lines, isNoted line = true → isFollowed line = true) :
    ∃ block written after index, Block.scan document.lines none = .ok block ∧
      written = document.replaceAll [edit name document.lines block.declarations] ∧
      declared? written.lines = some name ∧ readLine? written.lines = some index ∧
      Block.scan written.lines none = .ok after ∧
      after.declarations.namespaceLine = some (index + 1) ∧
      written.replaceAll [edit name written.lines after.declarations] = written := by
  have scanned := Block.scan_none document.lines
  have declares := declares_edit plain writable.unbroken spaced followed scanned
  obtain ⟨after, index, again, read, noted, same⟩ := declares.settled writable
  exact ⟨_, _, after, index, scanned, rfl, declares.declared? writable, read, again, noted, same⟩

def twiceDeclared : Document :=
  ⟨"<?php\r\n<?php namespace Old ; // first\r\nuse A\\B;\nnamespace Second;".toList⟩

theorem namespace_written_is_read_twice_declared :
    ∃ block after, Block.scan twiceDeclared.lines none = .ok block ∧
      declared? (twiceDeclared.replaceAll
        [edit "App\\My Models".toList twiceDeclared.lines block.declarations]).lines =
          some "App\\My Models".toList ∧
      Block.scan (twiceDeclared.replaceAll
        [edit "App\\My Models".toList twiceDeclared.lines block.declarations]).lines none =
          .ok after ∧ after.declarations.namespaceLine.isSome = true := by
  have writable : Writable "App\\My Models".toList := ⟨by decide, by decide, by decide, by decide⟩
  obtain ⟨block, written, after, index, scanned, rfl, declared, -, again, noted, -⟩ :=
    namespace_written_is_read twiceDeclared "App\\My Models".toList (by decide) writable (by decide)
      (by decide)
  exact ⟨block, after, scanned, declared, again, by rw [noted]; rfl⟩

end Document
end PhpNames
