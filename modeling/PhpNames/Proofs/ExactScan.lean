import Mathlib.Order.Bounds.Basic
import PhpNames.Proofs.Scanning

/-!
The exact meaning of a scan of the declaration block.

What a line shows is said here by the texts that it starts with or holds, without the scan. A scan
stops in front of the first line that has every construct above it. Of the lines that it reads it
gives the `use` lines, and for each construct the first line that shows it, for `use` the last. It
looks for the class that it is told to look for up to the line at which it stops.
-/

namespace PhpNames

open Text

/-! ### Classes of characters -/

namespace Text

def Ranges.points (ranges : Ranges) : List Nat :=
  ranges.flatMap fun range => List.range' range.1 (range.2 + 1 - range.1)

theorem Ranges.mem_points {ranges : Ranges} {point : Nat} (inside : ranges.has point = true) :
    point ∈ ranges.points := by
  induction ranges with
  | nil => cases inside
  | cons range rest induction =>
      obtain ⟨low, high⟩ := range
      rw [Ranges.points, List.flatMap_cons, List.mem_append]
      rw [Ranges.has] at inside
      split at inside
      · cases inside
      · split at inside
        · left
          rw [List.mem_range'_1]
          omega
        · exact Or.inr (induction inside)

theorem is_word_char_of_is_blank {c : Char} (blank : isBlank c = true) : isWordChar c = false := by
  have checked : ∀ point ∈ blankRanges.points, isWordChar (Char.ofNat point) = false := by
    decide +kernel
  have here := checked c.toNat (Ranges.mem_points blank)
  rwa [Char.ofNat_toNat] at here

theorem drop_while_blank_append {space : Text} (blank : ∀ c ∈ space, isBlank c = true)
    {rest : Text} (ends : ∀ c ∈ rest.head?, isBlank c = false) :
    (space ++ rest).dropWhile isBlank = rest := by
  rw [List.dropWhile_append_of_pos blank]
  cases rest with
  | nil => rfl
  | cons c rest => rw [List.dropWhile_cons_of_neg (by simp [ends c rfl])]

end Text

/-! ### What a line shows -/

/-- A text that consists of blank space, of one character at least. -/
def Text.IsSpace (text : Text) : Prop :=
  text ≠ [] ∧ ∀ c ∈ text, isBlank c = true

def DeclaresType (line : Text) : Prop :=
  ∃ before space word after, ∃ keyword ∈ ["class".toList, "trait".toList, "interface".toList],
    line = before ++ (keyword ++ (space ++ (word ++ after))) ∧ space.IsSpace ∧
      word ≠ [] ∧ ∀ c ∈ word, isWordChar c = true

def TagWithNamespace (line : Text) : Prop :=
  ∃ space rest, line = "<?php".toList ++ (space ++ ("namespace ".toList ++ rest)) ∧ space.IsSpace

namespace Construct

def Fits : Construct → Text → Prop
  | .openingTag, line => "<?php".toList <+: line
  | .declareStatement, line => "declare".toList <+: line
  | .namespaceStatement, line => "namespace ".toList <+: line
  | .useStatement, line => "use ".toList <+: line
  | .typeDeclaration, line => DeclaresType line

/-- The place of a construct in the order in which a line is compared with them. -/
def rank : Construct → Nat
  | .openingTag => 0
  | .declareStatement => 1
  | .namespaceStatement => 2
  | .useStatement => 3
  | .typeDeclaration => 4

/-- Whether a line shows a construct: it is the first in order that the line looks like, or the
namespace behind an opening tag. -/
def ShownBy (construct : Construct) (line : Text) : Prop :=
  (construct.Fits line ∧ ∀ other : Construct, other.rank < construct.rank → ¬ other.Fits line) ∨
    construct = .namespaceStatement ∧ TagWithNamespace line

end Construct

theorem starts_with_name_iff {text : Text} :
    startsWithName text = true ↔ ∃ space word after, text = space ++ (word ++ after) ∧
      space.IsSpace ∧ word ≠ [] ∧ ∀ c ∈ word, isWordChar c = true := by
  constructor
  · intro starts
    cases text with
    | nil => cases starts
    | cons c rest =>
        rw [startsWithName, Bool.and_eq_true, Option.any_eq_true] at starts
        obtain ⟨blank, d, first, isWord⟩ := starts
        obtain ⟨after, behind⟩ := List.head?_eq_some_iff.mp first
        refine ⟨c :: rest.takeWhile isBlank, [d], after, ?_, ⟨by simp, ?_⟩, by simp, by simpa⟩
        · rw [List.singleton_append, ← behind, List.cons_append, List.takeWhile_append_dropWhile]
        · exact List.forall_mem_cons.mpr ⟨blank, fun _ => List.mem_takeWhile_imp⟩
  · rintro ⟨space, word, after, rfl, ⟨someSpace, blank⟩, someWord, letters⟩
    obtain ⟨c, space, rfl⟩ := List.exists_cons_of_ne_nil someSpace
    obtain ⟨d, word, rfl⟩ := List.exists_cons_of_ne_nil someWord
    obtain ⟨first, blanks⟩ := List.forall_mem_cons.mp blank
    have isWord := letters d List.mem_cons_self
    have notBlank : isBlank d = false := by
      by_contra isBlank
      rw [is_word_char_of_is_blank (by simpa using isBlank)] at isWord
      cases isWord
    have behind := drop_while_blank_append blanks
      (show ∀ e ∈ (d :: word ++ after).head?, isBlank e = false by simpa using notBlank)
    rw [List.cons_append, startsWithName, first, behind]
    exact isWord

theorem declares_type_here_iff {text : Text} :
    declaresTypeHere text = true ↔ ∃ space word after,
      ∃ keyword ∈ ["class".toList, "trait".toList, "interface".toList],
      text = keyword ++ (space ++ (word ++ after)) ∧ space.IsSpace ∧ word ≠ [] ∧
        ∀ c ∈ word, isWordChar c = true := by
  simp only [declaresTypeHere, typeKeywords, List.any_eq_true, Option.any_eq_true,
    List.isPrefixOf?_eq_some_iff_append_eq]
  constructor
  · rintro ⟨keyword, member, behind, rfl, named⟩
    obtain ⟨space, word, after, rfl, blank, letters⟩ := starts_with_name_iff.mp named
    exact ⟨space, word, after, keyword, member, rfl, blank, letters⟩
  · rintro ⟨space, word, after, keyword, member, rfl, blank, letters⟩
    exact ⟨keyword, member, _, rfl,
      starts_with_name_iff.mpr ⟨space, word, after, rfl, blank, letters⟩⟩

theorem declares_type_iff {line : Text} : declaresType line = true ↔ DeclaresType line := by
  induction line with
  | nil =>
      apply iff_of_false Bool.false_ne_true
      rintro ⟨before, space, word, after, keyword, -, split, ⟨someSpace, -⟩, -⟩
      simp only [List.nil_eq, List.append_eq_nil_iff] at split
      exact someSpace split.2.2.1
  | cons c rest induction =>
      rw [declaresType, Bool.or_eq_true, declares_type_here_iff, induction]
      constructor
      · rintro (⟨space, word, after, keyword, member, split, named⟩ |
          ⟨before, space, word, after, keyword, member, rfl, named⟩)
        · exact ⟨[], space, word, after, keyword, member, split, named⟩
        · exact ⟨c :: before, space, word, after, keyword, member, rfl, named⟩
      · rintro ⟨before, space, word, after, keyword, member, split, named⟩
        cases before with
        | nil => exact Or.inl ⟨space, word, after, keyword, member, split, named⟩
        | cons d before =>
            obtain ⟨rfl, rfl⟩ := List.cons.inj split
            exact Or.inr ⟨before, space, word, after, keyword, member, rfl, named⟩

instance (line : Text) : Decidable (DeclaresType line) := decidable_of_iff _ declares_type_iff

theorem tag_with_namespace_iff {afterTag : Text} :
    TagWithNamespace ("<?php".toList ++ afterTag) ↔ namespaceFollows afterTag = true := by
  have apart : ∀ rest : Text, ∀ c ∈ ("namespace ".toList ++ rest).head?, isBlank c = false := by
    intro rest c first
    obtain rfl : 'n' = c := Option.some.inj first
    decide
  rw [namespaceFollows, Bool.and_eq_true, Option.any_eq_true]
  constructor
  · rintro ⟨space, rest, split, someSpace, blank⟩
    obtain rfl := List.append_cancel_left split
    obtain ⟨c, space, rfl⟩ := List.exists_cons_of_ne_nil someSpace
    refine ⟨⟨c, rfl, blank c List.mem_cons_self⟩, ?_⟩
    rw [trimStart, drop_while_blank_append blank (apart rest)]
    exact List.isPrefixOf_iff_prefix.mpr (List.prefix_append _ _)
  · rintro ⟨⟨c, first, blank⟩, follows⟩
    obtain ⟨rest, behind⟩ := List.isPrefixOf_iff_prefix.mp follows
    refine ⟨afterTag.takeWhile isBlank, rest, ?_, ?_, fun _ => List.mem_takeWhile_imp⟩
    · rw [behind, trimStart, List.takeWhile_append_dropWhile]
    · obtain ⟨tail, rfl⟩ := List.head?_eq_some_iff.mp first
      rw [List.takeWhile_cons_of_pos blank]
      exact List.cons_ne_nil _ _

namespace Construct

variable {construct : Construct} {line : Text} {lines : List Text}

theorem forall_iff {property : Construct → Prop} :
    (∀ construct, property construct) ↔ property .openingTag ∧ property .declareStatement ∧
      property .namespaceStatement ∧ property .useStatement ∧ property .typeDeclaration := by
  constructor
  · intro all
    exact ⟨all _, all _, all _, all _, all _⟩
  · rintro ⟨tag, declares, spaced, uses, types⟩ construct
    cases construct <;> assumption

theorem shown_by_iff : construct.ShownBy line ↔ (LineKind.of line).shows construct = true := by
  unfold LineKind.of
  split
  · rename_i afterTag starts
    obtain rfl := List.isPrefixOf?_eq_some_iff_append_eq.mp starts
    rw [ShownBy, tag_with_namespace_iff]
    cases construct <;> simp [forall_iff, rank, Fits, LineKind.shows]
  · rename_i starts
    have untagged : ¬ "<?php".toList <+: line := by
      rintro ⟨afterTag, rfl⟩
      rw [List.isPrefixOf?_eq_some_iff_append_eq.mpr rfl] at starts
      cases starts
    have noNamespace : ¬ TagWithNamespace line := by
      rintro ⟨space, rest, rfl, -⟩
      exact untagged (List.prefix_append _ _)
    simp only [UseStatement.isUse, List.isPrefixOf_iff_prefix, declares_type_iff]
    split_ifs with declares spaced uses types <;> cases construct <;>
      simp_all [ShownBy, forall_iff, Fits, rank, LineKind.shows]

instance (construct : Construct) (line : Text) : Decidable (construct.ShownBy line) :=
  decidable_of_iff _ shown_by_iff.symm

/-- The numbers, counted from one, of the lines that show a construct. -/
def numbersIn (construct : Construct) (lines : List Text) : Set Nat :=
  {number | ∃ index line, number = index + 1 ∧ lines[index]? = some line ∧ construct.ShownBy line}

end Construct

/-! ### What lines show together -/

namespace Declarations

variable {found : Declarations} {index number : Nat} {kind : LineKind} {kinds : List LineKind}
  {construct : Construct} {lines : List Text}

theorem is_complete_iff :
    found.isComplete = true ↔ ∀ construct, (found.line construct).isSome = true := by
  simp [isComplete, Construct.forall_iff, line, and_assoc]

theorem is_some_line_note :
    ((found.note number kind).line construct).isSome =
      ((found.line construct).isSome || kind.shows construct) := by
  by_cases isUse : construct = .useStatement
  · subst isUse
    cases kind <;> simp [note, line, LineKind.shows]
  · rw [line_note isUse, Option.isSome_or]
    cases kind.shows construct <;> rfl

theorem is_some_line_note_all :
    ((found.noteAll index kinds).line construct).isSome =
      ((found.line construct).isSome || kinds.any (·.shows construct)) := by
  induction kinds generalizing found index with
  | nil => simp [noteAll]
  | cons kind rest induction =>
      rw [noteAll, induction, is_some_line_note, List.any_cons, Bool.or_assoc]

def ShowsEach (lines : List Text) : Prop :=
  ∀ construct : Construct, ∃ line ∈ lines, construct.ShownBy line

theorem shows_each_iff : ShowsEach lines ↔ (shownBy lines).isComplete = true := by
  rw [is_complete_iff]
  apply forall_congr'
  intro construct
  have nothing : (({} : Declarations).line construct).isSome = false := by cases construct <;> rfl
  simp only [shownBy, is_some_line_note_all, nothing, Bool.false_or, List.any_map, List.any_eq_true,
    Construct.shown_by_iff, Function.comp_apply]

/-- The first line that shows a construct is noted for it. -/
theorem line_shown_by_iff (first : construct ≠ .useStatement) :
    (shownBy lines).line construct = some number ↔ IsLeast (construct.numbersIn lines) number := by
  rw [line_shown_by first, Option.map_eq_some_iff]
  constructor
  · rintro ⟨index, searched, rfl⟩
    obtain ⟨inside, shows, above⟩ := List.findIdx?_eq_some_iff_getElem.mp searched
    refine ⟨⟨index, lines[index], rfl, List.getElem?_eq_getElem inside,
      Construct.shown_by_iff.mpr shows⟩, ?_⟩
    rintro other ⟨earlier, line, rfl, here, shown⟩
    by_contra less
    obtain ⟨earlierInside, rfl⟩ := List.getElem?_eq_some_iff.mp here
    exact above earlier (by omega) (Construct.shown_by_iff.mp shown)
  · rintro ⟨⟨index, line, rfl, here, shown⟩, least⟩
    obtain ⟨inside, rfl⟩ := List.getElem?_eq_some_iff.mp here
    refine ⟨index, ?_, rfl⟩
    rw [List.findIdx?_eq_some_iff_getElem]
    refine ⟨inside, Construct.shown_by_iff.mp shown, ?_⟩
    intro earlier before shows
    have notBefore := least ⟨earlier, lines[earlier], rfl,
      List.getElem?_eq_getElem (by omega), Construct.shown_by_iff.mpr shows⟩
    omega

end Declarations

/-! ### The scan -/

namespace Block

variable {lines : List Text}

theorem is_use_iff_shown_by {line : Text} :
    UseStatement.isUse line = true ↔ Construct.useStatement.ShownBy line := by
  rw [Construct.shown_by_iff, ← LineKind.of_eq_use_statement]
  cases LineKind.of line <;> simp [LineKind.shows]

/-- A block that says what lines show, and nothing else. -/
structure Describes (block : Block) (lines : List Text) : Prop where
  mem_uses : ∀ statement : UseStatement, statement ∈ block.uses ↔
    lines[statement.line]? = some statement.text ∧
      Construct.useStatement.ShownBy statement.text
  ordered : block.uses.Pairwise fun upper lower => upper.line < lower.line
  first : ∀ construct : Construct, construct ≠ .useStatement → ∀ number,
    block.declarations.line construct = some number ↔ IsLeast (construct.numbersIn lines) number
  last : ∀ number, block.declarations.line .useStatement = some number ↔
    IsGreatest (Construct.useStatement.numbersIn lines) number

theorem le_line_of_mem_uses_from {index : Nat} {statement : UseStatement}
    (member : statement ∈ usesFrom index lines) : index ≤ statement.line := by
  obtain ⟨numbered, chosen, rfl⟩ := List.mem_map.mp member
  exact List.le_snd_of_mem_zipIdx (List.mem_filter.mp chosen).1

theorem uses_from_pairwise (index : Nat) (lines : List Text) :
    (usesFrom index lines).Pairwise fun upper lower => upper.line < lower.line := by
  induction lines generalizing index with
  | nil => exact List.Pairwise.nil
  | cons line rest induction =>
      rw [uses_from_cons]
      split
      · rw [List.singleton_append, List.pairwise_cons]
        exact ⟨fun _ member => le_line_of_mem_uses_from member, induction (index + 1)⟩
      · exact induction (index + 1)

/-- Of the lines with a statement the last is the greatest. -/
theorem is_greatest_last_use_iff {number : Nat} :
    (shownBy lines).declarations.lastUse = some number ↔
      IsGreatest (Construct.useStatement.numbersIn lines) number := by
  have inUses : ∀ index line, (⟨line, index⟩ : UseStatement) ∈ (shownBy lines).uses ↔
      lines[index]? = some line ∧ Construct.useStatement.ShownBy line := by
    intro index line
    rw [mem_uses_shown_by, is_use_iff_shown_by]
  have greatest : ∀ number, (shownBy lines).declarations.lastUse = some number →
      IsGreatest (Construct.useStatement.numbersIn lines) number := by
    intro number last
    rw [last_use_shown_by] at last
    obtain ⟨final, ending, rfl⟩ := Option.map_eq_some_iff.mp last
    obtain ⟨front, uses_eq⟩ := List.getLast?_eq_some_iff.mp ending
    obtain ⟨here, shown⟩ := (inUses final.line final.text).mp (List.mem_of_getLast? ending)
    refine ⟨⟨final.line, final.text, rfl, here, shown⟩, ?_⟩
    rintro number ⟨index, line, rfl, lineHere, lineShown⟩
    have member := (inUses index line).mpr ⟨lineHere, lineShown⟩
    have ordered : (shownBy lines).uses.Pairwise _ := uses_from_pairwise 0 lines
    rw [uses_eq] at member ordered
    rcases List.mem_append.mp member with earlier | isFinal
    · have below := (List.pairwise_append.mp ordered).2.2 _ earlier _ List.mem_cons_self
      exact Nat.succ_le_succ (Nat.le_of_lt below)
    · rw [← List.mem_singleton.mp isFinal]
  refine ⟨greatest number, ?_⟩
  intro isGreatest
  cases last : (shownBy lines).declarations.lastUse with
  | some other => rw [(greatest other last).unique isGreatest]
  | none =>
      obtain ⟨index, line, -, here, shown⟩ := isGreatest.1
      have member := (inUses index line).mpr ⟨here, shown⟩
      rw [last_use_shown_by, Option.map_eq_none_iff, List.getLast?_eq_none_iff] at last
      rw [last] at member
      cases member

theorem describes_shown_by (lines : List Text) : (shownBy lines).Describes lines where
  mem_uses statement := by rw [mem_uses_shown_by, is_use_iff_shown_by]
  ordered := uses_from_pairwise 0 lines
  first construct first number := Declarations.line_shown_by_iff first
  last number := is_greatest_last_use_iff

/-- A scan stops in front of the first line that has every construct above it. -/
theorem is_least_window (lines : List Text) :
    IsLeast {count | Declarations.ShowsEach (lines.take count) ∨ count = lines.length}
      (window lines) := by
  have within := window_le_length lines
  constructor
  · rcases Nat.lt_or_eq_of_le within with before | atEnd
    · exact Or.inl (Declarations.shows_each_iff.mpr (is_complete_of_window_lt before))
    · exact Or.inr atEnd
  · rintro count (complete | rfl)
    · by_contra further
      have unfinished := (lt_window_iff (by omega)).mp (not_le.mp further)
      rw [Declarations.shows_each_iff.mp complete] at unfinished
      cases unfinished
    · exact within

/-- A scan looks for a class up to the line in front of which it stops. -/
theorem any_is_stop_iff {stop : Option Text} {count : Nat} :
    (lines.take (count + 1)).any (isStop stop) = true ↔
      ∃ name, stop = some name ∧
        ∃ index ≤ count, lines[index]? = some ("use ".toList ++ name ++ ";".toList) := by
  cases stop with
  | none => simp [isStop]
  | some name =>
      simp only [List.any_eq_true, isStop, Option.any_some, beq_iff_eq, exists_eq_right,
        List.mem_iff_getElem?, List.getElem?_take, Option.ite_none_right_eq_some, Nat.lt_succ_iff,
        Option.some.injEq, exists_eq_left']
      rfl

/-- What a scan gives, by the texts of the lines alone. -/
theorem scan_meaning (lines : List Text) (stop : Option Text) :
    ∃ count block,
      IsLeast {count | Declarations.ShowsEach (lines.take count) ∨ count = lines.length} count ∧
      block.Describes (lines.take count) ∧
      (∀ name, scan lines stop = .error (.alreadyImported name) ↔
        stop = some name ∧
          ∃ index ≤ count, lines[index]? = some ("use ".toList ++ name ++ ";".toList)) ∧
      ((¬ ∃ name, stop = some name ∧
          ∃ index ≤ count, lines[index]? = some ("use ".toList ++ name ++ ";".toList)) →
        scan lines stop = .ok block) := by
  refine ⟨window lines, shownBy (lines.take (window lines)), is_least_window lines,
    describes_shown_by _, ?_, ?_⟩
  · intro name
    rw [scan_eq]
    split
    · rename_i stops
      obtain ⟨target, rfl, found⟩ := any_is_stop_iff.mp stops
      constructor
      · intro same
        cases same
        exact ⟨rfl, found⟩
      · rintro ⟨same, -⟩
        cases same
        rfl
    · rename_i goesOn
      apply iff_of_false
      · intro failed
        cases failed
      · rintro ⟨rfl, found⟩
        exact goesOn (any_is_stop_iff.mpr ⟨name, rfl, found⟩)
  · intro absent
    rw [scan_eq, if_neg fun stops => absent (any_is_stop_iff.mp stops)]

end Block
end PhpNames
