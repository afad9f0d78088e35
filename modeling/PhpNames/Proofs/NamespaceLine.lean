import PhpNames.NamespaceStatement
import PhpNames.Proofs.Scanning

/-!
The line with the namespace statement, as a scan notes it and as its name is read.

A scan notes a line by the keyword and one space behind it, whatever blank space follows the opening
tag. To read the name, one space has to follow the tag, and any blank space the keyword. So both
find the same line exactly if the first line that either of them takes has single spaces.
-/

namespace PhpNames

open Text

/-! ### The line that a scan notes -/

namespace Declarations

/-- A scan that has not found a namespace goes on until it finds one. -/
theorem find_idx?_take_window {found : Declarations} (absent : found.namespaceLine = none)
    (index : Nat) (kinds : List LineKind) :
    (kinds.take (found.window index kinds)).findIdx? (·.shows .namespaceStatement) =
      kinds.findIdx? (·.shows .namespaceStatement) := by
  induction kinds generalizing found index with
  | nil => rfl
  | cons kind rest induction =>
      have unfinished : found.isComplete = false := by simp [isComplete, absent]
      rw [window, unfinished, if_neg Bool.false_ne_true, List.take_succ_cons, List.findIdx?_cons,
        List.findIdx?_cons]
      cases shows : kind.shows .namespaceStatement with
      | true => rfl
      | false =>
          have noted : (found.note (index + 1) kind).line .namespaceStatement = _ :=
            line_note (by decide)
          have stillAbsent : (found.note (index + 1) kind).namespaceLine = none := by
            rw [shows] at noted
            exact noted.trans (congrArg (Option.or · none) absent)
          rw [induction stillAbsent]

end Declarations

namespace NamespaceStatement

/-- Whether a scan takes a line for a namespace statement. -/
def isNoted (line : Text) : Bool :=
  (LineKind.of line).shows .namespaceStatement

def isRead (line : Text) : Bool :=
  (nameIn? line).isSome

def readLine? (lines : List Text) : Option Nat :=
  lines.findIdx? isRead

end NamespaceStatement

namespace Block

open NamespaceStatement

theorem namespace_line_of_scan {lines : List Text} {block : Block}
    (scanned : scan lines none = .ok block) :
    block.declarations.namespaceLine = (lines.findIdx? isNoted).map (· + 1) := by
  have whole : (lines.take (window lines)).findIdx? isNoted = lines.findIdx? isNoted := by
    have searched := Declarations.find_idx?_take_window
      (rfl : ({} : Declarations).namespaceLine = none) 0 (lines.map LineKind.of)
    rw [← List.map_take, List.findIdx?_map, List.findIdx?_map] at searched
    exact searched
  have noted := Declarations.line_shown_by
    (by decide : Construct.namespaceStatement ≠ .useStatement) (lines.take (window lines))
  rw [eq_shown_by_of_scan scanned, ← whole]
  exact noted

end Block

/-! ### Lines with the keyword -/

namespace NamespaceStatement

/-- What follows the keyword in a line that begins with it and blank space, perhaps behind an
opening tag and blank space. -/
def behindKeyword? (line : Text) : Option Text :=
  let start? :=
    match "<?php".toList.isPrefixOf? line with
    | some afterTag => if afterTag.head?.any isBlank then some (trimStart afterTag) else none
    | none => some line
  (start?.bind ("namespace".toList.isPrefixOf? ·)).filter (·.head?.any isBlank)

def isNamed (behind : Text) : Bool :=
  match trimStart behind with
  | [] => false
  | _ :: rest => (rest.takeWhile (· != '\n')).contains ';'

/-- Whether a line starts with the keyword, perhaps behind an opening tag, and single spaces. -/
def isPlainlySpaced (line : Text) : Bool :=
  keywords.any fun keyword => (keyword ++ [' ']).isPrefixOf line

variable {keyword line text behind : Text}

theorem is_noted_keyword (member : keyword ∈ keywords) (c : Char) (rest : Text) :
    isNoted (keyword ++ c :: rest) = (c == ' ') := by
  have compared : (' ' == c && ([] : Text).isPrefixOf rest) = (c == ' ') := by
    rw [List.isPrefixOf_nil_left, Bool.and_true, Bool.beq_comm]
  simp only [keywords, List.mem_cons, List.not_mem_nil, or_false] at member
  rcases member with rfl | rfl
  · change LineKind.shows (if (' ' == c && ([] : Text).isPrefixOf rest) = true then
      .namespaceStatement else _) .namespaceStatement = _
    rw [compared]
    cases c == ' ' with
    | true => rfl
    | false =>
        rw [if_neg Bool.false_ne_true]
        split
        · rfl
        · split <;> rfl
  · change LineKind.shows (.openingTag (' ' == c && ([] : Text).isPrefixOf rest))
      .namespaceStatement = _
    rw [compared]
    cases c == ' ' <;> rfl

theorem is_plainly_spaced_iff : isPlainlySpaced line = true ↔
    ∃ keyword ∈ keywords, ∃ rest, line = keyword ++ ' ' :: rest := by
  simp only [isPlainlySpaced, List.any_eq_true, List.isPrefixOf_iff_prefix]
  constructor
  · rintro ⟨keyword, member, rest, rfl⟩
    exact ⟨keyword, member, rest, by simp⟩
  · rintro ⟨keyword, member, rest, rfl⟩
    exact ⟨keyword, member, rest, by simp⟩

/-! ### Reading the name -/

theorem name_in?_eq_some {name : Text} (found : nameIn? line = some name) :
    ∃ keyword ∈ keywords, ∃ behind, line = keyword ++ behind ∧
      nameAfterBlank? behind = some name := by
  obtain ⟨keyword, member, foundAfter⟩ := List.exists_of_findSome?_eq_some found
  obtain ⟨behind, starts, searched⟩ := Option.bind_eq_some_iff.mp foundAfter
  exact ⟨keyword, member, behind, (List.isPrefixOf?_eq_some_iff_append_eq.mp starts).symm, searched⟩

theorem name_after_blank?_cons {name : Text} (found : nameAfterBlank? behind = some name) :
    ∃ c rest, behind = c :: rest ∧ isBlank c = true := by
  cases behind with
  | nil => cases found
  | cons c rest =>
      rw [nameAfterBlank?] at found
      split at found
      · rename_i blank
        exact ⟨c, rest, rfl, blank⟩
      · cases found

/-- What stands behind the keyword is searched, whichever of the two ways a line begins. -/
theorem name_in?_keyword (member : keyword ∈ keywords) (behind : Text) :
    nameIn? (keyword ++ behind) = nameAfterBlank? behind := by
  simp only [keywords, List.mem_cons, List.not_mem_nil, or_false] at member
  rcases member with rfl | rfl
  · have here : "namespace".toList.isPrefixOf? ("namespace".toList ++ behind) = some behind := rfl
    have notTag : "<?php namespace".toList.isPrefixOf? ("namespace".toList ++ behind) = none := rfl
    rw [nameIn?, keywords, List.findSome?_cons, List.findSome?_cons, here, notTag,
      Option.bind_some]
    cases nameAfterBlank? behind <;> rfl
  · have notHere : "namespace".toList.isPrefixOf? ("<?php namespace".toList ++ behind) = none := rfl
    have here : "<?php namespace".toList.isPrefixOf? ("<?php namespace".toList ++ behind) =
        some behind := rfl
    rw [nameIn?, keywords, List.findSome?_cons, List.findSome?_cons, notHere, here,
      Option.bind_some]
    cases nameAfterBlank? behind <;> rfl

theorem is_some_shortest_name? {c : Char} (sameLine : c ≠ '\n')
    (ended : ';' ∈ text.takeWhile (· != '\n')) : (shortestName? (c :: text)).isSome = true := by
  induction text generalizing c with
  | nil => simp at ended
  | cons next rest induction =>
      rw [shortestName?, if_neg sameLine]
      by_cases ends : endsHere (next :: rest) = true
      · rw [if_pos ends]
        rfl
      · have notFeed : next ≠ '\n' := by
          rintro rfl
          simp at ended
        have further : ';' ∈ rest.takeWhile (· != '\n') := by
          rw [List.takeWhile_cons_of_pos (by simpa using notFeed)] at ended
          rcases List.mem_cons.mp ended with rfl | further
          · exact absurd rfl ends
          · exact further
        rw [if_neg ends, Option.isSome_map]
        exact induction notFeed further

theorem is_some_name_after_blank? (blank : behind.head?.any isBlank = true)
    (named : isNamed behind = true) : (nameAfterBlank? behind).isSome = true := by
  induction behind with
  | nil => cases blank
  | cons c rest induction =>
      have first : isBlank c = true := blank
      have same : trimStart (c :: rest) = trimStart rest := by
        rw [trimStart, List.dropWhile_cons_of_pos first, trimStart]
      rw [nameAfterBlank?, if_pos first, Option.isSome_or, Bool.or_eq_true]
      rw [isNamed, same] at named
      cases rest with
      | nil => cases named
      | cons next after =>
          by_cases blankNext : isBlank next = true
          · exact Or.inl (induction blankNext named)
          · right
            rw [trimStart, List.dropWhile_cons_of_neg blankNext] at named
            apply is_some_shortest_name? _ (List.contains_iff_mem.mp named)
            rintro rfl
            exact blankNext (by decide)

/-- With single spaces and a name, a line is both noted and read; otherwise at most one of the
two. -/
theorem is_noted_and_is_read (named : (behindKeyword? line).all isNamed = true) :
    (isNoted line = true ∧ isRead line = true) ↔ isPlainlySpaced line = true := by
  rw [is_plainly_spaced_iff]
  constructor
  · intro ⟨noted, read⟩
    obtain ⟨name, found⟩ := Option.isSome_iff_exists.mp read
    obtain ⟨keyword, member, behind, rfl, searched⟩ := name_in?_eq_some found
    obtain ⟨c, rest, rfl, -⟩ := name_after_blank?_cons searched
    rw [is_noted_keyword member, beq_iff_eq] at noted
    exact ⟨keyword, member, rest, by rw [noted]⟩
  · rintro ⟨keyword, member, rest, rfl⟩
    refine ⟨by rw [is_noted_keyword member]; rfl, ?_⟩
    have behind : behindKeyword? (keyword ++ ' ' :: rest) = some (' ' :: rest) := by
      simp only [keywords, List.mem_cons, List.not_mem_nil, or_false] at member
      rcases member with rfl | rfl <;> rfl
    rw [behind] at named
    rw [isRead, name_in?_keyword member]
    exact is_some_name_after_blank? rfl named

/-! ### Both on a whole document -/

variable {lines : List Text}

theorem is_some_declared? (lines : List Text) :
    (declared? lines).isSome = (readLine? lines).isSome := by
  rw [declared?, readLine?, List.isSome_findSome?, List.findIdx?_isSome]
  rfl

theorem declared?_of_read_line? {index : Nat} (found : readLine? lines = some index) :
    (lines[index]?).bind nameIn? = declared? lines := by
  induction lines generalizing index with
  | nil => cases found
  | cons line rest induction =>
      rw [readLine?, List.findIdx?_cons] at found
      rw [declared?, List.findSome?_cons]
      cases searched : nameIn? line with
      | some name =>
          rw [isRead, searched] at found
          obtain rfl : 0 = index := Option.some.inj found
          exact searched
      | none =>
          rw [isRead, searched] at found
          obtain ⟨count, further, rfl⟩ := Option.map_eq_some_iff.mp found
          exact induction further

/-- Two searches stop at the same place exactly if both take the first line that one of them
takes. -/
theorem find_idx?_eq_find_idx?_iff (first second : Text → Bool) (lines : List Text) :
    lines.findIdx? first = lines.findIdx? second ↔
      ∀ line, lines.find? (fun line => first line || second line) = some line →
        first line = true ∧ second line = true := by
  induction lines with
  | nil => simp
  | cons line rest induction =>
      rw [List.findIdx?_cons, List.findIdx?_cons, List.find?_cons]
      cases inFirst : first line with
      | true =>
          cases inSecond : second line with
          | true => simp [inFirst, inSecond]
          | false =>
              apply iff_of_false
              · intro same
                obtain ⟨count, -, zero⟩ := Option.map_eq_some_iff.mp same.symm
                cases zero
              · intro both
                rw [(both line rfl).2] at inSecond
                cases inSecond
      | false =>
          cases inSecond : second line with
          | true => simp [inFirst]
          | false =>
              simp only [Bool.or_self, if_neg Bool.false_ne_true]
              rw [← induction]
              exact Option.map_inj_right fun _ _ => Nat.succ.inj

/-- A scan notes the line that the namespace is read off exactly if the first line that is noted or
read has single spaces. -/
theorem scan_notes_the_line_read (lines : List Text) (block : Block)
    (named : ∀ line ∈ lines, (behindKeyword? line).all isNamed = true)
    (scanned : Block.scan lines none = .ok block) :
    (block.declarations.namespaceLine = (readLine? lines).map (· + 1) ↔
        ∀ line, lines.find? (fun line => isNoted line || isRead line) = some line →
          isPlainlySpaced line = true) ∧
      (declared? lines).isSome = (readLine? lines).isSome ∧
      ∀ index, readLine? lines = some index → (lines[index]?).bind nameIn? = declared? lines := by
  refine ⟨?_, is_some_declared? lines, fun _ => declared?_of_read_line?⟩
  rw [Block.namespace_line_of_scan scanned, readLine?,
    Option.map_inj_right (fun _ _ => Nat.succ.inj), find_idx?_eq_find_idx?_iff]
  apply forall₂_congr
  intro line found
  exact is_noted_and_is_read (named line (List.mem_of_find?_eq_some found))

def twoStatements : List Text :=
  ["<?php // main".toList, "<?php namespace  App\\Models ; // old".toList,
    "namespace\tOther;".toList]

theorem scan_notes_the_line_read_behind_tag :
    ∃ block, Block.scan twoStatements none = .ok block ∧
      block.declarations.namespaceLine = some 2 ∧
      declared? twoStatements = some "App\\Models".toList := by
  have first : twoStatements.find? (fun line => isNoted line || isRead line) =
      some "<?php namespace  App\\Models ; // old".toList := by decide
  have read : readLine? twoStatements = some 1 := by decide
  obtain ⟨agree, -, declares⟩ := scan_notes_the_line_read twoStatements _ (by decide)
    (Block.scan_none twoStatements)
  refine ⟨_, Block.scan_none twoStatements, ?_, ?_⟩
  · rw [agree.mpr, read]
    · rfl
    · intro line found
      rw [first] at found
      rw [← Option.some.inj found]
      decide
  · rw [← declares 1 read]
    decide

/-- Two spaces behind the tag: the statement is noted and not read. A tab behind the keyword: it is
read and not noted. -/
theorem scan_parts_from_declared :
    (∀ line ∈ ["<?php  namespace App;".toList, "namespace\tApp;".toList],
        (behindKeyword? line).all isNamed = true) ∧
      Block.scan ["<?php  namespace App;".toList] none =
        .ok ⟨[], ⟨some 1, none, some 1, none, none⟩⟩ ∧
      declared? ["<?php  namespace App;".toList] = none ∧
      Block.scan ["namespace\tApp;".toList] none = .ok ⟨[], ⟨none, none, none, none, none⟩⟩ ∧
      declared? ["namespace\tApp;".toList] = some "App".toList := by
  decide

end NamespaceStatement
end PhpNames
