import PhpNames.Proofs.FirstOccurrences
import PhpNames.References

/-!
References, line by line.

No rule reads beyond a line feed: its words and its blanks are all found on one line, and a list of
parameters ends on the line where it starts. So what a rule finds in a text is what it finds on the
lines of the text, one after the other.
-/

namespace PhpNames

open Text

namespace References

/-- A reader that does not notice what stands below the line that it reads. -/
structure StaysInLine (read? : Text → Option (Text × Text)) : Prop where
  nothing : read? [] = none
  below {line : Text} (noFeed : '\n' ∉ line) (below : Text) :
    read? (line ++ '\n' :: below) = (read? line).map (Prod.map id (· ++ '\n' :: below))

variable {read? name? : Text → Option (Text × Text)} {line below keyword : Text}

/-! ### Readers -/

theorem is_prefix_of?_append_cons {c : Char} (absent : c ∉ keyword) (line below : Text) :
    keyword.isPrefixOf? (line ++ c :: below) =
      (keyword.isPrefixOf? line).map (· ++ c :: below) := by
  induction keyword generalizing line with
  | nil => simp [List.isPrefixOf?]
  | cons first keyword induction =>
      simp only [List.mem_cons, not_or] at absent
      cases line with
      | nil => simp [List.isPrefixOf?, Ne.symm absent.1]
      | cons d line =>
          rw [List.cons_append, List.isPrefixOf?, List.isPrefixOf?]
          split
          · exact induction absent.2 line
          · rfl

theorem not_mem_behind {c : Char} {rest : Text} (absent : c ∉ line)
    (behind : keyword.isPrefixOf? line = some rest) : c ∉ rest := by
  rw [← List.append_eq_of_isPrefixOf?_eq_some behind] at absent
  exact fun member => absent (List.mem_append_right keyword member)

theorem StaysInLine.after_keyword? (stays : StaysInLine name?) (named : keyword ≠ [])
    (absent : '\n' ∉ keyword) : StaysInLine (afterKeyword? keyword name?) where
  nothing := by
    obtain ⟨first, rest, rfl⟩ := List.exists_cons_of_ne_nil named
    rfl
  below {line} noFeed below := by
    rw [References.afterKeyword?, References.afterKeyword?, is_prefix_of?_append_cons absent]
    cases behind : keyword.isPrefixOf? line with
    | none => rfl
    | some rest => exact stays.below (not_mem_behind noFeed behind) below

theorem stays_in_line_class_name? : StaysInLine className? where
  nothing := rfl
  below {line} noFeed below := by
    cases line with
    | nil => rfl
    | cons c line =>
        have stops : isClassChar '\n' = false := by decide
        simp only [className?, List.cons_append, take_while_append_cons stops,
          drop_while_append_cons stops]
        split <;> rfl

theorem stays_in_line_operand? : StaysInLine operand? where
  nothing := rfl
  below {line} noFeed below := by
    cases line with
    | nil => rfl
    | cons c line =>
        have stops : isAsciiWordChar '\n' = false := by decide
        simp only [operand?, List.cons_append, take_while_append_cons stops,
          drop_while_append_cons stops]
        split <;> rfl

theorem stays_in_line_qualifier? : StaysInLine qualifier? where
  nothing := rfl
  below {line} noFeed below := by
    rw [qualifier?, qualifier?, stays_in_line_class_name?.below noFeed]
    cases className? line with
    | none => rfl
    | some found =>
        obtain ⟨name, after⟩ := found
        have colons : '\n' ∉ "::".toList := by decide
        simp only [Option.map_some, Option.bind_eq_bind, Option.bind_some, Prod.map, id_eq,
          is_prefix_of?_append_cons colons]
        cases "::".toList.isPrefixOf? after <;> rfl

theorem stays_in_line_cut_at_last_parenthesis? : StaysInLine cutAtLastParenthesis? where
  nothing := rfl
  below {line} noFeed below := by
    have upToFeed : (line ++ '\n' :: below).takeWhile (· != '\n') = line.takeWhile (· != '\n') :=
      take_while_append_cons (by decide) line below
    rw [cutAtLastParenthesis?, cutAtLastParenthesis?, upToFeed]
    split
    · rfl
    · rename_i closing before last
      have within : before.length + 1 ≤ line.length := by
        calc
          before.length + 1
          _ = ((line.takeWhile (· != '\n')).reverse.dropWhile (· != ')')).length := by
              rw [last]
              rfl
          _ ≤ (line.takeWhile (· != '\n')).reverse.length := (List.dropWhile_sublist _).length_le
          _ = (line.takeWhile (· != '\n')).length := List.length_reverse
          _ ≤ line.length := (List.takeWhile_sublist _).length_le
      rw [List.drop_append_of_le_length within]
      rfl

/-- A later parenthesis is tried before the one behind the first character. -/
theorem open_parameters?_cons (c : Char) (rest : Text) :
    openParameters? (c :: rest) =
      if isBlank c then none
      else (openParameters? rest).or (afterKeyword? ['('] cutAtLastParenthesis? rest) := by
  cases rest with
  | nil => simp [openParameters?, afterKeyword?, List.isPrefixOf?]
  | cons d rest =>
      by_cases opens : d = '('
      · rw [opens, openParameters?]
        cases openParameters? ('(' :: rest) <;> rfl
      · rw [openParameters?]
        · have closed : afterKeyword? ['('] cutAtLastParenthesis? (d :: rest) = none := by
            simp [afterKeyword?, List.isPrefixOf?, Ne.symm opens]
          rw [closed]
          cases openParameters? (d :: rest) <;> rfl
        · intro after same
          exact opens (List.cons.inj same).1

theorem stays_in_line_open_parameters? : StaysInLine openParameters? where
  nothing := rfl
  below {line} noFeed below := by
    have enclosed : StaysInLine (afterKeyword? ['('] cutAtLastParenthesis?) :=
      stays_in_line_cut_at_last_parenthesis?.after_keyword? (by decide) (by decide)
    induction line with
    | nil => rfl
    | cons c line induction =>
        have noFeed : '\n' ∉ line := fun member => noFeed (List.mem_cons_of_mem c member)
        rw [List.cons_append, open_parameters?_cons, open_parameters?_cons, induction noFeed,
          enclosed.below noFeed]
        split
        · rfl
        · cases openParameters? line <;> rfl

theorem stays_in_line_parameter_list? : StaysInLine parameterList? :=
  stays_in_line_open_parameters?.after_keyword? (by decide) (by decide)

/-! ### Rules -/

theorem collect_below (stays : StaysInLine read?) (noFeed : '\n' ∉ line) {skip : Nat}
    (within : skip ≤ line.length) (below : Text) :
    collect read? skip (line ++ '\n' :: below) =
      collect read? skip line ++ collect read? 0 below := by
  induction line generalizing skip with
  | nil =>
      obtain rfl : skip = 0 := Nat.le_zero.mp within
      have unread : read? ('\n' :: below) = none := by
        have atFeed := stays.below noFeed below
        rwa [stays.nothing] at atFeed
      simp [collect, unread]
  | cons c line induction =>
      have read_eq := stays.below noFeed below
      have noFeed : '\n' ∉ line := fun member => noFeed (List.mem_cons_of_mem c member)
      cases skip with
      | succ skip => exact induction noFeed (Nat.le_of_succ_le_succ within)
      | zero =>
          rw [List.cons_append] at read_eq ⊢
          rw [collect, collect, read_eq]
          cases read? (c :: line) with
          | none => exact induction noFeed (Nat.zero_le _)
          | some found =>
              obtain ⟨name, after⟩ := found
              -- what stands below is not part of what was read
              have rest_eq : (line ++ '\n' :: below).length - (after ++ '\n' :: below).length =
                  line.length - after.length := by
                rw [List.length_append, List.length_append]
                omega
              simp only [Option.map_some, Prod.map, id_eq, List.cons_append, rest_eq]
              rw [induction noFeed (Nat.sub_le _ _)]

theorem collect_join_lines (stays : StaysInLine read?) {lines : List Text}
    (noFeed : ∀ line ∈ lines, '\n' ∉ line) :
    collect read? 0 (joinLines lines) = lines.flatMap (collect read? 0) := by
  induction lines with
  | nil => rfl
  | cons first rest induction =>
      obtain ⟨firstNoFeed, restNoFeed⟩ := List.forall_mem_cons.mp noFeed
      by_cases more : rest = []
      · simp [more, joinLines]
      · rw [join_lines_cons first more, collect_below stays firstNoFeed (Nat.zero_le _),
          induction restNoFeed, List.flatMap_cons]

def rules : List (Text → List Text) :=
  [extended, parameterTypes, instantiated, staticAccess, instanceofOperands]

theorem rule_join_lines {rule : Text → List Text} (isRule : rule ∈ rules) {lines : List Text}
    (noFeed : ∀ line ∈ lines, '\n' ∉ line) : rule (joinLines lines) = lines.flatMap rule := by
  have named : StaysInLine className? := stays_in_line_class_name?
  simp only [rules, List.mem_cons, List.not_mem_nil, or_false] at isRule
  rcases isRule with rfl | rfl | rfl | rfl | rfl
  · exact collect_join_lines (named.after_keyword? (by decide) (by decide)) noFeed
  · have lists := collect_join_lines stays_in_line_parameter_list? noFeed
    calc
      parameterTypes (joinLines lines)
      _ = (lines.flatMap (collect parameterList? 0)).flatMap listedTypes :=
        congrArg (List.flatMap listedTypes) lists
      _ = lines.flatMap parameterTypes := List.flatMap_assoc
  · exact collect_join_lines (named.after_keyword? (by decide) (by decide)) noFeed
  · exact collect_join_lines stays_in_line_qualifier? noFeed
  · exact collect_join_lines (stays_in_line_operand?.after_keyword? (by decide) (by decide)) noFeed

/-! ### All references -/

theorem firsts_after_eq (seen names : List Text) :
    firstsAfter seen names = (names.filter fun name => !seen.contains name).eraseDups := by
  induction names generalizing seen with
  | nil => rfl
  | cons name rest induction =>
      rw [firstsAfter]
      cases known : seen.contains name with
      | true => rw [if_pos rfl, List.filter_cons_of_neg (by rw [known]; decide), induction]
      | false =>
          have others : ∀ other, (!(name :: seen).contains other) =
              (!other == name && !seen.contains other) := by
            intro other
            rw [List.contains_cons, Bool.not_or]
          rw [if_neg (by decide), List.filter_cons_of_pos (by rw [known]; rfl), List.eraseDups_cons,
            List.filter_filter, induction]
          simp only [others]

theorem all_eq (text : Text) : all text = (rules.flatMap fun rule => rule text).eraseDups := by
  rw [all, firsts_after_eq]
  simp [rules]

/-- What a rule finds in a text is what it finds on its lines, and so are all references: the names
that some rule finds on some line, rule by rule, each where it occurs first. -/
theorem references_line_by_line (lines : List Text) (noFeed : ∀ line ∈ lines, '\n' ∉ line) :
    (∀ rule ∈ rules, rule (joinLines lines) = lines.flatMap rule) ∧
    all (joinLines lines) = (rules.flatMap fun rule => lines.flatMap rule).eraseDups ∧
    (all (joinLines lines)).Nodup ∧
    ∀ name, name ∈ all (joinLines lines) ↔ ∃ rule ∈ rules, ∃ line ∈ lines, name ∈ rule line := by
  have lineWise : ∀ rule ∈ rules, rule (joinLines lines) = lines.flatMap rule :=
    fun rule isRule => rule_join_lines isRule noFeed
  have listed : all (joinLines lines) =
      (rules.flatMap fun rule => lines.flatMap rule).eraseDups := by
    rw [all_eq, List.flatMap_congr lineWise]
  refine ⟨lineWise, listed, ?_, ?_⟩
  · rw [listed]
    exact nodup_erase_dups _
  · intro name
    rw [listed, List.mem_eraseDups]
    simp only [List.mem_flatMap]

def brokenLines : List Text :=
  ["class A extends Foo", "function f(Bar $b, Foo $c) \x7b return new Baz; \x7d",
    "function g(Lost $x,", "Foo $y) new", "Bar::make($z instanceof _Q);"].map String.toList

theorem references_line_by_line_broken_lines :
    (∀ line ∈ brokenLines, '\n' ∉ line) ∧
    all (joinLines brokenLines) = ["Foo", "Bar", "Baz", "_Q"].map String.toList ∧
    parameterTypes (joinLines brokenLines) = ["Bar", "Foo"].map String.toList := by
  have noFeed : ∀ line ∈ brokenLines, '\n' ∉ line := by decide +kernel
  obtain ⟨lineWise, listed, -⟩ := references_line_by_line brokenLines noFeed
  refine ⟨noFeed, ?_, ?_⟩
  · rw [listed]
    decide +kernel
  · rw [lineWise parameterTypes (by simp [rules])]
    decide +kernel

end References
end PhpNames
