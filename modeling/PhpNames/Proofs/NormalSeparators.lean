import Mathlib.Data.List.TakeWhile
import PhpNames.Proofs.DerivedNamespace

/-!
The separators of a derived namespace.

However the names and base directories of a project are spelled, a derived namespace begins with no
separator and has no two of them together. It ends with one only if a directory name has a separator
in it. Nothing is left of it at all exactly if the name and the remaining directories consist of
separators.
-/

namespace PhpNames
namespace Text

section Trimmed

variable {c d : Char} {text : Text}

theorem mem_drop_leading_iff (other : d ≠ c) : d ∈ dropLeading c text ↔ d ∈ text := by
  refine ⟨(List.dropWhile_suffix _).mem, fun member => ?_⟩
  rw [← List.takeWhile_append_dropWhile (p := (· == c)) (l := text)] at member
  rcases List.mem_append.mp member with dropped | kept
  · have same := List.mem_takeWhile_imp (p := (· == c)) dropped
    exact absurd (beq_iff_eq.mp same) other
  · exact kept

theorem mem_drop_trailing_iff (other : d ≠ c) : d ∈ dropTrailing c text ↔ d ∈ text := by
  rw [drop_trailing_eq, List.mem_reverse, mem_drop_leading_iff other, List.mem_reverse]

theorem mem_drop_around_iff (other : d ≠ c) : d ∈ dropAround c text ↔ d ∈ text := by
  rw [dropAround, mem_drop_trailing_iff other, mem_drop_leading_iff other]

theorem drop_leading_eq_nil_iff :
    dropLeading c text = [] ↔ ∀ d ∈ text, d = c := by
  rw [dropLeading, List.dropWhile_eq_nil_iff]
  simp only [beq_iff_eq]

theorem drop_trailing_eq_nil_iff :
    dropTrailing c text = [] ↔ ∀ d ∈ text, d = c := by
  rw [drop_trailing_eq, List.reverse_eq_nil_iff, drop_leading_eq_nil_iff]
  simp only [List.mem_reverse]

end Trimmed

end Text

def Path.backslash : UInt8 := 0x5C

namespace Derivation

/-! ### Collapsed texts -/

theorem not_doubled_collapse (text : Text) : ¬['\\', '\\'] <:+: collapse text := by
  induction text with
  | nil => simp [collapse]
  | cons c rest induction =>
      by_cases separates : c = '\\'
      · rw [separates, collapse_separator, List.infix_cons_iff]
        rintro (front | inside)
        · have next := (List.cons_prefix_cons.mp front).2
          obtain ⟨further, rest_eq⟩ := next
          have front := Text.head?_drop_leading '\\' (collapse rest)
          rw [← rest_eq] at front
          exact front rfl
        · exact induction (inside.trans (List.dropWhile_suffix _).isInfix)
      · rw [collapse_cons separates, List.infix_cons_iff]
        rintro (front | inside)
        · exact separates (List.cons_prefix_cons.mp front).1.symm
        · exact induction inside

theorem mem_collapse {c : Char} {text : Text} : c ∈ collapse text ↔ c ∈ text := by
  fun_induction collapse text with
  | case1 rest induction => simp [induction]
  | case2 d rest further induction => simp [induction]
  | case3 => rfl

/-- Nothing is left of a text exactly if it has separators only. -/
theorem settled_eq_nil_iff {text : Text} :
    Text.dropLeading '\\' (collapse text) = [] ↔ ∀ c ∈ text, c = '\\' := by
  rw [Text.drop_leading_eq_nil_iff]
  simp only [mem_collapse]

theorem get_last?_settled {text : Text} (closed : text.getLast? ≠ some '\\') :
    (Text.dropLeading '\\' (collapse text)).getLast? ≠ some '\\' := by
  rw [drop_leading_collapse closed]
  apply Text.get_last?_intercalate
  · intro part member
    simpa using (List.mem_filter.mp member).2
  · intro part member
    have inSplit := (List.mem_filter.mp member).1
    rw [Text.split_on_eq] at inSplit
    exact Text.not_mem_of_mem_split_on inSplit

/-! ### The namespace of a match -/

/-- What is left of the directory of a match, with separators for slashes. -/
def restOf (found : Match) : Text :=
  (Text.dropAround '/' found.remainder).map fun c => if c = '/' then '\\' else c

section Composed

variable {found : Match}

theorem forall_rest_of_iff :
    (∀ c ∈ restOf found, c = '\\') ↔ ∀ c ∈ found.remainder, c = '/' ∨ c = '\\' := by
  rw [restOf, List.forall_mem_map]
  constructor
  · intro separators c member
    by_cases slash : c = '/'
    · exact Or.inl slash
    · have separator := separators c ((Text.mem_drop_around_iff slash).mpr member)
      rw [if_neg slash] at separator
      exact Or.inr separator
  · intro only c member
    by_cases slash : c = '/'
    · rw [if_pos slash]
    · rw [if_neg slash]
      exact (only c ((Text.mem_drop_around_iff slash).mp member)).resolve_left slash

theorem get_last?_rest_of (clean : '\\' ∉ found.remainder) :
    (restOf found).getLast? ≠ some '\\' := by
  rw [restOf, List.getLast?_map]
  intro last
  obtain ⟨c, isLast, separator⟩ := Option.map_eq_some_iff.mp last
  by_cases slash : c = '/'
  · rw [slash] at isLast
    exact Text.get_last?_drop_trailing '/' _ isLast
  · rw [if_neg slash] at separator
    rw [separator] at isLast slash
    exact clean ((Text.mem_drop_around_iff slash).mp (List.mem_of_mem_getLast? isLast))

theorem compose_of_unnamed (unnamed : Text.dropTrailing '\\' found.namespaceName = []) :
    compose found = restOf found := by
  rw [compose, unnamed]
  change ite _ [] (restOf found) = restOf found
  split
  · rename_i nothing
    rw [Bool.or_eq_true] at nothing
    rcases nothing with empty | same
    · exact (List.isEmpty_iff.mp empty).symm
    · exact (List.map_eq_nil_iff.mp (beq_iff_eq.mp same)).symm
  · rfl

theorem compose_of_named (named : Text.dropTrailing '\\' found.namespaceName ≠ []) :
    compose found = Text.dropTrailing '\\' found.namespaceName ∨
      restOf found ≠ [] ∧
        compose found = Text.dropTrailing '\\' found.namespaceName ++ '\\' :: restOf found := by
  rw [compose]
  split
  · exact Or.inl rfl
  · rename_i some
    rw [Bool.or_eq_true, not_or] at some
    rw [if_neg (by simpa using named)]
    exact Or.inr ⟨fun empty => some.1 (List.isEmpty_iff.mpr empty), rfl⟩

theorem forall_compose_iff : (∀ c ∈ compose found, c = '\\') ↔
    (∀ c ∈ found.namespaceName, c = '\\') ∧ ∀ c ∈ found.remainder, c = '/' ∨ c = '\\' := by
  rw [← forall_rest_of_iff]
  by_cases unnamed : Text.dropTrailing '\\' found.namespaceName = []
  · rw [compose_of_unnamed unnamed, and_iff_right (Text.drop_trailing_eq_nil_iff.mp unnamed)]
  · refine iff_of_false ?_ fun both => unnamed (Text.drop_trailing_eq_nil_iff.mpr both.1)
    -- the last character of the name is no separator
    obtain ⟨last, isLast⟩ := Option.isSome_iff_exists.mp (List.getLast?_isSome.mpr unnamed)
    have inName := List.mem_of_mem_getLast? isLast
    intro separators
    have separator : last = '\\' := by
      rcases compose_of_named unnamed with same | ⟨-, same⟩
      · exact separators last (same ▸ inName)
      · exact separators last (same ▸ List.mem_append_left _ inName)
    rw [separator] at isLast
    exact Text.get_last?_drop_trailing '\\' _ isLast

theorem get_last?_compose (clean : '\\' ∉ found.remainder) :
    (compose found).getLast? ≠ some '\\' := by
  have restClosed := get_last?_rest_of clean
  by_cases unnamed : Text.dropTrailing '\\' found.namespaceName = []
  · rwa [compose_of_unnamed unnamed]
  · rcases compose_of_named unnamed with same | ⟨some, same⟩
    · rw [same]
      exact Text.get_last?_drop_trailing '\\' _
    · rwa [same, List.getLast?_append_of_ne_nil _ (List.cons_ne_nil _ _),
        List.getLast?_cons_of_ne_nil some]

end Composed

/-! ### Derived namespaces -/

section Derived

variable {file root : Path} {map : AutoloadMap} {name : Text}

/-- A namespace that is derived is that of the match for the longest base directory. -/
theorem exists_match_of_derive (derived : derive file root map = .ok name) :
    ∃ relative found, relativeDirectory? (file.parent?.getD root) root = some relative ∧
      best? relative map = some found ∧
      name = Text.dropLeading '\\' (collapse (compose found)) := by
  cases inside : relativeDirectory? (file.parent?.getD root) root with
  | none =>
      rw [derive, inside] at derived
      cases derived
  | some relative =>
      cases matched : best? relative map with
      | none =>
          rw [derive_of_none inside matched] at derived
          cases derived
      | some found =>
          rw [derive_of_some inside matched] at derived
          exact ⟨relative, found, rfl, matched, (Except.ok.inj derived).symm⟩

/-- The directories below the root have no separator in their text if none of the file's has one in
its bytes. -/
theorem separator_not_mem_relative {relative : Text}
    (inside : relativeDirectory? (file.parent?.getD root) root = some relative)
    (clean : ∀ directory, file.parent? = some directory →
      ∀ step ∈ directory.components, Path.backslash ∉ step.bytes) : '\\' ∉ relative := by
  have single : Text.IsSingle '\\' := ⟨by decide, by decide⟩
  obtain ⟨steps, below, relative_eq⟩ := Option.bind_eq_some_iff.mp inside
  obtain rfl := Option.some.inj relative_eq
  have parts := List.append_eq_of_isPrefixOf?_eq_some below
  have stepsClean : ∀ step ∈ steps, Path.backslash ∉ step.bytes := by
    intro step member
    cases parent : file.parent? with
    | none =>
        rw [parent, Option.getD_none] at parts
        rw [List.append_right_eq_self.mp parts] at member
        cases member
    | some directory =>
        rw [parent, Option.getD_some] at parts
        exact clean directory parent step (parts ▸ List.mem_append_right _ member)
  intro separator
  obtain ⟨step, member, here⟩ := List.mem_flatMap.mp separator
  rcases List.mem_append.mp here with inName | slash
  · exact single.not_mem_of_utf8_lossy rfl (stepsClean step member) inName
  · exact absurd (List.mem_singleton.mp slash) (by decide)

theorem mem_relative_of_mem_remainder {relative : Text} {found : Match}
    (matched : best? relative map = some found) {c : Char} (member : c ∈ found.remainder) :
    c ∈ relative := by
  obtain ⟨pair, before, after, -, occurs, rfl⟩ := best?_eq_some matched
  rw [occurs.parts]
  rcases List.mem_append.mp member with above | below
  · exact List.mem_append_left _ above
  · exact List.mem_append_right _ (List.mem_append_right _ below)

/-- A derived namespace has single separators and none at its beginning, and none at its end if the
directories of the file have none in their names. -/
theorem derive_separator_normal (derived : derive file root map = .ok name) :
    ¬['\\', '\\'] <:+: name ∧ name.head? ≠ some '\\' ∧
      ((∀ directory, file.parent? = some directory →
          ∀ step ∈ directory.components, Path.backslash ∉ step.bytes) →
        name.getLast? ≠ some '\\') := by
  obtain ⟨relative, found, inside, matched, rfl⟩ := exists_match_of_derive derived
  refine ⟨?_, Text.head?_drop_leading '\\' _, fun clean => ?_⟩
  · intro doubled
    exact not_doubled_collapse _ (doubled.trans (List.dropWhile_suffix _).isInfix)
  · have unseparated := separator_not_mem_relative inside clean
    apply get_last?_settled
    apply get_last?_compose
    exact fun member => unseparated (mem_relative_of_mem_remainder matched member)

/-- A derived namespace is empty exactly if the name of the pair that is chosen, and what stands
around the base directory that is cut out, have no other characters than separators and slashes. -/
theorem exists_chosen_of_derive (derived : derive file root map = .ok name) :
    ∃ relative pair before after,
      relativeDirectory? (file.parent?.getD root) root = some relative ∧
        Chosen map relative pair before after ∧
        (name = [] ↔ (∀ c ∈ pair.1, c = '\\') ∧ ∀ c ∈ before ++ after, c = '/' ∨ c = '\\') := by
  obtain ⟨relative, found, inside, matched, rfl⟩ := exists_match_of_derive derived
  obtain ⟨pair, before, after, longest, occurs, rfl⟩ := best?_eq_some matched
  refine ⟨relative, pair, before, after, inside, ⟨longest, occurs⟩, ?_⟩
  rw [settled_eq_nil_iff, forall_compose_iff]

end Derived

def looselySpelled : AutoloadMap :=
  ⟨[("\\\\App\\\\Core\\\\".toList, [".\\lib\\".toList, "././src\\Main//".toList])]⟩

def nestedController : Path :=
  .ofText "/p/pkg/src//Main/Http/A.php".toList

theorem derive_separator_normal_loosely_spelled :
    derive nestedController projectRoot looselySpelled = .ok "App\\Core\\pkg\\Http".toList ∧
      (∀ directory, nestedController.parent? = some directory →
        ∀ step ∈ directory.components, Path.backslash ∉ step.bytes) ∧
      ¬['\\', '\\'] <:+: "App\\Core\\pkg\\Http".toList ∧
      "App\\Core\\pkg\\Http".toList.head? ≠ some '\\' ∧
      "App\\Core\\pkg\\Http".toList.getLast? ≠ some '\\' := by
  have derived : derive nestedController projectRoot looselySpelled =
      .ok "App\\Core\\pkg\\Http".toList := by
    decide +kernel
  have parent : nestedController.parent? = some (.ofText "/p/pkg/src//Main/Http".toList) := by
    decide +kernel
  have clean : ∀ directory, nestedController.parent? = some directory →
      ∀ step ∈ directory.components, Path.backslash ∉ step.bytes := by
    rw [parent]
    rintro _ ⟨⟩
    decide +kernel
  obtain ⟨single, front, back⟩ := derive_separator_normal derived
  exact ⟨derived, clean, single, front, back clean⟩

end Derivation
end PhpNames
