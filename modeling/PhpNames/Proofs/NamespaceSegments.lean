import Mathlib.Data.List.Basic
import PhpNames.Proofs.DirectoryNames

/-!
Namespaces by segment.

A namespace that is put together from a name and directories is written with single separators
between its segments: those of the name, then the directories, unless these repeat the name.
-/

namespace PhpNames
namespace Derivation

def joined (parts : List Text) : Text :=
  List.intercalate ['\\'] parts

/-- The stretches of a name between its separators, without the empty ones. -/
def segments (name : Text) : List Text :=
  (Text.splitOn '\\' name).filter (· ≠ [])

/-! ### Single separators -/

theorem collapse_cons {c : Char} (other : c ≠ '\\') (text : Text) :
    collapse (c :: text) = c :: collapse text := by
  rw [collapse]
  intro rest same
  exact absurd same other

theorem collapse_separator (text : Text) :
    collapse ('\\' :: text) = '\\' :: Text.dropLeading '\\' (collapse text) := by
  induction text with
  | nil => rfl
  | cons c text induction =>
      by_cases separates : c = '\\'
      · have idle : Text.dropLeading '\\' ('\\' :: Text.dropLeading '\\' (collapse text)) =
            Text.dropLeading '\\' (collapse text) := by
          rw [Text.dropLeading, List.dropWhile_cons_of_pos rfl]
          exact Text.drop_leading_eq_self (Text.head?_drop_leading _ _)
        rw [separates, collapse, induction, idle]
      · have single : collapse ('\\' :: c :: text) = '\\' :: collapse (c :: text) := by
          rw [collapse]
          intro rest _ same
          exact separates (List.cons.inj same).1
        have front : (c :: collapse text).head? ≠ some '\\' := fun same =>
          separates (Option.some.inj same)
        rw [single, collapse_cons separates, Text.drop_leading_eq_self front]

theorem collapse_append {first : Text} (clean : '\\' ∉ first) (rest : Text) :
    collapse (first ++ rest) = first ++ collapse rest := by
  induction first with
  | nil => rfl
  | cons c first induction =>
      obtain ⟨other, others⟩ := not_or.mp (List.mem_cons.not.mp clean)
      rw [List.cons_append, collapse_cons (Ne.symm other), induction others, List.cons_append]

theorem head?_of_clean {first : Text} (clean : '\\' ∉ first) : first.head? ≠ some '\\' :=
  fun same => clean (List.mem_of_mem_head? same)

theorem joined_cons (part : Text) {parts : List Text} (some : parts ≠ []) :
    joined (part :: parts) = part ++ '\\' :: joined parts := by
  rw [joined, List.intercalate_cons_of_ne_nil some, List.append_assoc]
  rfl

theorem joined_append {upper lower : List Text} (someUpper : upper ≠ []) (someLower : lower ≠ []) :
    joined (upper ++ lower) = joined upper ++ '\\' :: joined lower := by
  induction upper with
  | nil => exact absurd rfl someUpper
  | cons part upper induction =>
      cases upper with
      | nil =>
          rw [List.singleton_append, joined_cons part someLower, joined, joined,
            List.intercalate_singleton]
      | cons next upper =>
          have both : next :: upper ++ lower ≠ [] := List.cons_ne_nil _ _
          rw [List.cons_append, joined_cons part both, induction (List.cons_ne_nil _ _),
            joined_cons part (List.cons_ne_nil _ _), List.append_assoc, List.cons_append]

/-- Collapsed and stripped at the front, parts with separators between them keep what is not
empty. -/
theorem drop_leading_collapse_joined {parts : List Text} (clean : ∀ part ∈ parts, '\\' ∉ part)
    (closed : ∀ last ∈ parts.getLast?, last ≠ []) :
    Text.dropLeading '\\' (collapse (joined parts)) = joined (parts.filter (· ≠ [])) := by
  induction parts with
  | nil => rfl
  | cons first rest induction =>
      obtain ⟨firstClean, restClean⟩ := List.forall_mem_cons.mp clean
      cases rest with
      | nil =>
          have some : first ≠ [] := closed first rfl
          have alone : collapse first = first := by
            have whole := collapse_append firstClean []
            rwa [collapse, List.append_nil] at whole
          rw [List.filter_cons_of_pos (by simpa using some), List.filter_nil, joined,
            List.intercalate_singleton, alone]
          exact Text.drop_leading_eq_self (head?_of_clean firstClean)
      | cons next rest =>
          have settled := induction restClean closed
          have kept : (next :: rest).filter (· ≠ []) ≠ [] := by
            obtain ⟨last, isLast⟩ := List.getLast?_isSome.mpr (List.cons_ne_nil next rest)
              |> Option.isSome_iff_exists.mp
            apply List.ne_nil_of_mem (a := last)
            exact List.mem_filter.mpr ⟨List.mem_of_mem_getLast? isLast,
              by simpa using closed last isLast⟩
          rw [joined_cons first (List.cons_ne_nil _ _), collapse_append firstClean,
            collapse_separator, settled]
          by_cases some : first = []
          · have front := Text.head?_drop_leading '\\' (collapse (joined (next :: rest)))
            rw [settled] at front
            have filtered : (first :: next :: rest).filter (· ≠ []) =
                (next :: rest).filter (· ≠ []) := List.filter_cons_of_neg (by simpa using some)
            rw [filtered, some, List.nil_append, Text.dropLeading, List.dropWhile_cons_of_pos rfl]
            exact Text.drop_leading_eq_self front
          · have filtered : (first :: next :: rest).filter (· ≠ []) =
                first :: (next :: rest).filter (· ≠ []) :=
              List.filter_cons_of_pos (by simpa using some)
            rw [filtered, joined_cons first kept]
            apply Text.drop_leading_eq_self
            rw [List.head?_append_of_ne_nil _ some]
            exact head?_of_clean firstClean

/-- Collapsed and stripped at the front, a name is its segments with single separators, if it does
not end with a separator. -/
theorem drop_leading_collapse {name : Text} (closed : name.getLast? ≠ some '\\') :
    Text.dropLeading '\\' (collapse name) = joined (segments name) := by
  rw [segments, Text.split_on_eq]
  have whole : joined (List.splitOn '\\' name) = name := List.intercalate_splitOn '\\'
  by_cases some : name = []
  · rw [some]
    rfl
  · rw [← drop_leading_collapse_joined (fun part => Text.not_mem_of_mem_split_on), whole]
    rintro last isLast rfl
    obtain ⟨front, parts⟩ := List.getLast?_eq_some_iff.mp isLast
    rw [parts] at whole
    by_cases several : front = []
    · rw [several] at whole
      exact some whole.symm
    · rw [joined_append several (List.cons_ne_nil _ _)] at whole
      apply closed
      rw [← whole]
      exact List.getLast?_concat

theorem collapse_eq_self {text : Text} (single : ¬['\\', '\\'] <:+: text) :
    collapse text = text := by
  fun_induction collapse text with
  | case1 rest induction =>
      exact absurd (List.prefix_append ['\\', '\\'] rest).isInfix single
  | case2 c rest further induction =>
      have shorter : ¬['\\', '\\'] <:+: rest := fun inside =>
        single (inside.trans (List.suffix_cons c rest).isInfix)
      rw [induction shorter]
  | case3 => rfl

/-- A name without leading and repeated separators is its segments, up to separators at its end. -/
theorem joined_segments {name : Text} (front : name.head? ≠ some '\\')
    (single : ¬['\\', '\\'] <:+: name) :
    joined (segments (Text.dropTrailing '\\' name)) = Text.dropTrailing '\\' name := by
  obtain ⟨trail, whole, -⟩ := Text.exists_trail '\\' name
  have closed := Text.get_last?_drop_trailing '\\' name
  generalize Text.dropTrailing '\\' name = kept at *
  have keptSingle : ¬['\\', '\\'] <:+: kept := fun inside =>
    single (inside.trans (whole ▸ (List.prefix_append kept trail).isInfix))
  have keptFront : kept.head? ≠ some '\\' := by
    cases kept with
    | nil => nofun
    | cons c rest =>
        rw [← whole] at front
        exact front
  rw [← drop_leading_collapse closed, collapse_eq_self keptSingle,
    Text.drop_leading_eq_self keptFront]

/-! ### Segments -/

theorem segments_append (upper lower : Text) :
    segments (upper ++ '\\' :: lower) = segments upper ++ segments lower := by
  rw [segments, segments, segments, Text.split_on_eq, Text.split_on_eq, Text.split_on_eq,
    List.splitOn_append_cons_self, List.filter_append]

theorem segments_nil : segments [] = [] :=
  rfl

theorem segments_joined {names : List Text} (filled : ∀ name ∈ names, name ≠ [])
    (clean : ∀ name ∈ names, '\\' ∉ name) : segments (joined names) = names := by
  by_cases some : names = []
  · rw [some]
    rfl
  · rw [segments, Text.split_on_eq, joined, List.splitOn_intercalate '\\' clean some]
    exact List.filter_eq_self.mpr fun name member => by simpa using filled name member

theorem segments_drop_trailing (name : Text) :
    segments (Text.dropTrailing '\\' name) = segments name := by
  obtain ⟨trail, whole, separators⟩ := Text.exists_trail '\\' name
  have idle : ∀ trail : Text, (∀ d ∈ trail, d = '\\') → segments trail = [] := by
    intro trail separators
    induction trail with
    | nil => rfl
    | cons d trail induction =>
        obtain ⟨rfl, others⟩ := List.forall_mem_cons.mp separators
        have front := segments_append [] trail
        rwa [induction others] at front
  generalize Text.dropTrailing '\\' name = kept at whole
  rw [← whole]
  cases trail with
  | nil => rw [List.append_nil]
  | cons d trail =>
      obtain ⟨rfl, others⟩ := List.forall_mem_cons.mp separators
      rw [segments_append, idle trail others, List.append_nil]

/-! ### The namespace of a match -/

/-- The namespace for a name and the directories below it: those count for nothing if they repeat
the name. -/
def namespaceOf (name : Text) (directories : List Text) : Text :=
  joined (segments name ++
    if (joined directories).map Char.toLower = (Text.dropTrailing '\\' name).map Char.toLower
    then [] else directories)

section Names

variable {names : List Text} (filled : ∀ name ∈ names, name ≠ [])
  (clean : ∀ name ∈ names, '\\' ∉ name)

include filled clean

/-- What a match makes of the directories that it leaves. -/
theorem settle_compose {found : Match}
    (left : (Text.dropAround '/' found.remainder).map (fun c => if c = '/' then '\\' else c) =
      joined names) :
    Text.dropLeading '\\' (collapse (compose found)) = namespaceOf found.namespaceName names := by
  have nameClosed := Text.get_last?_drop_trailing '\\' found.namespaceName
  have nameSegments := segments_drop_trailing found.namespaceName
  have namesClosed : (joined names).getLast? ≠ some '\\' := Text.get_last?_intercalate filled clean
  have namesSegments := segments_joined filled clean
  rw [compose, namespaceOf, left, ← nameSegments]
  generalize Text.dropTrailing '\\' found.namespaceName = name at *
  by_cases repeats : (joined names).map Char.toLower = name.map Char.toLower
  · have same : equalIgnoringCase (joined names) name = true := beq_iff_eq.mpr repeats
    rw [same, Bool.or_true, if_pos rfl, if_pos repeats, List.append_nil,
      drop_leading_collapse nameClosed]
  · have differ : equalIgnoringCase (joined names) name = false := beq_false_of_ne repeats
    rw [differ, Bool.or_false, if_neg repeats]
    by_cases none : joined names = []
    · have unused : names = [] := by
        by_contra some
        exact Text.intercalate_ne_nil filled some none
      rw [none, unused, List.append_nil]
      exact drop_leading_collapse nameClosed
    · rw [if_neg (by simpa using none)]
      by_cases unnamed : name = []
      · rw [unnamed, segments_nil, List.isEmpty_nil, if_pos rfl, drop_leading_collapse namesClosed,
          namesSegments, List.nil_append]
      · have closed : (name ++ '\\' :: joined names).getLast? ≠ some '\\' := by
          rwa [List.getLast?_append_of_ne_nil _ (List.cons_ne_nil _ _),
            List.getLast?_cons_of_ne_nil none]
        rw [if_neg (by simpa using unnamed), drop_leading_collapse closed, segments_append,
          namesSegments]

end Names

end Derivation
end PhpNames
