import Mathlib.Data.List.Basic
import PhpNames.Derivation
import PhpNames.Proofs.UriRoundTrip

/-!
Directories by name.

The way from a project down to a file is a list of directory names, none of them empty and none with
a slash in it. With a slash behind each name it is the text in which base directories are looked
for; a base directory is such a text too. So where one text occurs in the other, it ends with a
name, and it begins with a name or inside one.
-/

namespace PhpNames

open Text (Bytes)

/-! ### Texts of bytes -/

namespace Text

structure IsSingle (c : Char) : Prop where
  positive : 0 < c.toNat
  small : c.toNat < 0x80

theorem IsSingle.eq_of_of_nat {c : Char} (single : IsSingle c) {point : Nat}
    (same : Char.ofNat point = c) : point = c.toNat := by
  have value := congrArg Char.toNat same
  by_cases valid : point.isValidChar
  · have whole : Char.ofNat point = Char.ofNatAux point valid := dif_pos valid
    rw [whole] at value
    exact value
  · have whole : Char.ofNat point = Char.ofNat 0 := dif_neg valid
    rw [whole] at value
    exact absurd value (Nat.ne_of_lt single.positive)

theorem IsSingle.of_nat_ne {c : Char} (single : IsSingle c) {point : Nat} (outside : 0x80 ≤ point) :
    some (Char.ofNat point) ≠ some c := by
  intro same
  have point_eq := single.eq_of_of_nat (Option.some.inj same)
  have small := single.small
  omega

theorem to_nat_of_between {lowest highest byte : UInt8}
    (between : (lowest ≤ byte && byte ≤ highest) = true) :
    lowest.toNat ≤ byte.toNat ∧ byte.toNat ≤ highest.toNat := by
  rw [Bool.and_eq_true, decide_eq_true_eq, decide_eq_true_eq] at between
  exact between

theorem le_of_is_second_of_three {first second : UInt8}
    (range : (0xE0 ≤ first && first ≤ 0xEF) = true)
    (follows : isSecondOfThree first second = true) :
    2 ≤ first.toNat % 0x10 * 0x40 + tailBits second := by
  obtain ⟨lowest, highest⟩ := to_nat_of_between range
  change 224 ≤ first.toNat at lowest
  change first.toNat ≤ 239 at highest
  rw [tailBits]
  by_cases least : first = 0xE0
  · rw [isSecondOfThree, if_pos least] at follows
    obtain ⟨above, below⟩ := to_nat_of_between follows
    change 160 ≤ second.toNat at above
    change second.toNat ≤ 191 at below
    omega
  · have above : first.toNat ≠ 224 := fun same => least (UInt8.toNat.inj same)
    omega

theorem le_of_is_second_of_four {first second : UInt8}
    (range : (0xF0 ≤ first && first ≤ 0xF4) = true)
    (follows : isSecondOfFour first second = true) :
    2 ≤ first.toNat % 8 * 0x40 + tailBits second := by
  obtain ⟨lowest, highest⟩ := to_nat_of_between range
  change 240 ≤ first.toNat at lowest
  change first.toNat ≤ 244 at highest
  rw [tailBits]
  by_cases least : first = 0xF0
  · rw [isSecondOfFour, if_pos least] at follows
    obtain ⟨above, below⟩ := to_nat_of_between follows
    change 144 ≤ second.toNat at above
    change second.toNat ≤ 191 at below
    omega
  · have above : first.toNat ≠ 240 := fun same => least (UInt8.toNat.inj same)
    omega

/-- Reading goes on behind the bytes of one character, and only its own byte gives a character of a
single byte. -/
theorem pieces_step (bytes : Bytes) :
    bytes = [] ∨ ∃ first rest piece after, bytes = first :: rest ∧
      pieces bytes = piece :: pieces after ∧ after <:+ rest ∧
      ∀ c, IsSingle c → piece = some c → first.toNat = c.toNat := by
  fun_cases pieces bytes
  case case1 => exact Or.inl rfl
  case case2 =>
    refine Or.inr ⟨_, _, _, _, rfl, rfl, List.suffix_refl _, fun c single same => ?_⟩
    exact single.eq_of_of_nat (Option.some.inj same)
  case case3 range second after follows =>
    refine Or.inr ⟨_, _, _, _, rfl, rfl, ⟨[_], rfl⟩,
      fun c single same => absurd same (single.of_nat_ne ?_)⟩
    obtain ⟨lowest, highest⟩ := to_nat_of_between range
    change 194 ≤ UInt8.toNat _ at lowest
    change UInt8.toNat _ ≤ 223 at highest
    omega
  case case6 range second third after follows _ =>
    have lead := le_of_is_second_of_three range follows
    refine Or.inr ⟨_, _, _, _, rfl, rfl, ⟨[_, _], rfl⟩,
      fun c single same => absurd same (single.of_nat_ne ?_)⟩
    omega
  case case12 range second third fourth after follows _ _ =>
    have lead := le_of_is_second_of_four range follows
    refine Or.inr ⟨_, _, _, _, rfl, rfl, ⟨[_, _, _], rfl⟩,
      fun c single same => absurd same (single.of_nat_ne ?_)⟩
    omega
  -- bytes that are no character give none
  case case5 | case9 | case11 | case16 | case19 | case21 =>
    exact Or.inr ⟨_, _, none, [], rfl, rfl, List.nil_suffix, nofun⟩
  case case4 | case8 | case10 | case15 | case18 | case20 | case22 =>
    exact Or.inr ⟨_, _, none, _, rfl, rfl, List.suffix_refl _, nofun⟩
  case case7 | case14 | case17 => exact Or.inr ⟨_, _, none, _, rfl, rfl, ⟨[_], rfl⟩, nofun⟩
  case case13 => exact Or.inr ⟨_, _, none, _, rfl, rfl, ⟨[_, _], rfl⟩, nofun⟩

theorem IsSingle.mem_of_mem_pieces {c : Char} (single : IsSingle c) {bytes : Bytes}
    (member : some c ∈ pieces bytes) : ∃ byte ∈ bytes, byte.toNat = c.toNat := by
  induction length_eq : bytes.length using Nat.strongRecOn generalizing bytes with
  | ind length induction =>
      rcases pieces_step bytes with rfl | ⟨first, rest, piece, after, rfl, read, behind, only⟩
      · cases member
      · rw [read, List.mem_cons] at member
        rcases member with same | further
        · exact ⟨first, List.mem_cons_self, only c single same.symm⟩
        · have shorter : after.length < length := by
            rw [← length_eq]
            exact Nat.lt_succ_of_le behind.length_le
          obtain ⟨byte, inAfter, code⟩ := induction _ shorter further rfl
          exact ⟨byte, List.mem_cons_of_mem _ (behind.mem inAfter), code⟩

/-- A character of a single byte stands in the text of bytes only if its byte is among them. -/
theorem IsSingle.not_mem_of_utf8_lossy {c : Char} (single : IsSingle c) {byte : UInt8}
    (code : byte.toNat = c.toNat) {bytes : Bytes} (absent : byte ∉ bytes) :
    c ∉ ofUtf8Lossy bytes := by
  intro member
  obtain ⟨piece, inPieces, same⟩ := List.mem_map.mp member
  cases piece with
  | none =>
      have small := single.small
      rw [← (show Char.ofNat 0xFFFD = c from same)] at small
      exact absurd small (by decide)
  | some d =>
      obtain rfl : d = c := same
      obtain ⟨other, inBytes, otherCode⟩ := single.mem_of_mem_pieces inPieces
      exact absent (UInt8.toNat.inj (code.trans otherCode.symm) ▸ inBytes)

theorem of_utf8_lossy_ne_nil {bytes : Bytes} (filled : bytes ≠ []) : ofUtf8Lossy bytes ≠ [] := by
  rcases pieces_step bytes with rfl | ⟨first, rest, piece, after, rfl, read, -⟩
  · exact absurd rfl filled
  · rw [ofUtf8Lossy, read]
    exact List.cons_ne_nil _ _

end Text

/-! ### The steps of a path -/

namespace Path

structure Component.IsStep (step : Component) : Prop where
  notRoot : step ≠ .root
  filled : step.bytes ≠ []
  whole : slash ∉ step.bytes

theorem is_step_step_of {piece : Bytes} (whole : slash ∉ piece) (busy : isIdle piece = false) :
    (stepOf piece).IsStep := by
  rw [stepOf]
  split
  · exact ⟨by decide, by decide, by decide⟩
  · refine ⟨by simp, ?_, whole⟩
    rintro rfl
    cases busy

theorem is_step_of_pieces {pieces : List Bytes} (whole : ∀ piece ∈ pieces, slash ∉ piece) :
    ∀ step ∈ (pieces.filter (!isIdle ·)).map stepOf, step.IsStep := by
  intro step member
  obtain ⟨piece, inFilter, rfl⟩ := List.mem_map.mp member
  obtain ⟨inPieces, busy⟩ := List.mem_filter.mp inFilter
  exact is_step_step_of (whole piece inPieces) (by simpa using busy)

theorem divide_spec (path : Path) :
    (∀ lead ∈ path.divide.1, lead = .root ∨ lead.IsStep) ∧
      ∀ piece ∈ path.divide.2, slash ∉ piece := by
  have whole : ∀ piece ∈ split [] path.bytes, slash ∉ piece :=
    fun piece => not_mem_of_split List.not_mem_nil
  fun_cases divide path
  case case1 => exact ⟨nofun, nofun⟩
  case case2 =>
    refine ⟨fun lead same => Or.inl (Option.some.inj same).symm, fun piece => ?_⟩
    exact not_mem_of_split List.not_mem_nil
  case case3 cut _ =>
    have leading : Component.current.IsStep := ⟨nofun, nofun, by decide⟩
    rw [cut] at whole
    refine ⟨fun lead same => Or.inr ((Option.some.inj same) ▸ leading), ?_⟩
    exact List.forall_mem_cons.mpr ⟨List.not_mem_nil, (List.forall_mem_cons.mp whole).2⟩
  case case4 cut _ =>
    rw [cut] at whole
    exact ⟨nofun, whole⟩
  case case5 => exact ⟨nofun, nofun⟩

/-- A root slash stands at most at the beginning. -/
theorem exists_steps (path : Path) :
    ∃ steps : List Component, (path.components = steps ∨ path.components = .root :: steps) ∧
      ∀ step ∈ steps, step.IsStep := by
  obtain ⟨leads, whole⟩ := path.divide_spec
  have areSteps := is_step_of_pieces whole
  have parts : path.components =
      path.divide.1.toList ++ (path.divide.2.filter (!isIdle ·)).map stepOf := rfl
  cases front : path.divide.1 with
  | none => exact ⟨_, Or.inl (by rw [parts, front]; rfl), areSteps⟩
  | some lead =>
      rw [front] at parts leads
      rcases leads lead rfl with rfl | isStep
      · exact ⟨_, Or.inr parts, areSteps⟩
      · exact ⟨_, Or.inl parts, List.forall_mem_cons.mpr ⟨isStep, areSteps⟩⟩

theorem exists_steps_below {path base : Path} {steps : List Component}
    (below : base.components.isPrefixOf? path.components = some steps) :
    ∃ named : List Component, (steps = named ∨ steps = .root :: named) ∧
      ∀ step ∈ named, step.IsStep := by
  have parts := List.append_eq_of_isPrefixOf?_eq_some below
  obtain ⟨all, shape, areSteps⟩ := path.exists_steps
  cases upper : base.components with
  | nil =>
      rw [upper, List.nil_append] at parts
      rw [← parts] at shape
      exact ⟨all, shape, areSteps⟩
  | cons first others =>
      -- the base has the first step, so the root slash is not below it
      have inAll : ∀ step ∈ steps, step ∈ all := by
        intro step member
        rw [upper, List.cons_append] at parts
        rcases shape with same | same
        · rw [← same, ← parts]
          exact List.mem_cons_of_mem _ (List.mem_append_right _ member)
        · rw [same] at parts
          rw [← (List.cons.inj parts).2]
          exact List.mem_append_right _ member
      exact ⟨steps, Or.inl rfl, fun step member => areSteps step (inAll step member)⟩

end Path

/-! ### Names with slashes -/

namespace Text

theorem split_at_eq (separator : Char) (piece text : Text) :
    splitAt separator piece text = List.splitOnPPrepend (· == separator) text piece := by
  induction text generalizing piece with
  | nil => exact List.splitOnPPrepend_nil.symm
  | cons c text induction =>
      rw [splitAt, List.splitOnPPrepend_cons_eq_if, induction, induction,
        List.splitOnPPrepend_nil_right]
      by_cases separates : c = separator <;> simp [separates]

/-- The pieces of a text are those of the library's own split. -/
theorem split_on_eq (separator : Char) (text : Text) :
    splitOn separator text = List.splitOn separator text := by
  rw [splitOn, split_at_eq, List.splitOnPPrepend_nil_right, List.splitOn_eq_splitOnP]

theorem not_mem_of_mem_split_on {separator : Char} {text piece : Text}
    (member : piece ∈ List.splitOn separator text) : separator ∉ piece := by
  induction text generalizing piece with
  | nil =>
      rw [List.splitOn_nil, List.mem_singleton] at member
      rw [member]
      exact List.not_mem_nil
  | cons c text induction =>
      rw [List.splitOn_cons_eq_if_modifyHead] at member
      split at member
      · rcases List.mem_cons.mp member with rfl | further
        · exact List.not_mem_nil
        · exact induction further
      · rename_i other
        cases pieces : List.splitOn separator text with
        | nil => exact absurd pieces (List.splitOn_ne_nil _ _)
        | cons first others =>
            rw [pieces] at member induction
            rcases List.mem_cons.mp member with rfl | further
            · have notHere : separator ≠ c := fun same => other (beq_iff_eq.mpr same.symm)
              exact List.mem_cons.not.mpr (not_or.mpr ⟨notHere, induction List.mem_cons_self⟩)
            · exact induction (List.mem_cons_of_mem _ further)

section Between

variable {separator : Char} {names : List Text} (filled : ∀ name ∈ names, name ≠ [])

include filled

theorem intercalate_ne_nil (some : names ≠ []) : List.intercalate [separator] names ≠ [] := by
  obtain ⟨name, rest, rfl⟩ := List.exists_cons_of_ne_nil some
  have first : name ≠ [] := (List.forall_mem_cons.mp filled).1
  cases rest with
  | nil => rwa [List.intercalate_singleton]
  | cons next rest =>
      rw [List.intercalate_cons_cons, List.append_assoc]
      exact List.append_ne_nil_of_left_ne_nil first _

variable (clean : ∀ name ∈ names, separator ∉ name)

include clean

theorem head?_intercalate : (List.intercalate [separator] names).head? ≠ some separator := by
  cases names with
  | nil => nofun
  | cons name rest =>
      have first : name ≠ [] := (List.forall_mem_cons.mp filled).1
      have front : name.head? ≠ some separator := fun same =>
        (List.forall_mem_cons.mp clean).1 (List.mem_of_mem_head? same)
      cases rest with
      | nil => rwa [List.intercalate_singleton]
      | cons next rest =>
          rwa [List.intercalate_cons_cons, List.append_assoc, List.head?_append_of_ne_nil _ first]

theorem get_last?_intercalate : (List.intercalate [separator] names).getLast? ≠ some separator := by
  induction names with
  | nil => nofun
  | cons name rest induction =>
      obtain ⟨nameClean, restClean⟩ := List.forall_mem_cons.mp clean
      obtain ⟨-, restFilled⟩ := List.forall_mem_cons.mp filled
      by_cases some : rest = []
      · rw [some, List.intercalate_singleton]
        exact fun last => nameClean (List.mem_of_mem_getLast? last)
      · rw [List.intercalate_cons_of_ne_nil some,
          List.getLast?_append_of_ne_nil _ (intercalate_ne_nil restFilled some)]
        exact induction restFilled restClean

end Between

end Text

namespace Derivation

structure IsName (name : Text) : Prop where
  filled : name ≠ []
  whole : '/' ∉ name

def slashed (names : List Text) : Text :=
  names.flatMap (· ++ ['/'])

def attach (head : Text) : List Text → List Text
  | [] => if head = [] then [] else [head]
  | name :: names => (head ++ name) :: names

@[simp]
theorem attach_nil (names : List Text) : attach [] names = names := by
  cases names <;> rfl

theorem slashed_cons (name : Text) (names : List Text) :
    slashed (name :: names) = name ++ '/' :: slashed names := by
  rw [slashed, List.flatMap_cons, List.append_assoc]
  rfl

theorem slashed_append (upper lower : List Text) :
    slashed (upper ++ lower) = slashed upper ++ slashed lower :=
  List.flatMap_append

theorem slashed_eq_nil_iff {names : List Text} : slashed names = [] ↔ names = [] := by
  cases names with
  | nil => exact iff_of_true rfl rfl
  | cons name names => simp [slashed_cons]

theorem slashed_eq_intercalate {names : List Text} (some : names ≠ []) :
    slashed names = List.intercalate ['/'] names ++ ['/'] := by
  induction names with
  | nil => exact absurd rfl some
  | cons name names induction =>
      rw [slashed_cons]
      cases names with
      | nil => rw [List.intercalate_singleton]; rfl
      | cons next names =>
          rw [induction (List.cons_ne_nil _ _), List.intercalate_cons_cons]
          simp

theorem split_on_slashed_append {names : List Text} (whole : ∀ name ∈ names, '/' ∉ name)
    (rest : Text) : List.splitOn '/' (slashed names ++ rest) = names ++ List.splitOn '/' rest := by
  induction names with
  | nil => rfl
  | cons name names induction =>
      obtain ⟨first, others⟩ := List.forall_mem_cons.mp whole
      rw [slashed_cons, List.append_assoc, List.cons_append,
        List.splitOn_append_cons_self_of_not_mem first, induction others, List.cons_append]

/-- One text of names begins another exactly if the names do. -/
theorem slashed_append_eq_iff {upper names : List Text} {rest : Text}
    (upperWhole : ∀ name ∈ upper, '/' ∉ name) (whole : ∀ name ∈ names, '/' ∉ name) :
    slashed upper ++ rest = slashed names ↔
      ∃ lower, names = upper ++ lower ∧ rest = slashed lower := by
  constructor
  · intro same
    -- the names are read back as what stands between the slashes
    have pieces := congrArg (List.splitOn '/') same
    have alone := split_on_slashed_append whole []
    rw [List.append_nil, List.splitOn_nil] at alone
    rw [split_on_slashed_append upperWhole, alone] at pieces
    have shorter : upper.length ≤ names.length := by
      have lengths := congrArg List.length pieces
      have some := List.length_pos_of_ne_nil (List.splitOn_ne_nil '/' rest)
      simp only [List.length_append, List.length_singleton] at lengths
      omega
    obtain ⟨lower, rfl⟩ :=
      List.prefix_of_prefix_length_le ⟨_, pieces⟩ (List.prefix_append _ _) shorter
    rw [slashed_append] at same
    exact ⟨lower, rfl, List.append_cancel_left same⟩
  · rintro ⟨lower, rfl, rfl⟩
    exact (slashed_append upper lower).symm

/-- A text of names is cut between two names or inside one. -/
theorem exists_cut {names : List Text} {before after : Text}
    (whole : ∀ name ∈ names, '/' ∉ name) (cut : slashed names = before ++ after) :
    ∃ upper head lower, names = upper ++ attach head lower ∧ before = slashed upper ++ head ∧
      after = slashed lower ∧ '/' ∉ head := by
  induction names generalizing before with
  | nil =>
      obtain ⟨rfl, rfl⟩ := List.append_eq_nil_iff.mp cut.symm
      exact ⟨[], [], [], rfl, rfl, rfl, List.not_mem_nil⟩
  | cons name names induction =>
      obtain ⟨first, others⟩ := List.forall_mem_cons.mp whole
      rw [slashed_cons] at cut
      rcases List.append_eq_append_iff.mp cut with ⟨further, rfl, rest⟩ | ⟨tail, rfl, rest⟩
      · cases further with
        | nil =>
            refine ⟨[], name, [] :: names, ?_, ?_, ?_, first⟩
            · simp [attach]
            · simp [slashed]
            · rw [slashed_cons, List.nil_append]
              exact rest.symm
        | cons c further =>
            obtain ⟨rfl, further_eq⟩ := List.cons.inj rest
            obtain ⟨upper, head, lower, rfl, rfl, after_eq, inside⟩ := induction others further_eq
            refine ⟨name :: upper, head, lower, rfl, ?_, after_eq, inside⟩
            rw [slashed_cons, List.append_assoc, List.cons_append]
      · refine ⟨[], before, tail :: names, rfl, rfl, ?_, ?_⟩
        · rw [slashed_cons, rest]
        · exact fun member => first (List.mem_append_left _ member)

/-! ### Base directories -/

/-- The names of the directories that a base directory leads through; the project itself
has none. -/
def baseNames (base : Text) : List Text :=
  (Text.splitOn '/' (normalBase base)).dropLast

/-- A base directory is the project itself, or else neither begins nor ends with a slash before the
last one is added. -/
theorem normal_base_cases (base : Text) :
    normalBase base = [] ∨
      ∃ trimmed, normalBase base = trimmed ++ ['/'] ∧ trimmed ≠ [] ∧ trimmed.head? ≠ some '/' := by
  rw [normalBase]
  split
  · exact Or.inl rfl
  · rename_i further
    exact Or.inr ⟨_, rfl, fun none => further (Or.inl none), Text.head?_drop_around '/' _⟩

theorem base_names_spec (base : Text) :
    slashed (baseNames base) = normalBase base ∧ ∀ name ∈ baseNames base, '/' ∉ name := by
  rw [baseNames, Text.split_on_eq]
  rcases normal_base_cases base with project | ⟨trimmed, normal, -, -⟩
  · rw [project, List.splitOn_nil]
    exact ⟨rfl, nofun⟩
  · have pieces : List.splitOn '/' (normalBase base) = List.splitOn '/' trimmed ++ [[]] := by
      rw [normal, List.splitOn_append_cons_self, List.splitOn_nil]
    rw [pieces, List.dropLast_concat]
    refine ⟨?_, fun name => Text.not_mem_of_mem_split_on⟩
    rw [slashed_eq_intercalate (List.splitOn_ne_nil _ _), List.intercalate_splitOn, normal]

theorem base_names_of_project {base : Text} (project : normalBase base = []) :
    baseNames base = [] := by
  rw [baseNames, project]
  rfl

theorem slashed_base_names (base : Text) : slashed (baseNames base) = normalBase base :=
  (base_names_spec base).1

/-! ### The way from the project to a file -/

/-- The names of the directories from the project down to a file. The slash at the beginning of an
absolute path is no name. -/
def directoryNames? (file root : Path) : Option (List Text) :=
  (root.components.isPrefixOf? (file.parent?.getD root).components).map fun steps =>
    (steps.filter (· ≠ .root)).map fun step => Text.ofUtf8Lossy step.bytes

theorem relative_directory?_of_none {file root : Path}
    (outside : directoryNames? file root = none) :
    relativeDirectory? (file.parent?.getD root) root = none := by
  have above := Option.map_eq_none_iff.mp outside
  rw [relativeDirectory?, above]
  rfl

/-- A file below a project, with the text in which base directories are looked for: that of its
directories, behind slashes if the path is absolute and the project has no place. -/
structure Place (file root : Path) (names : List Text) (lead : Text) : Prop where
  found : directoryNames? file root = some names
  relative : relativeDirectory? (file.parent?.getD root) root = some (lead ++ slashed names)
  slashes : ∀ c ∈ lead, c = '/'
  areNames : ∀ name ∈ names, IsName name

theorem exists_place {file root : Path} {names : List Text}
    (inside : directoryNames? file root = some names) : ∃ lead, Place file root names lead := by
  have found := inside
  obtain ⟨steps, below, rfl⟩ := Option.map_eq_some_iff.mp inside
  obtain ⟨named, shape, areSteps⟩ := Path.exists_steps_below below
  have kept : named.filter (· ≠ .root) = named :=
    List.filter_eq_self.mpr fun step member => by simpa using (areSteps step member).notRoot
  have slash : Text.IsSingle '/' := ⟨by decide, by decide⟩
  have areNames : ∀ name ∈ named.map fun step => Text.ofUtf8Lossy step.bytes, IsName name := by
    intro name member
    obtain ⟨step, inNamed, rfl⟩ := List.mem_map.mp member
    exact ⟨Text.of_utf8_lossy_ne_nil (areSteps step inNamed).filled,
      slash.not_mem_of_utf8_lossy rfl (areSteps step inNamed).whole⟩
  have written : slashed (named.map fun step => Text.ofUtf8Lossy step.bytes) =
      named.flatMap fun step => Text.ofUtf8Lossy step.bytes ++ ['/'] := List.flatMap_map _ _ named
  have relative : relativeDirectory? (file.parent?.getD root) root =
      some (steps.flatMap fun step => Text.ofUtf8Lossy step.bytes ++ ['/']) := by
    rw [relativeDirectory?, below]
    rfl
  rcases shape with rfl | rfl
  · rw [kept] at found ⊢
    refine ⟨[], found, ?_, nofun, areNames⟩
    rw [relative, written, List.nil_append]
  · have dropped : (Path.Component.root :: named).filter (· ≠ .root) = named := by
      rw [List.filter_cons_of_neg (by simp), kept]
    rw [dropped] at found ⊢
    refine ⟨['/', '/'], found, ?_, by simp, areNames⟩
    rw [relative, written, List.flatMap_cons]
    rfl

end Derivation
end PhpNames
