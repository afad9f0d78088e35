import Mathlib.Data.List.DropRight
import PhpNames.Proofs.DerivedNamespace

/-!
The directories that may hold the manifest of a file.

The parent of a path is the path without its last step, however the path is spelled. So the way up
from a file meets every directory above it once, and if the workspace root is one of them, it ends
there. A namespace that is derived from a directory on the way never finds the file outside.
-/

namespace PhpNames

open Text (Bytes)

namespace Path

/-! ### Paths put together from pieces -/

inductive Division : Option Component → List Bytes → Prop where
  | relative {pieces : List Bytes} (busy : ∀ first ∈ pieces.head?, isIdle first = false) :
      Division none pieces
  | absolute (pieces : List Bytes) : Division (some .root) pieces
  | dotted {pieces : List Bytes} (empty : ∀ first ∈ pieces.head?, first = []) :
      Division (some .current) pieces

theorem exists_first_of_split (front bytes : Bytes) :
    ∃ first rest, split front bytes = (front.reverse ++ first) :: rest := by
  induction bytes generalizing front with
  | nil => exact ⟨[], [], by rw [split, List.append_nil]⟩
  | cons byte bytes induction =>
      rw [split]
      split
      · exact ⟨[], _, by rw [List.append_nil]⟩
      · obtain ⟨first, rest, pieces_eq⟩ := induction (byte :: front)
        exact ⟨byte :: first, rest, by rw [pieces_eq]; simp⟩

theorem division (path : Path) : Division path.divide.1 path.divide.2 := by
  fun_cases divide path
  case case1 => exact .relative (by simp)
  case case2 => exact .absolute _
  case case3 => exact .dotted fun first same => (Option.some.inj same).symm
  case case4 byte rest bytes_eq notSlash piece pieces cut notDot =>
    refine .relative fun first same => ?_
    obtain rfl : piece = first := Option.some.inj same
    obtain ⟨more, others, pieces_eq⟩ := exists_first_of_split [byte] rest
    rw [bytes_eq, split, if_neg notSlash, pieces_eq] at cut
    obtain ⟨rfl, -⟩ := List.cons.inj cut
    rw [isIdle, Bool.eq_false_iff.mpr notDot]
    rfl
  case case5 => exact .relative (by simp)

def written (lead : Option Component) (pieces : List Bytes) : Path :=
  ⟨leadBytes lead ++ List.intercalate [slash] pieces⟩

def stepsOf (pieces : List Bytes) : List Component :=
  (pieces.filter (!isIdle ·)).map stepOf

theorem components_eq (path : Path) :
    path.components = path.divide.1.toList ++ stepsOf path.divide.2 :=
  rfl

theorem steps_of_concat {last : Bytes} (busy : isIdle last = false) (pieces : List Bytes) :
    stepsOf (pieces ++ [last]) = stepsOf pieces ++ [stepOf last] := by
  rw [stepsOf, List.filter_append, List.filter_cons_of_pos (by rw [busy]; rfl), List.map_append]
  rfl

theorem intercalate_slash (first : Bytes) (rest : List Bytes) :
    List.intercalate [slash] (first :: rest) = first ++ joinPieces rest := by
  induction rest generalizing first with
  | nil => rw [List.intercalate_singleton, joinPieces, List.flatMap_nil, List.append_nil]
  | cons next rest induction =>
      rw [List.intercalate_cons_cons, induction, List.append_assoc]
      rfl

theorem split_first {first : Bytes} {rest : List Bytes}
    (whole : ∀ piece ∈ first :: rest, slash ∉ piece) :
    split [] (first ++ joinPieces rest) = first :: rest := by
  obtain ⟨firstWhole, restWhole⟩ := List.forall_mem_cons.mp whole
  rw [split_append firstWhole, split_join_pieces restWhole, List.append_nil, List.reverse_reverse]

theorem divide_dotted {rest : List Bytes} (whole : ∀ piece ∈ rest, slash ∉ piece) :
    divide ⟨dot :: joinPieces rest⟩ = (some .current, [] :: rest) := by
  have dotWhole : ∀ piece ∈ [dot] :: rest, slash ∉ piece :=
    List.forall_mem_cons.mpr ⟨by decide, whole⟩
  have cut : split [] (dot :: joinPieces rest) = [dot] :: rest := split_first dotWhole
  rw [divide]
  dsimp only
  rw [if_neg (by decide), cut]
  rfl

theorem divide_relative {first : Bytes} {rest : List Bytes}
    (whole : ∀ piece ∈ first :: rest, slash ∉ piece) (busy : isIdle first = false) :
    divide ⟨first ++ joinPieces rest⟩ = (none, first :: rest) := by
  have notDot : ¬(first == [dot]) = true := by
    intro same
    rw [isIdle, same, Bool.or_true] at busy
    cases busy
  have cut := split_first whole
  cases first with
  | nil => cases busy
  | cons byte more =>
      have notSlash : byte ≠ slash := by
        rintro rfl
        exact (List.forall_mem_cons.mp whole).1 List.mem_cons_self
      rw [List.cons_append] at cut ⊢
      rw [divide]
      dsimp only
      rw [if_neg notSlash, cut]
      dsimp only
      rw [if_neg notDot]

/-- A path that is put together from pieces has their steps. -/
theorem Division.components_written {lead : Option Component} {pieces : List Bytes}
    (division : Division lead pieces) (whole : ∀ piece ∈ pieces, slash ∉ piece) :
    (written lead pieces).components = lead.toList ++ stepsOf pieces := by
  cases pieces with
  | nil => cases division <;> rfl
  | cons first rest =>
      rw [written, intercalate_slash]
      cases division with
      | relative busy =>
          change components ⟨first ++ joinPieces rest⟩ = _
          rw [components_eq, divide_relative whole (busy first rfl)]
      | absolute =>
          change components ⟨slash :: (first ++ joinPieces rest)⟩ = _
          rw [components_absolute, split_first whole]
          rfl
      | dotted empty =>
          obtain rfl : first = [] := empty first rfl
          change components ⟨dot :: joinPieces rest⟩ = _
          rw [components_eq, divide_dotted (List.forall_mem_cons.mp whole).2]

/-! ### Parents -/

theorem Division.of_front {lead : Option Component} {pieces front : List Bytes}
    (division : Division lead pieces) (begins : front <+: pieces) : Division lead front := by
  have opens : ∀ first ∈ front.head?, first ∈ pieces.head? := by
    obtain ⟨rest, rfl⟩ := begins
    intro first isFirst
    rw [List.head?_append, isFirst]
    rfl
  cases division with
  | relative busy => exact .relative fun first isFirst => busy first (opens first isFirst)
  | absolute => exact .absolute front
  | dotted empty => exact .dotted fun first isFirst => empty first (opens first isFirst)

theorem drop_idle_begins (pieces : List Bytes) : dropIdle pieces <+: pieces :=
  List.rdropWhile_prefix isIdle pieces

theorem steps_of_drop_idle (pieces : List Bytes) : stepsOf (dropIdle pieces) = stepsOf pieces := by
  induction pieces using List.reverseRecOn with
  | nil => rfl
  | append_singleton pieces last induction =>
      cases idle : isIdle last with
      | true =>
          have dropped : dropIdle (pieces ++ [last]) = dropIdle pieces :=
            List.rdropWhile_concat_pos isIdle pieces last idle
          rw [dropped, induction, stepsOf, stepsOf, List.filter_append,
            List.filter_cons_of_neg (by rw [idle]; exact Bool.false_ne_true), List.filter_nil,
            List.append_nil]
      | false =>
          have kept : dropIdle (pieces ++ [last]) = pieces ++ [last] :=
            List.rdropWhile_concat_neg isIdle pieces last (by rw [idle]; exact Bool.false_ne_true)
          rw [kept]

theorem busy_of_drop_idle {pieces above : List Bytes} {last : Bytes}
    (kept : dropIdle pieces = above ++ [last]) : isIdle last = false := by
  have notDropped := List.head?_dropWhile_not isIdle pieces.reverse
  rw [List.reverse_eq_iff.mp kept, List.reverse_concat] at notDropped
  exact notDropped

theorem parent?_of_concat {path : Path} {above : List Bytes} {last : Bytes}
    (kept : dropIdle path.divide.2 = above ++ [last]) :
    path.parent? = some (written path.divide.1 (dropIdle above)) := by
  rw [parent?]
  dsimp only
  rw [kept, List.reverse_concat]
  dsimp only
  rw [List.reverse_reverse]
  rfl

theorem parent?_of_nil {path : Path} (nothing : dropIdle path.divide.2 = []) :
    path.parent? = if path.divide.1 = some .current then some ⟨[]⟩ else none := by
  rw [parent?]
  dsimp only
  rw [nothing]
  rfl

/-- The parent of a path lacks its last step; only a root and an empty path have none. -/
theorem parent?_cases (path : Path) :
    (path.parent? = none ∧ (path.components = [] ∨ path.components = [.root])) ∨
      ∃ above last, path.parent? = some above ∧ path.components = above.components ++ [last] := by
  have division := path.division
  rw [components_eq, ← steps_of_drop_idle path.divide.2]
  rcases List.eq_nil_or_concat' (dropIdle path.divide.2) with nothing | ⟨above, last, kept⟩
  · rw [nothing, parent?_of_nil nothing]
    generalize path.divide.1 = lead at division
    cases division with
    | relative => exact Or.inl ⟨rfl, Or.inl rfl⟩
    | absolute => exact Or.inl ⟨rfl, Or.inr rfl⟩
    | dotted => exact Or.inr ⟨⟨[]⟩, .current, rfl, rfl⟩
  · have begins : dropIdle above <+: path.divide.2 := by
      have inside := drop_idle_begins path.divide.2
      rw [kept] at inside
      exact (drop_idle_begins above).trans ((List.prefix_append above [last]).trans inside)
    have whole := fun piece member => path.divide_spec.2 piece (begins.subset member)
    refine Or.inr ⟨_, stepOf last, parent?_of_concat kept, ?_⟩
    rw [(division.of_front begins).components_written whole, steps_of_drop_idle above, kept,
      steps_of_concat (busy_of_drop_idle kept), List.append_assoc]

/-! ### The number of steps -/

theorem count_where_split (front bytes : Bytes) :
    (split front bytes).countP (· != []) ≤ front.length + bytes.length := by
  induction bytes generalizing front with
  | nil =>
      cases front with
      | nil => exact Nat.le_refl 0
      | cons byte front => exact List.countP_le_length.trans (Nat.le_add_left 1 front.length)
  | cons byte bytes induction =>
      rw [split]
      split
      · have further := induction []
        have here : [front.reverse].countP (· != []) ≤ 1 := List.countP_le_length
        rw [← List.singleton_append, List.countP_append, List.length_cons]
        rw [List.length_nil] at further
        omega
      · have further := induction (byte :: front)
        rw [List.length_cons] at further ⊢
        omega

theorem length_steps_of (pieces : List Bytes) :
    (stepsOf pieces).length ≤ pieces.countP (· != []) := by
  rw [stepsOf, List.length_map, ← List.countP_eq_length_filter]
  apply List.countP_mono_left
  intro piece _ busy
  rw [isIdle, Bool.not_eq_true', Bool.or_eq_false_iff] at busy
  rw [bne, busy.1]
  rfl

/-- A path has no more steps than bytes. -/
theorem length_components_le (path : Path) : path.components.length ≤ path.bytes.length := by
  have pieces := count_where_split [] path.bytes
  rw [List.length_nil, Nat.zero_add] at pieces
  rw [components_eq]
  fun_cases divide path
  case case1 => exact Nat.zero_le _
  case case2 rest bytes_eq =>
    have behind := count_where_split [] rest
    have steps := length_steps_of (split [] rest)
    rw [bytes_eq]
    simp only [List.length_append, List.length_cons, Option.toList_some, List.length_nil] at *
    omega
  case case3 piece rest cut isDot =>
    have steps := length_steps_of rest
    rw [cut, beq_iff_eq.mp isDot, List.countP_cons_of_pos (by decide)] at pieces
    have idle : stepsOf ([] :: rest) = stepsOf rest := rfl
    rw [idle, List.length_append]
    exact (Nat.add_comm _ _).trans_le ((Nat.succ_le_succ steps).trans pieces)
  case case4 piece rest cut _ =>
    rw [cut] at pieces
    exact (length_steps_of _).trans pieces
  case case5 => exact Nat.zero_le _

theorem components_ne_nil {path : Path} (somewhere : path.bytes ≠ []) : path.components ≠ [] := by
  have division := path.division
  rw [components_eq]
  revert division
  fun_cases divide path
  case case1 bytes_eq => exact absurd bytes_eq somewhere
  case case2 => exact fun _ => List.cons_ne_nil _ _
  case case3 => exact fun _ => List.cons_ne_nil _ _
  case case4 piece pieces _ _ =>
    rintro (busy | _)
    have first : isIdle piece = false := busy piece rfl
    change stepsOf (piece :: pieces) ≠ []
    rw [stepsOf, List.filter_cons_of_pos (by rw [first]; rfl)]
    exact List.cons_ne_nil _ _
  case case5 none =>
    obtain ⟨first, rest, some⟩ := exists_first_of_split [] path.bytes
    rw [none] at some
    cases some

/-! ### The way up -/

/-- The way from a directory up to a root: each path is the parent of the one before, and the root
comes last. -/
inductive Climb (root : Path) : Path → List Path → Prop where
  | arrived {path : Path} (same : path.same root = true) : Climb root path [path]
  | step {path above : Path} {rest : List Path} (parent : path.parent? = some above)
      (further : Climb root above rest) : Climb root path (path :: rest)

section Climbing

variable {root path above : Path} {steps : List Component} {directories : List Path}

theorem eq_of_same (same : path.same root = true) : path.components = root.components :=
  beq_iff_eq.mp same

theorem exists_last_of_parent? (parent : path.parent? = some above) :
    ∃ last, path.components = above.components ++ [last] := by
  rcases path.parent?_cases with ⟨none, -⟩ | ⟨_, last, found, parts⟩
  · rw [none] at parent
    cases parent
  · rw [found] at parent
    obtain rfl := Option.some.inj parent
    exact ⟨last, parts⟩

/-- A path below a root that is not empty has a parent in the root. -/
theorem exists_parent?_inside (somewhere : root.components ≠ []) {last : Component}
    (inside : path.components = root.components ++ (steps ++ [last])) :
    ∃ above, path.parent? = some above ∧ above.components = root.components ++ steps := by
  rcases path.parent?_cases with ⟨-, few⟩ | ⟨above, final, parent, parts⟩
  · exfalso
    have one := List.length_pos_of_ne_nil somewhere
    have count := congrArg List.length inside
    simp only [List.length_append, List.length_singleton] at count
    rcases few with none | single
    · rw [none, List.length_nil] at count
      omega
    · rw [single, List.length_singleton] at count
      omega
  · refine ⟨above, parent, ?_⟩
    rw [parts, ← List.append_assoc] at inside
    exact (List.append_inj' inside rfl).1

theorem ancestors_within_eq_cons (path : Path) (fuel : Nat) :
    ∃ rest, path.ancestorsWithin fuel = path :: rest := by
  cases fuel with
  | zero => exact ⟨[], rfl⟩
  | succ fuel =>
      rw [ancestorsWithin]
      split
      · exact ⟨_, rfl⟩
      · exact ⟨[], rfl⟩

/-- Within a root the ancestors lead up to it, if as many are listed as there are steps. -/
theorem climb_ancestors_within (somewhere : root.components ≠ []) {fuel : Nat}
    (inside : path.components = root.components ++ steps) (enough : steps.length ≤ fuel) :
    Climb root path (Derivation.upTo root (path.ancestorsWithin fuel)) := by
  induction steps using List.reverseRecOn generalizing path fuel with
  | nil =>
      have same : path.same root = true := beq_iff_eq.mpr (by rw [inside, List.append_nil])
      obtain ⟨rest, ancestors_eq⟩ := path.ancestors_within_eq_cons fuel
      rw [ancestors_eq, Derivation.upTo, if_pos same]
      exact .arrived same
  | append_singleton steps last induction =>
      obtain ⟨above, parent, aboveInside⟩ := exists_parent?_inside somewhere inside
      have notSame : ¬path.same root = true := by
        intro same
        have count := congrArg List.length ((eq_of_same same).symm.trans inside)
        simp only [List.length_append, List.length_singleton] at count
        omega
      rw [List.length_append, List.length_singleton] at enough
      obtain ⟨fuel, rfl⟩ := Nat.exists_eq_add_of_le' (Nat.le_of_add_left_le enough)
      have further := induction aboveInside (Nat.le_of_succ_le_succ enough)
      rw [ancestorsWithin, parent]
      dsimp only
      rw [Derivation.upTo, if_neg notSame]
      exact .step parent further

/-! Along the way, what is listed later is a shorter path. -/

theorem Climb.head? (climb : Climb root path directories) : directories.head? = some path := by
  cases climb <;> rfl

theorem Climb.exists_last (climb : Climb root path directories) :
    ∃ last, directories.getLast? = some last ∧ last.same root = true := by
  induction climb with
  | arrived same => exact ⟨_, rfl, same⟩
  | step parent further induction =>
      obtain ⟨last, isLast, same⟩ := induction
      exact ⟨last, by rw [List.getLast?_cons, isLast, Option.getD_some], same⟩

theorem Climb.is_chain (climb : Climb root path directories) :
    directories.IsChain fun lower upper => lower.parent? = some upper := by
  induction climb with
  | arrived => exact .singleton _
  | step parent further induction =>
      cases further with
      | arrived => exact .cons_cons parent induction
      | step => exact .cons_cons parent induction

theorem Climb.between (climb : Climb root path directories) :
    ∀ directory ∈ directories, root.components <+: directory.components ∧
      directory.components <+: path.components := by
  induction climb with
  | @arrived path same =>
      intro directory member
      rw [List.mem_singleton.mp member, eq_of_same same]
      exact ⟨List.prefix_rfl, List.prefix_rfl⟩
  | @step path above rest parent further induction =>
      obtain ⟨last, parts⟩ := exists_last_of_parent? parent
      have shorter : above.components <+: path.components := parts ▸ List.prefix_append _ _
      intro directory member
      rcases List.mem_cons.mp member with rfl | inRest
      · have first := (induction above (List.mem_of_mem_head? further.head?)).1
        exact ⟨first.trans shorter, List.prefix_rfl⟩
      · exact (induction directory inRest).imp_right (·.trans shorter)

theorem Climb.pairwise (climb : Climb root path directories) :
    directories.Pairwise fun lower upper => lower.same upper = false := by
  induction climb with
  | arrived => exact List.pairwise_singleton _ _
  | @step path above rest parent further induction =>
      refine List.pairwise_cons.mpr ⟨fun directory member => ?_, induction⟩
      obtain ⟨last, parts⟩ := exists_last_of_parent? parent
      have shorter := (further.between directory member).2.length_le
      rw [Bool.eq_false_iff]
      intro same
      rw [← eq_of_same same, parts, List.length_append, List.length_singleton] at shorter
      omega

end Climbing

end Path

namespace Derivation

variable {file root directory : Path}

/-- Where the file lies in the directory, a namespace is missed only if no base directory occurs. -/
theorem derive_missed {relative : Text} {map : AutoloadMap} {error : ResolveError}
    (inside : relativeDirectory? (file.parent?.getD directory) directory = some relative)
    (failed : derive file directory map = .error error) :
    error = .noMatchingEntry ('/' :: relative) ∧
      ∀ pair ∈ map.pairs, ¬normalBase pair.2 <:+: relative := by
  cases matched : best? relative map with
  | none =>
      rw [derive_of_none inside matched] at failed
      exact ⟨(Except.error.inj failed).symm, best?_eq_none_iff.mp matched⟩
  | some found =>
      rw [derive_of_some inside matched] at failed
      cases failed

theorem exists_relative_directory?
    (above : directory.components <+: (file.parent?.getD file).components) :
    ∃ relative, relativeDirectory? (file.parent?.getD directory) directory = some relative := by
  have begins : directory.components <+: (file.parent?.getD directory).components := by
    cases parent : file.parent? with
    | none => exact List.prefix_rfl
    | some place =>
        rw [parent] at above
        exact above
  obtain ⟨steps, parts⟩ := begins
  rw [relativeDirectory?, List.isPrefixOf?_eq_some_iff_append_eq.mpr parts]
  exact ⟨_, rfl⟩

theorem manifest_directories_inside (inside : (file.parent?.getD file).startsWith root = true) :
    manifestDirectories file root = .ok (upTo root (file.parent?.getD file).ancestors) := by
  rw [manifestDirectories]
  exact if_pos inside

theorem manifest_directories_outside (outside : (file.parent?.getD file).startsWith root = false) :
    manifestDirectories file root = .error .manifestNotFound := by
  rw [manifestDirectories]
  exact if_neg (by rw [outside]; exact Bool.false_ne_true)

/-- The manifest of a file is looked for on the way from its directory up to the workspace root, and
nowhere if the root is not above it. A namespace derived from a directory on the way is missed only
because no base directory occurs in what lies between that directory and the file. -/
theorem manifest_directories_lead_to_root (file root : Path) (somewhere : root.bytes ≠ []) :
    (manifestDirectories file root = .error .manifestNotFound ↔
        (file.parent?.getD file).startsWith root = false) ∧
      ((file.parent?.getD file).startsWith root = true →
        ∃ directories, manifestDirectories file root = .ok directories ∧
          directories.Pairwise (fun lower upper => lower.same upper = false) ∧
          directories.head? = some (file.parent?.getD file) ∧
          (∃ last, directories.getLast? = some last ∧ last.same root = true) ∧
          directories.IsChain (fun lower upper => lower.parent? = some upper) ∧
          ∀ directory ∈ directories, directory.startsWith root = true ∧
            ∃ relative,
              relativeDirectory? (file.parent?.getD directory) directory = some relative ∧
                ∀ map error, derive file directory map = .error error →
                  error = .noMatchingEntry ('/' :: relative) ∧
                    ∀ pair ∈ map.pairs, ¬normalBase pair.2 <:+: relative) := by
  constructor
  · constructor
    · intro failed
      rw [Bool.eq_false_iff]
      intro inside
      rw [manifest_directories_inside inside] at failed
      cases failed
    · exact manifest_directories_outside
  · intro inside
    obtain ⟨steps, parts⟩ := List.isPrefixOf_iff_prefix.mp inside
    have enough : steps.length ≤ (file.parent?.getD file).bytes.length := by
      have count := (file.parent?.getD file).length_components_le
      rw [← parts, List.length_append] at count
      omega
    have climb := Path.climb_ancestors_within (Path.components_ne_nil somewhere) parts.symm enough
    refine ⟨_, manifest_directories_inside inside, climb.pairwise, climb.head?, climb.exists_last,
      climb.is_chain, fun directory member => ?_⟩
    obtain ⟨inRoot, above⟩ := climb.between directory member
    obtain ⟨relative, found⟩ := exists_relative_directory? above
    exact ⟨List.isPrefixOf_iff_prefix.mpr inRoot, relative, found,
      fun map error => derive_missed found⟩

def spelledFile : Path :=
  .ofText "/p//src/./Http/A.php".toList

def spelledRoot : Path :=
  .ofText "/./p/".toList

theorem manifest_directories_lead_to_root_spelled :
    spelledRoot.bytes ≠ [] ∧ (spelledFile.parent?.getD spelledFile).startsWith spelledRoot = true ∧
      ∃ directories, manifestDirectories spelledFile spelledRoot = .ok directories ∧
        directories.Pairwise (fun lower upper => lower.same upper = false) ∧
        directories.head? = some (.ofText "/p//src/./Http".toList) ∧
        (∃ last, directories.getLast? = some last ∧ last.same spelledRoot = true) ∧
        directories = ["/p//src/./Http", "/p//src", "/p"].map fun text => .ofText text.toList := by
  have somewhere : spelledRoot.bytes ≠ [] := by decide +kernel
  have inside : (spelledFile.parent?.getD spelledFile).startsWith spelledRoot = true := by
    decide +kernel
  have listed : manifestDirectories spelledFile spelledRoot =
      .ok (["/p//src/./Http", "/p//src", "/p"].map fun text => .ofText text.toList) := by
    decide +kernel
  obtain ⟨directories, found, apart, first, last, -⟩ :=
    (manifest_directories_lead_to_root spelledFile spelledRoot somewhere).2 inside
  refine ⟨somewhere, inside, directories, found, apart, first.trans (by decide +kernel), last, ?_⟩
  rw [listed] at found
  exact (Except.ok.inj found).symm

end Derivation
end PhpNames
