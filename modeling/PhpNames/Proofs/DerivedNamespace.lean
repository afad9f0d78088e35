import Mathlib.Data.List.Induction
import PhpNames.Proofs.NamespaceSegments

/-!
The namespace of a file, name by name.

A base directory is looked for as a text, and the first place where the longest one occurs is taken
out. It always ends with a directory name, but it may begin inside one; what stands before it in
that name then runs into the name that follows. Where the base directories of a project occur at the
front only, the namespace is the one that a lookup by directory names gives.
-/

namespace PhpNames
namespace Text

structure FirstOccurrence (pattern text before after : Text) : Prop where
  parts : text = before ++ (pattern ++ after)
  first : ∀ earlier later, text = earlier ++ (pattern ++ later) → before.length ≤ earlier.length

theorem FirstOccurrence.at_front {pattern text before after : Text}
    (occurs : FirstOccurrence pattern text before after) (front : pattern <+: text) :
    before = [] := by
  obtain ⟨rest, parts⟩ := front
  have short := occurs.first [] rest parts.symm
  exact List.eq_nil_of_length_eq_zero (Nat.le_zero.mp short)

theorem FirstOccurrence.unique {pattern text before after otherBefore otherAfter : Text}
    (occurs : FirstOccurrence pattern text before after)
    (again : FirstOccurrence pattern text otherBefore otherAfter) :
    before = otherBefore ∧ after = otherAfter := by
  have length_eq := Nat.le_antisymm (occurs.first _ _ again.parts) (again.first _ _ occurs.parts)
  obtain ⟨rfl, same⟩ := List.append_inj (occurs.parts.symm.trans again.parts) length_eq
  exact ⟨rfl, List.append_cancel_left same⟩

theorem first_occurrence_of_cut_at_text? {pattern text before after : Text}
    (found : cutAtText? pattern text = some (before, after)) :
    FirstOccurrence pattern text before after := by
  induction text generalizing before with
  | nil =>
      rw [cutAtText?] at found
      split at found
      · rename_i none
        cases found
        rw [List.isEmpty_iff.mp none]
        exact ⟨rfl, fun _ _ _ => Nat.zero_le _⟩
      · cases found
  | cons c rest induction =>
      rw [cutAtText?] at found
      split at found
      · rename_i here
        cases found
        exact ⟨(List.append_eq_of_isPrefixOf?_eq_some here).symm, fun _ _ _ => Nat.zero_le _⟩
      · rename_i notHere
        obtain ⟨⟨upper, lower⟩, inRest, same⟩ := Option.map_eq_some_iff.mp found
        cases same
        obtain ⟨parts, first⟩ := induction inRest
        refine ⟨by rw [parts]; rfl, fun earlier later parts' => ?_⟩
        cases earlier with
        | nil =>
            rw [List.nil_append] at parts'
            have here := List.isPrefixOf?_eq_some_iff_append_eq.mpr parts'.symm
            rw [here] at notHere
            cases notHere
        | cons d earlier => exact Nat.succ_le_succ (first earlier later (List.cons.inj parts').2)

theorem cut_at_text?_eq_none_iff {pattern text : Text} :
    cutAtText? pattern text = none ↔ ¬pattern <:+: text := by
  constructor
  · intro missed
    induction text with
    | nil =>
        rw [cutAtText?] at missed
        split at missed
        · cases missed
        · rename_i some
          rw [List.infix_nil]
          simpa using some
    | cons c rest induction =>
        rw [cutAtText?] at missed
        split at missed
        · cases missed
        · rename_i notHere
          rw [List.infix_cons_iff]
          rintro (⟨after, here⟩ | later)
          · rw [List.isPrefixOf?_eq_some_iff_append_eq.mpr here] at notHere
            cases notHere
          · exact induction (Option.map_eq_none_iff.mp missed) later
  · intro outside
    by_contra cut
    obtain ⟨⟨before, after⟩, found⟩ := Option.ne_none_iff_exists'.mp cut
    have parts := (first_occurrence_of_cut_at_text? found).parts
    exact outside ⟨before, after, by rw [parts, List.append_assoc]⟩

end Text

namespace Derivation

def FirstLongest (Fits : Text × Text → Prop) (size : Text × Text → Nat)
    (pairs : List (Text × Text)) (pair : Text × Text) : Prop :=
  ∃ earlier later, pairs = earlier ++ pair :: later ∧ Fits pair ∧
    (∀ other ∈ earlier, Fits other → size other < size pair) ∧
    ∀ other ∈ later, Fits other → size other ≤ size pair

theorem FirstLongest.mem {Fits : Text × Text → Prop} {size : Text × Text → Nat}
    {pairs : List (Text × Text)} {pair : Text × Text}
    (longest : FirstLongest Fits size pairs pair) :
    pair ∈ pairs := by
  obtain ⟨earlier, later, rfl, -⟩ := longest
  exact List.mem_append_right _ List.mem_cons_self

theorem foldl_better_eq_none {candidates : List Match}
    (none : candidates.foldl better none = none) : candidates = [] := by
  induction candidates using List.reverseRecOn with
  | nil => rfl
  | append_singleton candidates next =>
      rw [List.foldl_append, List.foldl_cons, List.foldl_nil, better.eq_def] at none
      split at none
      · cases none
      · split at none <;> cases none

/-- The match that is kept is the first of those with the longest base. -/
theorem foldl_better {candidates : List Match} {found : Match}
    (best : candidates.foldl better none = some found) :
    ∃ earlier later, candidates = earlier ++ found :: later ∧
      (∀ other ∈ earlier, Text.utf8Length other.base < Text.utf8Length found.base) ∧
      ∀ other ∈ later, Text.utf8Length other.base ≤ Text.utf8Length found.base := by
  -- by the last candidate, since what was kept before it is the choice among the others
  induction candidates using List.reverseRecOn generalizing found with
  | nil => cases best
  | append_singleton candidates next induction =>
      rw [List.foldl_append, List.foldl_cons, List.foldl_nil] at best
      cases known : candidates.foldl better none with
      | none =>
          rw [known, better] at best
          cases best
          rw [foldl_better_eq_none known]
          exact ⟨[], [], rfl, nofun, nofun⟩
      | some old =>
          rw [known, better] at best
          obtain ⟨earlier, later, parts, shorter, noLonger⟩ := induction known
          split at best
          · rename_i longer
            cases best
            refine ⟨candidates, [], rfl, ?_, nofun⟩
            intro other member
            rw [parts, List.mem_append, List.mem_cons] at member
            rcases member with inEarlier | rfl | inLater
            · exact Nat.lt_trans (shorter other inEarlier) longer
            · exact longer
            · exact Nat.lt_of_le_of_lt (noLonger other inLater) longer
          · rename_i notLonger
            cases best
            refine ⟨earlier, later ++ [next], ?_, shorter, ?_⟩
            · rw [parts, List.append_assoc, List.cons_append]
            · intro other member
              rcases List.mem_append.mp member with inLater | isNext
              · exact noLonger other inLater
              · rw [List.mem_singleton.mp isNext]
                exact Nat.le_of_not_lt notLonger

theorem match_of?_eq_some {relative : Text} {pair : Text × Text} {found : Match}
    (matched : matchOf? relative pair = some found) :
    ∃ before after, Text.FirstOccurrence (normalBase pair.2) relative before after ∧
      found = ⟨pair.1, normalBase pair.2, before ++ after⟩ := by
  obtain ⟨⟨before, after⟩, cut, same⟩ := Option.bind_eq_some_iff.mp matched
  exact ⟨before, after, Text.first_occurrence_of_cut_at_text? cut, (Option.some.inj same).symm⟩

theorem match_of?_eq_none_iff {relative : Text} {pair : Text × Text} :
    matchOf? relative pair = none ↔ ¬normalBase pair.2 <:+: relative := by
  rw [← Text.cut_at_text?_eq_none_iff, matchOf?]
  cases Text.cutAtText? (normalBase pair.2) relative <;> simp

theorem best?_eq_none_iff {relative : Text} {map : AutoloadMap} :
    best? relative map = none ↔ ∀ pair ∈ map.pairs, ¬normalBase pair.2 <:+: relative := by
  have unmatched : map.pairs.filterMap (matchOf? relative) = [] ↔
      ∀ pair ∈ map.pairs, ¬normalBase pair.2 <:+: relative := by
    rw [List.filterMap_eq_nil_iff]
    simp only [match_of?_eq_none_iff]
  rw [← unmatched]
  refine ⟨foldl_better_eq_none, fun empty => ?_⟩
  rw [best?, empty]
  rfl

/-- The match that counts belongs to the first pair with the longest base that occurs, and cuts it
out where it occurs first. -/
theorem best?_eq_some {relative : Text} {map : AutoloadMap} {found : Match}
    (best : best? relative map = some found) :
    ∃ pair before after,
      FirstLongest (normalBase ·.2 <:+: relative) (Text.utf8Length <| normalBase ·.2) map.pairs
          pair ∧
        Text.FirstOccurrence (normalBase pair.2) relative before after ∧
        found = ⟨pair.1, normalBase pair.2, before ++ after⟩ := by
  have base_eq {pair : Text × Text} {other : Match}
      (matched : matchOf? relative pair = some other) :
      other.base = normalBase pair.2 := by
    obtain ⟨before, after, -, rfl⟩ := match_of?_eq_some matched
    rfl
  have exists_match {pair : Text × Text} (fits : normalBase pair.2 <:+: relative) :
      ∃ other, matchOf? relative pair = some other :=
    Option.ne_none_iff_exists'.mp fun none => match_of?_eq_none_iff.mp none fits
  obtain ⟨earlier, later, parts, shorter, noLonger⟩ := foldl_better best
  obtain ⟨upper, rest, pairs_eq, rfl, restParts⟩ := List.filterMap_eq_append_iff.mp parts
  obtain ⟨skipped, pair, lower, rfl, skip, matched, rfl⟩ := List.filterMap_eq_cons_iff.mp restParts
  obtain ⟨before, after, occurs, found_eq⟩ := match_of?_eq_some matched
  refine ⟨pair, before, after, ⟨upper ++ skipped, lower, ?_, ?_, ?_, ?_⟩, occurs, found_eq⟩
  · rw [pairs_eq, List.append_assoc]
  · exact ⟨before, after, by rw [occurs.parts, List.append_assoc]⟩
  · intro other member fits
    obtain ⟨candidate, matches'⟩ := exists_match fits
    rcases List.mem_append.mp member with inUpper | inSkipped
    · have smaller := shorter candidate (List.mem_filterMap.mpr ⟨other, inUpper, matches'⟩)
      rwa [base_eq matches', base_eq matched] at smaller
    · rw [skip other inSkipped] at matches'
      cases matches'
  · intro other member fits
    obtain ⟨candidate, matches'⟩ := exists_match fits
    have smaller := noLonger candidate (List.mem_filterMap.mpr ⟨other, member, matches'⟩)
    rwa [base_eq matches', base_eq matched] at smaller

/-! ### Where a base directory is cut out -/

/-- A base directory among the directories of a file: it stands below those of `upper`, from inside
the next one on if `head` is not empty, and above those of `lower`. -/
structure CutAt (names base upper : List Text) (head : Text) (lower : List Text) : Prop where
  names_eq : names = upper ++ attach head (base ++ lower)
  whole : '/' ∉ head
  headed : head ≠ [] → base ≠ []
  lowerNames : ∀ name ∈ lower, IsName name

theorem flatten_attach (head : Text) (names : List Text) :
    (attach head names).flatten = head ++ names.flatten := by
  cases names with
  | nil => by_cases none : head = [] <;> simp [attach, none]
  | cons name names => simp [attach]

section Cut

variable {names base upper lower : List Text} {head : Text}

/-- What is left has no other characters than what was there. -/
theorem CutAt.not_mem (cut : CutAt names base upper head lower) {c : Char}
    (absent : ∀ name ∈ names, c ∉ name) : ∀ name ∈ upper ++ attach head lower, c ∉ name := by
  have outside : c ∉ names.flatten := by
    intro member
    obtain ⟨name, inNames, inside⟩ := List.mem_flatten.mp member
    exact absent name inNames inside
  intro name member inside
  apply outside
  have inLeft := List.mem_flatten.mpr ⟨name, member, inside⟩
  rw [List.flatten_append, flatten_attach, List.mem_append, List.mem_append] at inLeft
  rw [cut.names_eq, List.flatten_append, flatten_attach, List.flatten_append]
  simp only [List.mem_append]
  rcases inLeft with inUpper | inHead | inLower
  · exact Or.inl inUpper
  · exact Or.inr (Or.inl inHead)
  · exact Or.inr (Or.inr (Or.inr inLower))

theorem CutAt.are_names (cut : CutAt names base upper head lower)
    (areNames : ∀ name ∈ names, IsName name) :
    ∀ name ∈ upper ++ attach head lower, IsName name := by
  have whole := cut.not_mem fun name member => (areNames name member).whole
  intro name member
  refine ⟨?_, whole name member⟩
  rcases List.mem_append.mp member with inUpper | inRest
  · exact (areNames name (cut.names_eq ▸ List.mem_append_left _ inUpper)).filled
  · cases lower with
    | nil =>
        rw [attach] at inRest
        split at inRest
        · cases inRest
        · rw [List.mem_singleton.mp inRest]
          assumption
    | cons first others =>
        rcases List.mem_cons.mp inRest with rfl | inOthers
        · have filled := (cut.lowerNames first List.mem_cons_self).filled
          exact List.append_ne_nil_of_right_ne_nil _ filled
        · exact (cut.lowerNames name (List.mem_cons_of_mem _ inOthers)).filled

end Cut

/-- The text that is left when a base directory is cut out ends in a slash at most. -/
theorem exists_trail_left (upper : List Text) (head : Text) (lower : List Text) :
    ∃ trail, slashed upper ++ (head ++ slashed lower) =
      List.intercalate ['/'] (upper ++ attach head lower) ++ trail ∧ ∀ c ∈ trail, c = '/' := by
  have closed : ∀ c ∈ ['/'], c = '/' := fun c => List.mem_singleton.mp
  cases lower with
  | nil =>
      by_cases headless : head = []
      · rw [headless, attach_nil, List.append_nil]
        change ∃ trail, slashed upper ++ [] = _ ∧ _
        rw [List.append_nil]
        by_cases top : upper = []
        · exact ⟨[], by rw [top]; rfl, nofun⟩
        · exact ⟨['/'], slashed_eq_intercalate top, closed⟩
      · have last : slashed upper ++ head ++ ['/'] =
            List.intercalate ['/'] (upper ++ [head]) ++ ['/'] := by
          rw [← slashed_eq_intercalate (List.append_ne_nil_of_right_ne_nil upper
            (List.cons_ne_nil head [])), slashed_append, slashed_cons, List.append_assoc]
          rfl
        refine ⟨[], ?_, nofun⟩
        rw [attach, if_neg headless, ← List.append_cancel_right last, List.append_nil]
        exact congrArg (slashed upper ++ ·) (List.append_nil head)
  | cons name names =>
      have written : slashed upper ++ (head ++ slashed (name :: names)) =
          slashed (upper ++ attach head (name :: names)) := by
        rw [slashed_append, attach, slashed_cons, slashed_cons, List.append_assoc]
      rw [written]
      exact ⟨['/'], slashed_eq_intercalate (List.append_ne_nil_of_right_ne_nil upper
        (List.cons_ne_nil _ _)), closed⟩

/-- The text that is left when a base directory is cut out, without the slashes around it. -/
theorem drop_around_left {lead head : Text} {upper lower : List Text}
    (slashes : ∀ c ∈ lead, c = '/')
    (areNames : ∀ name ∈ upper ++ attach head lower, IsName name) :
    Text.dropAround '/' (lead ++ (slashed upper ++ (head ++ slashed lower))) =
      List.intercalate ['/'] (upper ++ attach head lower) := by
  have filled := fun name member => (areNames name member).filled
  have whole := fun name member => (areNames name member).whole
  obtain ⟨trail, text_eq, trails⟩ : ∃ trail, slashed upper ++ (head ++ slashed lower) =
      List.intercalate ['/'] (upper ++ attach head lower) ++ trail ∧ ∀ c ∈ trail, c = '/' :=
    exists_trail_left upper head lower
  rw [text_eq]
  exact Text.drop_around_between slashes trails (Text.head?_intercalate filled whole)
    (Text.get_last?_intercalate filled whole)

theorem map_intercalate_slash {names : List Text} (whole : ∀ name ∈ names, '/' ∉ name) :
    (List.intercalate ['/'] names).map (fun c => if c = '/' then '\\' else c) = joined names := by
  have kept (name : Text) (clean : '/' ∉ name) :
      name.map (fun c => if c = '/' then '\\' else c) = name := by
    rw [List.map_congr_left fun c member => if_neg (ne_of_mem_of_not_mem member clean)]
    exact List.map_id name
  induction names with
  | nil => rfl
  | cons name rest induction =>
      obtain ⟨first, others⟩ := List.forall_mem_cons.mp whole
      by_cases last : rest = []
      · rw [last, List.intercalate_singleton, kept name first, joined, List.intercalate_singleton]
      · rw [List.intercalate_cons_of_ne_nil last, List.map_append, List.map_append,
          induction others, kept name first, joined_cons name last, List.append_assoc]
        rfl

theorem not_mem_of_attach {upper rest : List Text} {head : Text} {c : Char}
    (absent : ∀ name ∈ upper ++ attach head rest, c ∉ name) : ∀ name ∈ rest, c ∉ name := by
  intro name member inside
  cases rest with
  | nil => cases member
  | cons first others =>
      rcases List.mem_cons.mp member with rfl | inOthers
      · exact absent (head ++ name) (List.mem_append_right _ List.mem_cons_self)
          (List.mem_append_right _ inside)
      · exact absent name (List.mem_append_right _ (List.mem_cons_of_mem _ inOthers)) inside

/-- The first occurrence of a base directory, as a cut among the directories. -/
theorem exists_cut_at {lead before after base : Text} {names : List Text}
    (slashes : ∀ c ∈ lead, c = '/') (areNames : ∀ name ∈ names, IsName name)
    (occurs : Text.FirstOccurrence (normalBase base) (lead ++ slashed names) before after) :
    ∃ front upper head lower, CutAt names (baseNames base) upper head lower ∧
      before = front ++ (slashed upper ++ head) ∧ (∀ c ∈ front, c = '/') ∧
      before ++ after = lead ++ (slashed upper ++ (head ++ slashed lower)) := by
  obtain ⟨written, baseWhole⟩ := base_names_spec base
  have parts := occurs.parts
  rcases normal_base_cases base with project | ⟨trimmed, normal, some, notSlash⟩
  · have none := base_names_of_project project
    have atFront := occurs.at_front (project ▸ List.nil_prefix)
    rw [project, atFront] at parts
    refine ⟨[], [], [], names, ⟨?_, List.not_mem_nil, fun headed => absurd rfl headed, areNames⟩,
      atFront, nofun, ?_⟩
    · rw [none, attach_nil]
      rfl
    · rw [atFront]
      exact parts.symm
  · -- the base does not begin with a slash, so it lies behind those of an absolute path
    obtain ⟨inside, rfl, rest⟩ : ∃ inside, before = lead ++ inside ∧
        slashed names = inside ++ (normalBase base ++ after) := by
      rcases List.append_eq_append_iff.mp parts with
        ⟨inside, before_eq, rest⟩ | ⟨beyond, lead_eq, rest⟩
      · exact ⟨inside, before_eq, rest⟩
      · cases beyond with
        | nil => exact ⟨[], by rw [lead_eq, List.append_nil, List.append_nil], rest.symm⟩
        | cons c beyond =>
            have slash : c = '/' := slashes c (by simp [lead_eq])
            obtain ⟨d, others, rfl⟩ := List.exists_cons_of_ne_nil some
            rw [normal] at rest
            exact absurd (congrArg Option.some ((List.cons.inj rest).1.trans slash)) notSlash
    have whole := fun name member => (areNames name member).whole
    -- behind the cut stands the base, name by name, and then what is below it
    obtain ⟨upper, head, rest', names_eq, inside_eq, after_eq, headWhole⟩ := exists_cut whole rest
    rw [← written] at after_eq
    have restWhole := not_mem_of_attach (names_eq ▸ whole)
    obtain ⟨lower, rest_eq, lower_eq⟩ := (slashed_append_eq_iff baseWhole restWhole).mp after_eq
    have someBase : baseNames base ≠ [] := by
      intro none
      rw [none] at written
      rw [normal] at written
      cases trimmed <;> cases written
    refine ⟨lead, upper, head, lower, ⟨?_, headWhole, fun _ => someBase, ?_⟩, by rw [inside_eq],
      slashes, ?_⟩
    · rw [names_eq, rest_eq]
    · intro name member
      obtain ⟨next, others, base_eq⟩ := List.exists_cons_of_ne_nil someBase
      apply areNames
      rw [names_eq, rest_eq, base_eq]
      exact List.mem_append_right _ (List.mem_cons_of_mem _ (List.mem_append_right _ member))
    · rw [inside_eq, lower_eq]
      simp only [List.append_assoc]

/-! ### The derived namespace -/

/-- The pair that a namespace is derived from, with what stands before and after the first
occurrence of its base directory. -/
structure Chosen (map : AutoloadMap) (relative : Text) (pair : Text × Text) (before after : Text) :
    Prop where
  longest : FirstLongest (normalBase ·.2 <:+: relative) (Text.utf8Length <| normalBase ·.2)
    map.pairs pair
  occurs : Text.FirstOccurrence (normalBase pair.2) relative before after

theorem derive_outside {file root : Path} (outside : directoryNames? file root = none)
    (map : AutoloadMap) :
    derive file root map = .error (.noMatchingEntry (file.parent?.getD root).display) := by
  rw [derive, relative_directory?_of_none outside]

section Inside

variable {file root : Path} {map : AutoloadMap} {relative : Text}
  (inside : relativeDirectory? (file.parent?.getD root) root = some relative)

include inside

theorem derive_of_none (unmatched : best? relative map = none) :
    derive file root map = .error (.noMatchingEntry ('/' :: relative)) := by
  rw [derive, inside]
  dsimp only
  rw [unmatched]

theorem derive_of_some {found : Match} (matched : best? relative map = some found) :
    derive file root map = .ok (Text.dropLeading '\\' (collapse (compose found))) := by
  rw [derive, inside]
  dsimp only
  rw [matched]

end Inside

namespace Place

variable {file root : Path} {names : List Text} {lead : Text} (place : Place file root names lead)
  {map : AutoloadMap}

include place

theorem derive_unmatched (unmatched : best? (lead ++ slashed names) map = none) :
    derive file root map = .error (.noMatchingEntry ('/' :: (lead ++ slashed names))) :=
  derive_of_none place.relative unmatched

/-- A match gives the namespace of the directories that the first occurrence of its base leaves. -/
theorem exists_cut_of_match (clean : ∀ name ∈ names, '\\' ∉ name) {found : Match}
    (matched : best? (lead ++ slashed names) map = some found) :
    ∃ pair before after front upper head lower,
      Chosen map (lead ++ slashed names) pair before after ∧
        CutAt names (baseNames pair.2) upper head lower ∧
        before = front ++ (slashed upper ++ head) ∧ (∀ c ∈ front, c = '/') ∧
        derive file root map = .ok (namespaceOf pair.1 (upper ++ attach head lower)) := by
  obtain ⟨pair, before, after, longest, occurs, rfl⟩ := best?_eq_some matched
  obtain ⟨front, upper, head, lower, cut, before_eq, slashes, left⟩ :=
    exists_cut_at place.slashes place.areNames occurs
  refine ⟨pair, before, after, front, upper, head, lower, ⟨longest, occurs⟩, cut, before_eq,
    slashes, ?_⟩
  have areNames := cut.are_names place.areNames
  have whole := fun name member => (areNames name member).whole
  rw [derive_of_some place.relative matched]
  apply congrArg Except.ok
  apply settle_compose (fun name member => (areNames name member).filled) (cut.not_mem clean)
  rw [left, drop_around_left place.slashes areNames, map_intercalate_slash whole]

end Place

theorem at_name_start_iff {front head : Text} {upper : List Text} (slashes : ∀ c ∈ front, c = '/')
    (whole : '/' ∉ head) :
    (front ++ (slashed upper ++ head) = [] ∨
      (front ++ (slashed upper ++ head)).getLast? = some '/') ↔ head = [] := by
  constructor
  · rintro (none | last)
    · exact (List.append_eq_nil_iff.mp (List.append_eq_nil_iff.mp none).2).2
    · by_contra some
      rw [← List.append_assoc, List.getLast?_append_of_ne_nil _ some] at last
      exact whole (List.mem_of_mem_getLast? last)
  · rintro rfl
    rw [List.append_nil]
    by_cases top : upper = []
    · cases last : front.getLast? with
      | none => exact Or.inl (by rw [top, List.getLast?_eq_none_iff.mp last]; rfl)
      | some c =>
          right
          rw [top]
          change (front ++ []).getLast? = _
          rw [List.append_nil, last, slashes c (List.mem_of_mem_getLast? last)]
    · right
      rw [slashed_eq_intercalate top, ← List.append_assoc]
      exact List.getLast?_concat

/-- The namespace of a file comes from the first occurrence of the longest base directory that
occurs in its directory at all. It is whole directories that are cut out exactly if the occurrence
begins where a directory name begins; otherwise the beginning of a name stays and runs into the next
name. -/
theorem derive_cuts_first_occurrence {file root : Path} {map : AutoloadMap} {name : Text}
    (clean : ∀ names, directoryNames? file root = some names →
      ∀ directory ∈ names, '\\' ∉ directory)
    (derived : derive file root map = .ok name) :
    ∃ names relative pair before after lead upper lower,
      directoryNames? file root = some names ∧
        relativeDirectory? (file.parent?.getD root) root = some relative ∧
        Chosen map relative pair before after ∧ (∀ c ∈ lead, c = '/') ∧
        ((before = [] ∨ before.getLast? = some '/') ∧
            before = lead ++ slashed upper ∧
            names = upper ++ (baseNames pair.2 ++ lower) ∧
            name = namespaceOf pair.1 (upper ++ lower) ∨
          ¬(before = [] ∨ before.getLast? = some '/') ∧
            ∃ head first others, head ≠ [] ∧ before = lead ++ (slashed upper ++ head) ∧
              baseNames pair.2 = first :: others ∧
              names = upper ++ (head ++ first) :: (others ++ lower) ∧
              name = namespaceOf pair.1 (upper ++ attach head lower)) := by
  cases inside : directoryNames? file root with
  | none =>
      rw [derive_outside inside] at derived
      cases derived
  | some names =>
      obtain ⟨lead, place⟩ := exists_place inside
      cases matched : best? (lead ++ slashed names) map with
      | none =>
          rw [place.derive_unmatched matched] at derived
          cases derived
      | some found =>
          obtain
            ⟨pair, before, after, front, upper, head, lower, chosen, cut, rfl, slashes, result⟩ :=
              place.exists_cut_of_match (clean names inside) matched
          rw [result] at derived
          cases derived
          refine ⟨names, _, pair, _, after, front, upper, lower, rfl, place.relative, chosen,
            slashes, ?_⟩
          rw [at_name_start_iff slashes cut.whole]
          have names_eq := cut.names_eq
          by_cases atStart : head = []
          · rw [atStart, attach_nil] at names_eq ⊢
            exact Or.inl ⟨rfl, by rw [List.append_nil], names_eq, rfl⟩
          · obtain ⟨first, others, base_eq⟩ := List.exists_cons_of_ne_nil (cut.headed atStart)
            rw [base_eq] at names_eq
            exact Or.inr ⟨atStart, head, first, others, atStart, rfl, base_eq, names_eq, rfl⟩

def sourcesOnly : AutoloadMap :=
  ⟨[("Pkg\\".toList, ["src/".toList])]⟩

def projectRoot : Path :=
  .ofText "/p".toList

def nestedPackage : Path :=
  .ofText "/p/packages/acme/src/Http/Client.php".toList

theorem derive_cuts_first_occurrence_in_package :
    directoryNames? nestedPackage projectRoot = some (["packages".toList, "acme".toList] ++
        (baseNames "src/".toList ++ ["Http".toList])) ∧
      Chosen sourcesOnly "packages/acme/src/Http/".toList ("Pkg\\".toList, "src/".toList)
        "packages/acme/".toList "Http/".toList ∧
      derive nestedPackage projectRoot sourcesOnly =
        .ok (namespaceOf "Pkg\\".toList (["packages".toList, "acme".toList] ++ ["Http".toList])) ∧
      derive nestedPackage projectRoot sourcesOnly = .ok "Pkg\\packages\\acme\\Http".toList := by
  have found : directoryNames? nestedPackage projectRoot =
      some ["packages".toList, "acme".toList, "src".toList, "Http".toList] := by
    decide +kernel
  have clean : ∀ names, directoryNames? nestedPackage projectRoot = some names →
      ∀ directory ∈ names, '\\' ∉ directory := by
    rw [found]
    rintro _ ⟨⟩
    decide
  have derived : derive nestedPackage projectRoot sourcesOnly =
      .ok "Pkg\\packages\\acme\\Http".toList := by
    decide +kernel
  have inside : relativeDirectory? (nestedPackage.parent?.getD projectRoot) projectRoot =
      some "packages/acme/src/Http/".toList := by decide +kernel
  have cut : Text.FirstOccurrence "src/".toList "packages/acme/src/Http/".toList
      "packages/acme/".toList "Http/".toList :=
    Text.first_occurrence_of_cut_at_text? (by decide +kernel)
  obtain ⟨names, relative, pair, before, after, _, upper, lower, names_eq, relative_eq, chosen, -,
    ends⟩ := derive_cuts_first_occurrence clean derived
  obtain rfl := Option.some.inj (relative_eq.symm.trans inside)
  obtain rfl := Option.some.inj (names_eq.symm.trans found)
  obtain rfl : pair = ("Pkg\\".toList, "src/".toList) :=
    List.mem_singleton.mp chosen.longest.mem
  obtain ⟨rfl, rfl⟩ := chosen.occurs.unique cut
  rcases ends with ⟨-, -, names_eq, name_eq⟩ | ⟨inName, -⟩
  · have once : ["packages".toList, "acme".toList] ++ "src".toList :: ["Http".toList] =
        upper ++ "src".toList :: lower := names_eq
    obtain ⟨rfl, -, rfl⟩ := (List.append_cons_inj_of_notMem (by decide) (by decide)).mp once
    exact ⟨by rw [found, names_eq], chosen, by rw [derived, name_eq], derived⟩
  · exact absurd (Or.inr (by decide)) inName

/-- The end of a directory name is taken for a base directory, and its beginning runs into the name
that follows. -/
theorem derive_runs_names_together :
    directoryNames? (.ofText "/p/mysrc/Http/A.php".toList) projectRoot =
        some ["mysrc".toList, "Http".toList] ∧
      baseNames "src/".toList = ["src".toList] ∧
      ¬["src".toList] <:+: ["mysrc".toList, "Http".toList] ∧
      derive (.ofText "/p/mysrc/Http/A.php".toList) projectRoot sourcesOnly =
        .ok "Pkg\\myHttp".toList := by
  decide +kernel

/-! ### Base directories at the front -/

section Longest

variable {Fits Fits' : Text × Text → Prop} {size size' : Text × Text → Nat}
  {pairs : List (Text × Text)} {pair : Text × Text}

theorem FirstLongest.congr (longest : FirstLongest Fits size pairs pair)
    (fits_iff : ∀ other ∈ pairs, Fits other ↔ Fits' other)
    (size_iff : ∀ left ∈ pairs, ∀ right ∈ pairs, Fits left → Fits right →
      (size left < size right ↔ size' left < size' right)) :
    FirstLongest Fits' size' pairs pair := by
  obtain ⟨earlier, later, rfl, fits, shorter, noLonger⟩ := longest
  have here : pair ∈ earlier ++ pair :: later := List.mem_append_right _ List.mem_cons_self
  refine ⟨earlier, later, rfl, (fits_iff pair here).mp fits, ?_, ?_⟩
  · intro other member otherFits
    have inPairs : other ∈ earlier ++ pair :: later := List.mem_append_left _ member
    have otherFits := (fits_iff other inPairs).mpr otherFits
    exact (size_iff other inPairs pair here otherFits fits).mp (shorter other member otherFits)
  · intro other member otherFits
    have inPairs : other ∈ earlier ++ pair :: later :=
      List.mem_append_right _ (List.mem_cons_of_mem _ member)
    have otherFits := (fits_iff other inPairs).mpr otherFits
    apply Nat.le_of_not_lt
    rw [← size_iff pair here other inPairs fits otherFits]
    exact Nat.not_lt_of_le (noLonger other member otherFits)

theorem FirstLongest.fits (longest : FirstLongest Fits size pairs pair) : Fits pair := by
  obtain ⟨-, -, -, fits, -⟩ := longest
  exact fits

theorem FirstLongest.unique {other : Text × Text} (longest : FirstLongest Fits size pairs pair)
    (otherLongest : FirstLongest Fits size pairs other) : pair = other := by
  obtain ⟨earlier, later, rfl, fits, shorter, noLonger⟩ := longest
  obtain ⟨earlier', later', same, fits', shorter', noLonger'⟩ := otherLongest
  -- of two such pairs the later one is longer than the earlier one, and not longer either
  rcases List.append_eq_append_iff.mp same with ⟨between, rfl, rest⟩ | ⟨between, rfl, rest⟩
  · cases between with
    | nil => exact (List.cons.inj rest).1
    | cons first between =>
        obtain ⟨rfl, rfl⟩ := List.cons.inj rest
        have less := shorter' pair (List.mem_append_right _ List.mem_cons_self) fits
        have more := noLonger other (List.mem_append_right _ List.mem_cons_self) fits'
        omega
  · cases between with
    | nil => exact (List.cons.inj rest).1.symm
    | cons first between =>
        obtain ⟨rfl, rfl⟩ := List.cons.inj rest
        have less := shorter other (List.mem_append_right _ List.mem_cons_self) fits'
        have more := noLonger' pair (List.mem_append_right _ List.mem_cons_self) fits
        omega

end Longest

theorem utf8_length_slashed_lt (names : List Text) {others : List Text} (some : others ≠ []) :
    Text.utf8Length (slashed names) < Text.utf8Length (slashed (names ++ others)) := by
  obtain ⟨first, rest, rfl⟩ := List.exists_cons_of_ne_nil some
  have slash : 0 < (String.utf8EncodeChar '/').length := by decide
  rw [slashed_append, slashed_cons]
  simp only [Text.utf8Length, Text.utf8, List.flatMap_append, List.flatMap_cons,
    List.length_append]
  omega

/-- Of two base directories that begin one directory the one with more names is the longer text. -/
theorem utf8_length_slashed_lt_iff {names left right : List Text} (leftFront : left <+: names)
    (rightFront : right <+: names) :
    Text.utf8Length (slashed left) < Text.utf8Length (slashed right) ↔
      left.length < right.length := by
  rcases List.prefix_or_prefix_of_prefix leftFront rightFront with ⟨others, rfl⟩ | ⟨others, rfl⟩
  · by_cases none : others = []
    · rw [none, List.append_nil]
      exact iff_of_false (Nat.lt_irrefl _) (Nat.lt_irrefl _)
    · have some := List.length_pos_of_ne_nil none
      exact iff_of_true (utf8_length_slashed_lt left none) (by rw [List.length_append]; omega)
  · by_cases none : others = []
    · rw [none, List.append_nil]
      exact iff_of_false (Nat.lt_irrefl _) (Nat.lt_irrefl _)
    · have longer := utf8_length_slashed_lt right none
      exact iff_of_false (by omega) (by rw [List.length_append]; omega)

theorem Place.occurs_iff {file root : Path} {names : List Text} {lead : Text}
    (place : Place file root names lead) {base : Text}
    (atFront : normalBase base <:+: lead ++ slashed names →
      normalBase base <+: lead ++ slashed names) :
    normalBase base <:+: lead ++ slashed names ↔ baseNames base <+: names := by
  obtain ⟨written, baseWhole⟩ := base_names_spec base
  constructor
  · intro occurs
    obtain ⟨rest, parts⟩ := atFront occurs
    rcases normal_base_cases base with project | ⟨trimmed, normal, some, notSlash⟩
    · rw [base_names_of_project project]
      exact List.nil_prefix
    · have noLead : lead = [] := by
        by_contra slashed
        obtain ⟨c, lead, rfl⟩ := List.exists_cons_of_ne_nil slashed
        obtain ⟨d, others, rfl⟩ := List.exists_cons_of_ne_nil some
        have slash : c = '/' := place.slashes c List.mem_cons_self
        rw [normal] at parts
        exact notSlash (congrArg Option.some ((List.cons.inj parts).1.trans slash))
      rw [noLead, List.nil_append, ← written] at parts
      have whole := fun name member => (place.areNames name member).whole
      obtain ⟨lower, names_eq, -⟩ := (slashed_append_eq_iff baseWhole whole).mp parts
      exact ⟨lower, names_eq.symm⟩
  · rintro ⟨lower, rfl⟩
    refine ⟨lead, slashed lower, ?_⟩
    rw [slashed_append, written, List.append_assoc]

theorem namespace_of_eq {name : Text} {rest : List Text} (front : name.head? ≠ some '\\')
    (single : ¬['\\', '\\'] <:+: name) (filled : ∀ directory ∈ rest, directory ≠ []) :
    namespaceOf name rest =
      if joined rest = [] ∨
          (joined rest).map Char.toLower = (Text.dropTrailing '\\' name).map Char.toLower then
        Text.dropTrailing '\\' name
      else if Text.dropTrailing '\\' name = [] then joined rest
      else Text.dropTrailing '\\' name ++ '\\' :: joined rest := by
  have whole := joined_segments front single
  rw [namespaceOf, ← segments_drop_trailing name]
  generalize Text.dropTrailing '\\' name = kept at *
  by_cases repeats : (joined rest).map Char.toLower = kept.map Char.toLower
  · rw [if_pos repeats, if_pos (Or.inr repeats), List.append_nil, whole]
  · by_cases none : rest = []
    · rw [if_neg repeats, none, List.append_nil, if_pos (Or.inl (show joined [] = [] from rfl)),
        whole]
    · have some : joined rest ≠ [] := Text.intercalate_ne_nil filled none
      rw [if_neg repeats, if_neg (not_or.mpr ⟨some, repeats⟩)]
      by_cases unnamed : kept = []
      · rw [if_pos unnamed, unnamed, segments_nil, List.nil_append]
      · have named : segments kept ≠ [] := by
          intro none
          rw [none] at whole
          exact unnamed whole.symm
        rw [if_neg unnamed, joined_append named none, whole]

/-- The pair that a directory is looked up under by name: of the pairs whose base directory it
begins with, the first with the most names. -/
def LookedUp (map : AutoloadMap) (names : List Text) (pair : Text × Text) : Prop :=
  FirstLongest (fun pair => baseNames pair.2 <+: names) (fun pair => (baseNames pair.2).length)
    map.pairs pair

section AtFront

variable {file root : Path} {names : List Text} {lead : Text} {map : AutoloadMap}

theorem Place.unmatched (place : Place file root names lead)
    (front : ∀ pair ∈ map.pairs, normalBase pair.2 <:+: lead ++ slashed names →
      normalBase pair.2 <+: lead ++ slashed names)
    (none : best? (lead ++ slashed names) map = none) :
    ∀ pair ∈ map.pairs, ¬baseNames pair.2 <+: names := by
  intro pair member fits
  exact best?_eq_none_iff.mp none pair member ((place.occurs_iff (front pair member)).mpr fits)

/-- Where base directories occur at the front only, the match that counts is the pair that is looked
up by name, and nothing stands above its base directory. -/
theorem Place.exists_looked_up (place : Place file root names lead)
    (front : ∀ pair ∈ map.pairs, normalBase pair.2 <:+: lead ++ slashed names →
      normalBase pair.2 <+: lead ++ slashed names)
    (clean : ∀ name ∈ names, '\\' ∉ name) {found : Match}
    (matched : best? (lead ++ slashed names) map = some found) :
    ∃ pair lower, LookedUp map names pair ∧ names = baseNames pair.2 ++ lower ∧
      derive file root map = .ok (namespaceOf pair.1 lower) := by
  have fits_iff (pair : Text × Text) (member : pair ∈ map.pairs) :
      normalBase pair.2 <:+: lead ++ slashed names ↔ baseNames pair.2 <+: names :=
    place.occurs_iff (front pair member)
  obtain ⟨pair, before, after, _, upper, head, lower, chosen, cut, before_eq, -, result⟩ :=
    place.exists_cut_of_match clean matched
  -- a base that occurs at the front occurs there first
  obtain ⟨top, headless⟩ : upper = [] ∧ head = [] := by
    have atFront := front pair chosen.longest.mem chosen.longest.fits
    rw [chosen.occurs.at_front atFront] at before_eq
    have none := (List.append_eq_nil_iff.mp before_eq.symm).2
    exact (List.append_eq_nil_iff.mp none).imp_left slashed_eq_nil_iff.mp
  have names_eq := cut.names_eq
  rw [top, headless, attach_nil, List.nil_append] at names_eq result
  refine ⟨pair, lower, chosen.longest.congr fits_iff ?_, names_eq, result⟩
  intro left leftMember right rightMember leftFits rightFits
  rw [← slashed_base_names, ← slashed_base_names]
  exact utf8_length_slashed_lt_iff ((fits_iff left leftMember).mp leftFits)
    ((fits_iff right rightMember).mp rightFits)

end AtFront

/-- If base directories occur at the front only, a namespace is found name by name: the first pair
with the longest base directory that the file's directory begins with gives the name, and the
directories below it follow. -/
theorem derive_eq_longest_base {file root : Path} {map : AutoloadMap}
    (atFront : ∀ relative, relativeDirectory? (file.parent?.getD root) root = some relative →
      ∀ pair ∈ map.pairs, normalBase pair.2 <:+: relative → normalBase pair.2 <+: relative)
    (clean : ∀ names, directoryNames? file root = some names →
      ∀ directory ∈ names, '\\' ∉ directory)
    (tidy : ∀ pair ∈ map.pairs, pair.1.head? ≠ some '\\' ∧ ¬['\\', '\\'] <:+: pair.1) :
    ((∃ place, derive file root map = .error (.noMatchingEntry place)) ↔
      ∀ names, directoryNames? file root = some names →
        ∀ pair ∈ map.pairs, ¬baseNames pair.2 <+: names) ∧
    ∀ names, directoryNames? file root = some names →
      (∃ pair ∈ map.pairs, baseNames pair.2 <+: names) →
        (∃ pair, LookedUp map names pair) ∧
        ∀ name base rest, LookedUp map names (name, base) → names = baseNames base ++ rest →
          derive file root map = .ok
            (if joined rest = [] ∨
                (joined rest).map Char.toLower = (Text.dropTrailing '\\' name).map Char.toLower then
              Text.dropTrailing '\\' name
            else if Text.dropTrailing '\\' name = [] then joined rest
            else Text.dropTrailing '\\' name ++ '\\' :: joined rest) := by
  cases inside : directoryNames? file root with
  | none =>
      refine ⟨iff_of_true ⟨_, derive_outside inside map⟩ nofun, nofun⟩
  | some names =>
      obtain ⟨lead, place⟩ := exists_place inside
      have front := atFront _ place.relative
      cases matched : best? (lead ++ slashed names) map with
      | none =>
          have unmatched := place.unmatched front matched
          refine ⟨iff_of_true ⟨_, place.derive_unmatched matched⟩ ?_, ?_⟩
          · rintro _ ⟨⟩
            exact unmatched
          · rintro _ ⟨⟩ ⟨pair, member, fits⟩
            exact absurd fits (unmatched pair member)
      | some found =>
          obtain ⟨pair, lower, lookedUp, names_eq, result⟩ :=
            place.exists_looked_up front (clean names inside) matched
          refine ⟨iff_of_false ?_ ?_, ?_⟩
          · rintro ⟨place, failed⟩
            rw [result] at failed
            cases failed
          · intro unmatched
            exact unmatched names rfl pair lookedUp.mem lookedUp.fits
          · rintro _ ⟨⟩ -
            refine ⟨⟨pair, lookedUp⟩, ?_⟩
            intro name base rest otherUp below
            obtain rfl : pair = (name, base) := lookedUp.unique otherUp
            obtain rfl : lower = rest := List.append_cancel_left (names_eq.symm.trans below)
            obtain ⟨leading, single⟩ := tidy _ lookedUp.mem
            have filled : ∀ directory ∈ lower, directory ≠ [] := fun directory member =>
              (place.areNames directory (below ▸ List.mem_append_right _ member)).filled
            rw [result, namespace_of_eq leading single filled]

def testsInSources : AutoloadMap :=
  ⟨[("App\\".toList, ["src/".toList]),
    ("App\\Tests\\".toList, ["./src/tests".toList, "src\\tests\\".toList]),
    ("Zed\\".toList, ["src/tests/".toList])]⟩

def unitTest : Path :=
  .ofText "/p/src/tests/Unit/FooTest.php".toList

theorem derive_eq_longest_base_tests_in_sources :
    (∀ relative,
        relativeDirectory? (unitTest.parent?.getD projectRoot) projectRoot = some relative →
        ∀ pair ∈ testsInSources.pairs,
          normalBase pair.2 <:+: relative → normalBase pair.2 <+: relative) ∧
      (∀ names, directoryNames? unitTest projectRoot = some names →
        ∀ directory ∈ names, '\\' ∉ directory) ∧
      (∀ pair ∈ testsInSources.pairs, pair.1.head? ≠ some '\\' ∧ ¬['\\', '\\'] <:+: pair.1) ∧
      directoryNames? unitTest projectRoot = some ["src".toList, "tests".toList, "Unit".toList] ∧
      LookedUp testsInSources ["src".toList, "tests".toList, "Unit".toList]
        ("App\\Tests\\".toList, "./src/tests".toList) ∧
      derive unitTest projectRoot testsInSources = .ok "App\\Tests\\Unit".toList := by
  have below : relativeDirectory? (unitTest.parent?.getD projectRoot) projectRoot =
      some "src/tests/Unit/".toList := by
    decide +kernel
  have found : directoryNames? unitTest projectRoot =
      some ["src".toList, "tests".toList, "Unit".toList] := by
    decide +kernel
  have atFront : ∀ relative,
      relativeDirectory? (unitTest.parent?.getD projectRoot) projectRoot = some relative →
        ∀ pair ∈ testsInSources.pairs,
          normalBase pair.2 <:+: relative → normalBase pair.2 <+: relative := by
    rw [below]
    rintro _ ⟨⟩
    decide +kernel
  have clean : ∀ names, directoryNames? unitTest projectRoot = some names →
      ∀ directory ∈ names, '\\' ∉ directory := by
    rw [found]
    rintro _ ⟨⟩
    decide
  have tidy : ∀ pair ∈ testsInSources.pairs,
      pair.1.head? ≠ some '\\' ∧ ¬['\\', '\\'] <:+: pair.1 := by
    decide +kernel
  have lookedUp : LookedUp testsInSources ["src".toList, "tests".toList, "Unit".toList]
      ("App\\Tests\\".toList, "./src/tests".toList) :=
    ⟨[("App\\".toList, "src/".toList)],
      [("App\\Tests\\".toList, "src\\tests\\".toList), ("Zed\\".toList, "src/tests/".toList)],
      by decide +kernel⟩
  have derived := ((derive_eq_longest_base atFront clean tidy).2 _ found
    ⟨_, lookedUp.mem, lookedUp.fits⟩).2 _ _ ["Unit".toList] lookedUp (by decide +kernel)
  exact ⟨atFront, clean, tidy, found, lookedUp, derived.trans (by decide +kernel)⟩

end Derivation
end PhpNames
