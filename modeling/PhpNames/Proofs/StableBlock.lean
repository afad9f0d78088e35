import PhpNames.Proofs.BlockUpToOrder

/-!
Sorting statements is the stable sort of their texts.

The lines stay and the texts move. Texts that the policy does not tell apart keep their order, under
a descending policy too, since the order of two of them is turned round and not the list.
-/

namespace PhpNames

namespace SortPolicy

theorem filter_sort_texts (policy : SortPolicy) (texts : List Text) (text : Text) :
    (policy.sortTexts texts).filter (policy.order text · == .eq) =
      texts.filter (policy.order text · == .eq) := by
  apply StableSort.filter_sort
  intro left right leftLevel rightLevel
  rw [beq_iff_eq] at leftLevel rightLevel
  rw [Std.TransCmp.congr_left (Std.OrientedCmp.eq_symm leftLevel), rightLevel]
  rfl

end SortPolicy

namespace UseStatement

/-- Sorting puts the texts into their stable order onto the lines that the statements have. -/
theorem sort_stable_on_lines (policy : SortPolicy) (statements : List UseStatement) :
    (statements.length < 2 → sort policy statements = .error .nothingToSort) ∧
      (2 ≤ statements.length → ∃ sorted, sort policy statements = .ok sorted ∧
        sorted.map (·.line) = statements.map (·.line) ∧
        (sorted.map (·.text)).Perm (statements.map (·.text)) ∧
        ((sorted.map (·.text)).Pairwise fun upper lower => policy.order upper lower ≠ .gt) ∧
        (∀ text, (sorted.map (·.text)).filter (policy.order text · == .eq) =
          (statements.map (·.text)).filter (policy.order text · == .eq)) ∧
        sort policy sorted = .ok sorted ∧
        ∀ others : List UseStatement,
          (statements.map (·.text)).Perm (others.map (·.text)) →
          (∀ upper ∈ statements.map (·.text), ∀ lower ∈ statements.map (·.text),
            policy.order upper lower = .eq → upper = lower) →
          ∃ otherSorted, sort policy others = .ok otherSorted ∧
            otherSorted.map (·.text) = sorted.map (·.text)) := by
  constructor
  · intro few
    rw [sort, if_pos few]
  intro several
  obtain ⟨sorted, result⟩ : ∃ sorted, sort policy statements = .ok sorted := ⟨_, sort_eq several⟩
  have texts_eq := map_text_of_sort result
  refine ⟨sorted, result, map_line_of_sort result, ?_, ?_, ?_, sort_sorted result, ?_⟩
  · rw [texts_eq]
    exact policy.sort_texts_perm _
  · apply (ordered_of_sort result).imp
    intro upper lower below
    exact Ordering.isLE_iff_ne_gt.mp below
  · intro text
    rw [texts_eq, policy.filter_sort_texts]
  · intro others perm noTies
    have severalOthers : 2 ≤ others.length := by
      have length_eq := perm.length_eq
      rw [List.length_map, List.length_map] at length_eq
      omega
    refine ⟨_, sort_eq severalOthers, ?_⟩
    rw [map_text_of_sort (sort_eq severalOthers), texts_eq]
    exact (policy.sort_texts_eq_of_perm perm noTies).symm

def paddedStatements : List UseStatement :=
  [⟨"use B7;".toList, 2⟩, ⟨"use B10;".toList, 4⟩, ⟨"use B07;".toList, 5⟩]

def plainStatements : List UseStatement :=
  [⟨"use C;".toList, 1⟩, ⟨"use B2;".toList, 3⟩]

theorem sort_stable_on_lines_padded_and_plain :
    (([] : List UseStatement).length < 2 ∧ sort .length [] = .error .nothingToSort) ∧
      (2 ≤ paddedStatements.length ∧
        ∃ sorted, sort (.natural .descending) paddedStatements = .ok sorted ∧
          (sorted.map (·.text)).filter
            (SortPolicy.order (.natural .descending) "use B7;".toList · == .eq) =
            ["use B7;".toList, "use B07;".toList]) ∧
      2 ≤ plainStatements.length ∧
        (plainStatements.map (·.text)).Perm (plainStatements.reverse.map (·.text)) ∧
        ∃ sorted otherSorted, sort (.natural .ascending) plainStatements = .ok sorted ∧
          sort (.natural .ascending) plainStatements.reverse = .ok otherSorted ∧
          otherSorted.map (·.text) = sorted.map (·.text) := by
  have few := (sort_stable_on_lines .length []).1 (by decide)
  obtain ⟨padded, paddedResult, -, -, -, level, -⟩ :=
    (sort_stable_on_lines (.natural .descending) paddedStatements).2 (by decide)
  obtain ⟨plain, plainResult, -, -, -, -, -, sameTexts⟩ :=
    (sort_stable_on_lines (.natural .ascending) plainStatements).2 (by decide)
  have perm : (plainStatements.map (·.text)).Perm (plainStatements.reverse.map (·.text)) := by
    decide
  obtain ⟨turned, turnedResult, same⟩ := sameTexts plainStatements.reverse perm (by decide)
  refine ⟨⟨by decide, few⟩, ⟨by decide, padded, paddedResult, ?_⟩, by decide, perm, plain, turned,
    plainResult, turnedResult, same⟩
  rw [level]
  decide

end UseStatement
end PhpNames
