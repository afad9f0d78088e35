import PhpNames.Proofs.BlockUpToOrder

/-!
Two imports that are each followed by sorting may change places.

Each import puts its line below the statements, and the place of the second one's line does not
depend on the order that the first one has left. So both rounds come to what one sorting makes of
two new lines, which are the same lines whichever of them came first.
-/

namespace PhpNames

open Text Commands

namespace Document

open UseStatement InsertionPoint

variable {document left right : Document} {number : Nat} {name first second : Text} {block : Block}
  {policy : SortPolicy}

theorem Closed.takes_use_at (closed : document.Closed)
    (typesBelow : ∀ typeLine ∈ document.declarations.firstType,
      (InsertionPoint.of document.declarations).line < typeLine) :
    document.TakesUseAt (InsertionPoint.of document.declarations).line where
  plain := closed.plain
  place := rfl
  inside := by
    have scanned := Block.scan_none document.lines
    exact declarations_of_scan scanned ▸ closed.insertion_lt scanned
  noType := by
    intro line member isType
    have scanned := Block.scan_none document.lines
    have read := insertion_le_window scanned
    rw [declarations_of_scan scanned] at read
    obtain ⟨count, here⟩ := List.mem_iff_getElem?.mp member
    rw [List.getElem?_take] at here
    split at here
    case isFalse => cases here
    rename_i above
    have inWindow : (document.lines.take (Block.window document.lines))[count]? = some line := by
      rw [List.getElem?_take_of_lt (by omega), here]
    -- a type declaration up there would come first, or another one above it
    obtain ⟨typeLine, isFirst, upper⟩ := Declarations.exists_line_le
      (by decide : Construct.typeDeclaration ≠ .useStatement) inWindow
      (LineKind.shows_type_declaration.mpr isType)
    have below := typesBelow typeLine isFirst
    omega

/-! ### Classes that can be imported -/

theorem Alike.lacks (alike : Alike number left right) (takesLeft : left.TakesUseAt number)
    (takesRight : right.TakesUseAt number) (lacks : right.Lacks name) : left.Lacks name where
  absent found := lacks.absent (alike.mem_reach takesLeft.le_window (is_use_importing name) found)
  free := by
    have free := lacks.free
    rw [short_names_eq, takesRight.texts_eq] at free
    rw [short_names_eq, takesLeft.texts_eq, (alike.uses.filterMap shortNameOf?).mem_iff]
    exact free

theorem TakesUseAt.lacks_with_use (takes : document.TakesUseAt number)
    (segmented : Segmented isWordChar first) (different : baseName first ≠ baseName second)
    (lacks : document.Lacks second) : (document.withUse first).Lacks second where
  absent := by
    intro found
    rcases takes.mem_reach_with_use segmented.unbroken (is_use_importing second) found with
      same | old
    · have name_eq : second = first := List.append_cancel_left (List.append_cancel_right same)
      exact different (congrArg baseName name_eq.symm)
    · exact lacks.absent old
  free := by
    have named : shortNameOf? ([] ++ lineFor first none) = some (baseName first) :=
      short_name_of?_line_for segmented (by simp) List.not_mem_nil
    have free := lacks.free
    rw [short_names_eq] at free
    rw [short_names_eq, takes.texts_with_use segmented.unbroken, List.filterMap_append,
      List.mem_append, not_or]
    refine ⟨free, ?_⟩
    intro found
    obtain ⟨line, isLine, name_eq⟩ := List.mem_filterMap.mp found
    rw [List.mem_singleton.mp isLine] at name_eq
    exact different (Option.some.inj (named.symm.trans name_eq))

/-! ### Two rounds -/

def round (document : Document) (policy : SortPolicy) (name : Text) : Document :=
  (document.withUse name).sorted policy

theorem TakesUseAt.round (takes : document.TakesUseAt number) (unbroken : Unbroken name) :
    (document.round policy name).TakesUseAt (number + (blanksAbove document.declarations + 1)) :=
  (takes.with_use unbroken).sorted policy

theorem TakesUseAt.lacks_round (takes : document.TakesUseAt number)
    (segmented : Segmented isWordChar first) (different : baseName first ≠ baseName second)
    (lacks : document.Lacks second) : (document.round policy first).Lacks second :=
  ((takes.with_use segmented.unbroken).alike_sorted policy).lacks (takes.round segmented.unbroken)
    (takes.with_use segmented.unbroken) (takes.lacks_with_use segmented different lacks)

section Rounds

variable (takes : document.TakesUseAt number) (unbrokenFirst : Unbroken first)
  (unbrokenSecond : Unbroken second)
  (noTies : ∀ upper ∈ Block.texts document.lines ++ [importing first, importing second],
    ∀ lower ∈ Block.texts document.lines ++ [importing first, importing second],
      policy.order upper lower = .eq → upper = lower)

include takes unbrokenFirst unbrokenSecond

theorem TakesUseAt.texts_with_use_with_use :
    Block.texts ((document.withUse first).withUse second).lines =
      Block.texts document.lines ++ [importing first, importing second] := by
  rw [(takes.with_use unbrokenFirst).texts_with_use unbrokenSecond,
    takes.texts_with_use unbrokenFirst, List.append_assoc]
  rfl

include noTies

/-- The first sorting makes no difference. -/
theorem TakesUseAt.round_round :
    (document.round policy first).round policy second =
      ((document.withUse first).withUse second).sorted policy := by
  have takesFirst := takes.with_use unbrokenFirst
  have takesRound : (document.round policy first).TakesUseAt _ := takes.round unbrokenFirst
  have alike := (takesFirst.alike_sorted policy).symm.with_use takesFirst takesRound unbrokenSecond
  have same := declarations_congr (takesFirst.alike_sorted policy).kinds
  symm
  apply alike.sorted_eq policy
  · have takesBoth := takesFirst.with_use unbrokenSecond
    rwa [← same] at takesBoth
  · exact takesRound.with_use unbrokenSecond
  · rwa [takes.texts_with_use_with_use unbrokenFirst unbrokenSecond]

theorem TakesUseAt.sorted_swap :
    ((document.withUse first).withUse second).sorted policy =
      ((document.withUse second).withUse first).sorted policy := by
  have same := declarations_congr (takes.kinds_with_use unbrokenFirst unbrokenSecond)
  apply (takes.alike_swap unbrokenFirst unbrokenSecond).sorted_eq policy
  · have takesBoth := (takes.with_use unbrokenFirst).with_use unbrokenSecond
    rwa [same] at takesBoth
  · exact (takes.with_use unbrokenSecond).with_use unbrokenFirst
  · rwa [takes.texts_with_use_with_use unbrokenFirst unbrokenSecond]

end Rounds

end Document

/-! ### The command -/

namespace Workbench

open Job UseStatement

/-- Two imports, one after the other, that both succeed, and the document that they leave. -/
def ImportsInTurn (bench : Workbench) (uri : Text) (replaceSelection : Bool) (first second : Text)
    (final : Document) : Prop :=
  ∃ between after,
    ends (importClass uri none first replaceSelection) bench = (.ok .done, between) ∧
    ends (importClass uri none second replaceSelection) between = (.ok .done, after) ∧
    after.document? uri = some final

variable {bench : Workbench} {uri name first second : Text} {document : Document} {number : Nat}

theorem import_class_round (opened : bench.document? uri = some document)
    (lacks : document.Lacks name) (automatic : bench.settings.autoSort = true)
    (accepts : bench.AcceptsAll) (replaceSelection : Bool) :
    ∃ after made, ends (importClass uri none name replaceSelection) bench = (.ok .done, after) ∧
      bench.Makes made after ∧
      after.document? uri = some (document.round bench.settings.sortPolicy name) := by
  obtain ⟨after, made, ended, makes, shown⟩ :=
    import_class_free opened lacks accepts none replaceSelection
  refine ⟨after, made, ended, makes, ?_⟩
  rw [shown, ite_self, Document.followedUp, Document.followUp?, if_pos automatic]
  rfl

theorem imports_in_turn (opened : bench.document? uri = some document)
    (takes : document.TakesUseAt number) (segmented : Segmented isWordChar first)
    (different : baseName first ≠ baseName second) (lacksFirst : document.Lacks first)
    (lacksSecond : document.Lacks second) (automatic : bench.settings.autoSort = true)
    (accepts : bench.AcceptsAll) (replaceSelection : Bool) :
    bench.ImportsInTurn uri replaceSelection first second
      ((document.round bench.settings.sortPolicy first).round
        bench.settings.sortPolicy second) := by
  obtain ⟨between, made, ended, makes, shown⟩ :=
    import_class_round opened lacksFirst automatic accepts replaceSelection
  have settings_eq := makes.settings
  obtain ⟨after, -, endedLater, -, shownLater⟩ := import_class_round shown
    (takes.lacks_round segmented different lacksSecond) (settings_eq ▸ automatic)
    (makes.accepts_all accepts) replaceSelection
  rw [settings_eq] at shownLater
  exact ⟨between, after, ended, endedLater, shownLater⟩

/-- Two imports may change places if no two different statements are ties in the order by which they
are sorted, and no type is declared above the place of a new statement. -/
theorem import_class_either_order (bench : Workbench) (uri first second : Text)
    (document : Document) (block : Block) (replaceSelection : Bool)
    (opened : bench.document? uri = some document)
    (closed : document.Closed)
    (typesBelow : ∀ typeLine ∈ block.declarations.firstType,
      (InsertionPoint.of block.declarations).line < typeLine)
    (firstSegmented : Segmented isWordChar first) (secondSegmented : Segmented isWordChar second)
    (different : baseName first ≠ baseName second)
    (firstAbsent : Block.scan document.lines (some first) = .ok block)
    (secondAbsent : Block.scan document.lines (some second) = .ok block)
    (firstFree : UseStatement.takes block.uses (baseName first) = false)
    (secondFree : UseStatement.takes block.uses (baseName second) = false)
    (noTies : ∀ upper ∈ block.uses.map (·.text) ++ [importing first, importing second],
      ∀ lower ∈ block.uses.map (·.text) ++ [importing first, importing second],
        bench.settings.sortPolicy.order upper lower = .eq → upper = lower)
    (automatic : bench.settings.autoSort = true) (accepts : bench.AcceptsAll) :
    ∃ final, bench.ImportsInTurn uri replaceSelection first second final ∧
      bench.ImportsInTurn uri replaceSelection second first final ∧
      Block.texts final.lines = bench.settings.sortPolicy.sortTexts
        (block.uses.map (·.text) ++ [importing first, importing second]) := by
  have lacksFirst := Document.lacks_of_scan firstAbsent firstFree
  have lacksSecond := Document.lacks_of_scan secondAbsent secondFree
  have unbrokenFirst := firstSegmented.unbroken
  have unbrokenSecond := secondSegmented.unbroken
  have texts_eq : block.uses.map (·.text) = Block.texts document.lines :=
    Block.map_text_of_scan firstAbsent
  rw [Document.declarations_of_scan firstAbsent] at typesBelow
  have takes := closed.takes_use_at typesBelow
  rw [texts_eq] at noTies ⊢
  refine ⟨((document.withUse first).withUse second).sorted bench.settings.sortPolicy, ?_, ?_, ?_⟩
  · rw [← takes.round_round unbrokenFirst unbrokenSecond noTies]
    exact imports_in_turn opened takes firstSegmented different lacksFirst lacksSecond automatic
      accepts replaceSelection
  · have swapped (line : Text) : line ∈ Block.texts document.lines ++
        [importing second, importing first] ↔
          line ∈ Block.texts document.lines ++ [importing first, importing second] :=
      ((List.Perm.swap _ _ _).append_left _).mem_iff
    have noTiesSwapped : ∀ upper ∈ Block.texts document.lines ++
        [importing second, importing first], ∀ lower ∈ Block.texts document.lines ++
          [importing second, importing first],
            bench.settings.sortPolicy.order upper lower = .eq → upper = lower := by
      intro upper isUpper lower isLower
      exact noTies upper ((swapped upper).mp isUpper) lower ((swapped lower).mp isLower)
    rw [takes.sorted_swap unbrokenFirst unbrokenSecond noTies,
      ← takes.round_round unbrokenSecond unbrokenFirst noTiesSwapped]
    exact imports_in_turn opened takes secondSegmented different.symm lacksSecond lacksFirst
      automatic accepts replaceSelection
  · have takesBoth := (takes.with_use unbrokenFirst).with_use unbrokenSecond
    rw [Document.texts_sorted _ takesBoth.plain,
      takes.texts_with_use_with_use unbrokenFirst unbrokenSecond]

def crowdedBench : Workbench where
  documents := [("m".toList, ⟨"<?php\r\nuse M\\N;\r\nclass C\n".toList⟩)]

theorem import_class_either_order_crowded :
    ∃ final, crowdedBench.ImportsInTurn "m".toList false "App\\Foo".toList "Z9".toList final ∧
      crowdedBench.ImportsInTurn "m".toList false "Z9".toList "App\\Foo".toList final ∧
      Block.texts final.lines =
        ["use Z9;".toList, "use M\\N;".toList, "use App\\Foo;".toList] :=
  import_class_either_order crowdedBench "m".toList "App\\Foo".toList "Z9".toList
    ⟨"<?php\r\nuse M\\N;\r\nclass C\n".toList⟩
    ⟨[⟨"use M\\N;".toList, 1⟩], ⟨some 1, none, none, some 2, some 3⟩⟩ false rfl
    ⟨by decide, by decide⟩ (by decide) (by decide) (by decide) (by decide) (by decide +kernel)
    (by decide +kernel) (by decide +kernel) (by decide +kernel) (by decide +kernel) rfl (by decide)

end Workbench
end PhpNames
