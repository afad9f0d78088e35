import PhpNames.Proofs.DistinctNames

/-!
Imports that meet no obstacle: the class is not imported yet, its short name is free, and the editor
refuses nothing. Such an import succeeds, and what it leaves of the document is a function of the
document and the settings.
-/

namespace PhpNames

open Commands

namespace Document

open UseStatement

def declarations (document : Document) : Declarations :=
  Declarations.shownBy (document.lines.take (Block.window document.lines))

def withUse (document : Document) (name : Text) : Document :=
  document.replaceAll [insertEdit name none document.declarations]

variable {document left right : Document} {name : Text} {block : Block}

theorem declarations_of_scan {stop : Option Text} {block : Block}
    (scanned : Block.scan document.lines stop = .ok block) :
    block.declarations = document.declarations :=
  congrArg Block.declarations (Block.eq_shown_by_of_scan scanned)

theorem declarations_congr (kinds_eq : left.lines.map LineKind.of = right.lines.map LineKind.of) :
    left.declarations = right.declarations := by
  rw [declarations, Declarations.shownBy, List.map_take, kinds_eq, Block.window_congr kinds_eq,
    ← List.map_take]
  rfl

/-- Whether a class is not imported yet and its short name is free. -/
structure Lacks (document : Document) (name : Text) : Prop where
  absent : importing name ∉ document.lines.take (Block.window document.lines + 1)
  free : baseName name ∉ document.shortNames

theorem lacks_of_scan (scanned : Block.scan document.lines (some name) = .ok block)
    (free : UseStatement.takes block.uses (baseName name) = false) : document.Lacks name where
  absent := by
    intro found
    rw [Block.scan_already_imported found] at scanned
    cases scanned
  free := not_mem_short_names scanned free

theorem Lacks.scan (lacks : document.Lacks name) :
    ∃ block, Block.scan document.lines (some name) = .ok block ∧
      UseStatement.takes block.uses (baseName name) = false := by
  have scanned : Block.scan document.lines (some name) =
      .ok (Block.shownBy (document.lines.take (Block.window document.lines))) := by
    rw [Block.scan_eq, if_neg]
    intro stops
    obtain ⟨line, member, isStop⟩ := List.any_eq_true.mp stops
    have line_eq : line = importing name := by simpa [Block.isStop] using isStop
    exact lacks.absent (line_eq ▸ member)
  refine ⟨_, scanned, ?_⟩
  rw [← Bool.not_eq_true, takes_iff scanned]
  exact lacks.free

end Document

namespace Workbench

open FaithfulEditor Job

variable {bench : Workbench} {uri name : Text} {document : Document} {block : Block}

theorem ends_word_at {position : Position} {word : Word}
    (opened : bench.document? uri = some document)
    (touched : document.wordAt? position = some word) :
    ends (wordAt uri position) bench = (.ok word, bench) := by
  have present : ((faithful uri).desk bench).document = some document := opened
  rw [FaithfulEditor.ends_word_at present, touched]

/-- Finding out what a name stands for hands no batch to the editor. -/
theorem ends_resolve {full : Text} (picked : (ends (resolve name) bench).1 = .ok (some full)) :
    ∃ found, ends (resolve name) bench = (.ok (some full), found) ∧ bench.Makes [] found := by
  obtain ⟨made, trace, ended⟩ : Concludes [] (fun _ => True) (resolve name) bench _ :=
    concludes_resolve trivial bench
  rw [picked] at ended
  cases ended
  exact ⟨_, Prod.ext picked rfl, makes_of_trace trace⟩

theorem import_class_free (opened : bench.document? uri = some document)
    (lacks : document.Lacks name) (accepts : bench.AcceptsAll) (selection : Option Range)
    (replaceSelection : Bool) :
    ∃ after made, ends (importClass uri selection name replaceSelection) bench =
        (.ok .done, after) ∧ bench.Makes made after ∧
      after.document? uri = some ((document.replaceAll
        (selectionEdit (if replaceSelection then selection else none) (baseName name) ++
          [UseStatement.insertEdit name none document.declarations])).followedUp
            bench.settings) := by
  obtain ⟨block, scanned, free⟩ := lacks.scan
  have present : ((faithful uri).desk bench).document = some document := opened
  have concludes : Concludes uri (fun _ => False) _ bench _ :=
    concludes_import_class (faithful uri) bench selection name replaceSelection
  unfold Concludes at concludes
  generalize ends (importClass uri selection name replaceSelection) bench = ended at concludes ⊢
  obtain ⟨result, after⟩ := ended
  obtain ⟨made, trace, ended⟩ := concludes
  have makes := makes_of_trace trace
  rcases (ended.of_free present scanned free).done_or_refused with
    ⟨settings, told, rfl, written⟩ | ⟨-, refused, member, isRefused⟩
  · have shows := document?_of_trace trace opened
    rw [written, told_eq told, Document.declarations_of_scan scanned] at shows
    exact ⟨after, made, rfl, makes, shows⟩
  · rw [makes.willing accepts refused member] at isRefused
    cases isRefused

theorem import_name_free {full : Text} (opened : bench.document? uri = some document)
    (picked : (ends (resolve name) bench).1 = .ok (some full)) (lacks : document.Lacks full)
    (accepts : bench.AcceptsAll) (selection : Option Range) :
    ∃ after made, ends (importName uri selection name) bench = (.ok .done, after) ∧
      bench.Makes made after ∧
      after.document? uri = some ((document.replaceAll
        (selectionEdit (if name.contains '\\' then selection else none) (baseName full) ++
          [UseStatement.insertEdit full none document.declarations])).followedUp
            bench.settings) := by
  obtain ⟨found, resolved, asked⟩ := ends_resolve picked
  rw [import_name_eq, ends_bind, resolved]
  rw [← asked.document? uri] at opened
  rw [← asked.settings]
  obtain ⟨after, made, ended, makes, shown⟩ :=
    import_class_free opened lacks (asked.accepts_all accepts) selection (name.contains '\\')
  exact ⟨after, made, ended, asked.trans makes, shown⟩

theorem import_at_free {position : Position} {word : Word} {full : Text}
    (opened : bench.document? uri = some document)
    (touched : document.wordAt? position = some word)
    (picked : (ends (resolve word.text) bench).1 = .ok (some full)) (lacks : document.Lacks full)
    (accepts : bench.AcceptsAll) :
    ∃ after made, ends (importAt uri position) bench = (.ok .done, after) ∧
      bench.Makes made after ∧
      after.document? uri = some ((document.replaceAll
        (selectionEdit (if word.text.contains '\\' then some (word.range position.line) else none)
          (baseName full) ++ [UseStatement.insertEdit full none document.declarations])).followedUp
            bench.settings) := by
  rw [importAt, ends_bind, ends_word_at opened touched]
  exact import_name_free opened picked lacks accepts _

end Workbench
end PhpNames
