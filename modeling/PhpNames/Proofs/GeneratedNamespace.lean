import PhpNames.Proofs.CommandRuns
import PhpNames.Proofs.NormalSeparators

/-!
The namespace that is generated for a document.

A run that succeeds has found a manifest on the way up to the workspace root, has derived a
namespace from it and has written the statement for that namespace. The statement has no name
exactly if the manifest maps a name without segments to a base directory below which no directory is
left.
-/

namespace PhpNames

open Commands PhpNames.Derivation

namespace Job

variable {σ α β : Type} {s after : σ} {b : β} {next : α → Job σ β}

/-! What is left of a job that succeeds, behind a question and behind a result. -/

theorem ends_of_ask {question : StateM σ α}
    (succeeded : ends (liftM question >>= next) s = (.ok b, after)) :
    ends (next (question.run s).1) (question.run s).2 = (.ok b, after) := by
  rwa [ends_bind, ends_ask] at succeeded

theorem ends_of_except {result : Except ResolveError α}
    (succeeded : ends (liftM result >>= next) s = (.ok b, after)) :
    ∃ a, result = .ok a ∧ ends (next a) s = (.ok b, after) := by
  rw [ends_bind, ends_except] at succeeded
  cases result with
  | error error => cases succeeded
  | ok a => exact ⟨a, rfl, succeeded⟩

end Job

/-! ### The manifest -/

section Manifests

variable {σ : Type} [MonadEditor (StateM σ)] {s : σ} {directories : List Path} {project : Path}
  {text : Text}

def rootAt (s : σ) : Option Path :=
  ((MonadEditor.workspaceRoot : StateM σ _).run s).1

/-- Whether an editor shows a text for the manifest of a directory when it is asked in some state
that further questions lead to. -/
def ShowsManifest (s : σ) (directory : Path) (text : Text) : Prop :=
  ∃ asked lines, Questions s asked ∧ text = Text.joinLines lines ∧
    ((MonadEditor.openFile (directory.child (Text.utf8 Manifest.fileName)) : StateM σ _).run
      asked).1 = some lines

theorem ShowsManifest.earlier {asked : σ} (shows : ShowsManifest asked project text)
    (questions : Questions s asked) : ShowsManifest s project text := by
  obtain ⟨later, lines, further, text_eq, shown⟩ := shows
  exact ⟨later, lines, questions.trans further, text_eq, shown⟩

theorem asks_find_manifest (directories : List Path) :
    Asks σ (findManifest directories : StateM σ _) := by
  induction directories with
  | nil => exact asks_pure none
  | cons directory rest induction =>
      rw [findManifest]
      apply asks_bind (asks_request (.openFile (directory.child (Text.utf8 Manifest.fileName))) rfl)
      intro found
      cases found with
      | none => exact induction
      | some lines => exact asks_pure _

/-- The manifest that is found is that of a directory on the list. -/
theorem find_manifest_found
    (found : ((findManifest directories : StateM σ _).run s).1 = some (project, text)) :
    project ∈ directories ∧ ShowsManifest s project text := by
  induction directories generalizing s with
  | nil => cases found
  | cons directory rest induction =>
      rw [findManifest, StateT.run_bind] at found
      rcases answer : (MonadEditor.openFile (directory.child (Text.utf8 Manifest.fileName)) :
        StateM σ _).run s with ⟨_ | lines, asked⟩
      · rw [answer] at found
        obtain ⟨member, shows⟩ := induction found
        refine ⟨List.mem_cons_of_mem _ member, shows.earlier ?_⟩
        have step : Questions s _ :=
          .step .refl (.openFile (directory.child (Text.utf8 Manifest.fileName))) rfl
        rwa [Request.perform, run_state, answer] at step
      · rw [answer] at found
        cases found
        exact ⟨List.mem_cons_self, s, lines, .refl, rfl, by rw [answer]⟩

/-- A namespace as it is derived for a document: from a manifest on the way from its file up to the
workspace root. -/
structure Generates (s : σ) (uri : Text) (file project : Path) (map : AutoloadMap) (name : Text) :
    Prop where
  file_eq : Uri.toPath? uri = some file
  onWay : ∃ root directories, rootAt s = some root ∧
    manifestDirectories file root = .ok directories ∧ project ∈ directories
  manifest : ∃ text, ShowsManifest s project text ∧ Manifest.autoloadMap text = .ok map
  derived : derive file project map = .ok name

end Manifests

namespace FaithfulEditor

open Job

variable {σ : Type} [MonadEditor (StateM σ)] {uri : Text} {s after : σ} {name : Text}

def writeStatement (uri name : Text) : Job σ Unit := do
  let lines ← linesOf uri
  let block ← Block.scan lines none
  submit uri [NamespaceStatement.edit name lines block.declarations]

theorem generates_of_ends
    (succeeded : ends (generateNamespace uri : Job σ Unit) s = (.ok (), after)) :
    ∃ file project map name asked, Generates s uri file project map name ∧ Questions s asked ∧
      ends (writeStatement uri name) asked = (.ok (), after) := by
  have asked : Questions s ((MonadEditor.workspaceRoot : StateM σ _).run s).2 :=
    .step .refl .workspaceRoot rfl
  replace succeeded := ends_of_ask succeeded
  obtain ⟨root, root_eq⟩ : ∃ root, rootAt s = some root := by
    cases answer : rootAt s with
    | some root => exact ⟨root, rfl⟩
    | none =>
        rw [rootAt] at answer
        rw [answer] at succeeded
        cases succeeded
  have answered := root_eq
  rw [rootAt] at answered
  rw [answered] at succeeded
  obtain ⟨file, file_eq⟩ : ∃ file, Uri.toPath? uri = some file := by
    cases named : Uri.toPath? uri with
    | some file => exact ⟨file, rfl⟩
    | none =>
        rw [named] at succeeded
        cases succeeded
  rw [file_eq] at succeeded
  obtain ⟨directories, listed, searching⟩ := ends_of_except succeeded
  generalize ((MonadEditor.workspaceRoot : StateM σ _).run s).2 = between at asked searching
  have questions := asked.trans (asks_find_manifest directories between)
  replace searching := ends_of_ask searching
  obtain ⟨project, text, found⟩ : ∃ project text,
      ((findManifest directories : StateM σ _).run between).1 = some (project, text) := by
    cases answer : ((findManifest directories : StateM σ _).run between).1 with
    | some pair => exact ⟨pair.1, pair.2, rfl⟩
    | none =>
        rw [answer] at searching
        cases searching
  rw [found] at searching
  obtain ⟨map, parsed, deriving'⟩ := ends_of_except searching
  obtain ⟨name, derived, writing⟩ := ends_of_except deriving'
  obtain ⟨member, shows⟩ := find_manifest_found found
  exact ⟨file, project, map, name, _,
    ⟨file_eq, ⟨root, directories, root_eq, listed, member⟩, ⟨text, shows.earlier asked, parsed⟩,
      derived⟩, questions, writing⟩

theorem exists_document_of_lines_of (editor : FaithfulEditor σ uri) {α : Type}
    {next : List Text → Job σ α} {a : α}
    (succeeded : ends (linesOf uri >>= next) s = (.ok a, after)) :
    ∃ document, (editor.desk s).document = some document ∧
      ends (next document.lines) s = (.ok a, after) := by
  cases present : (editor.desk s).document with
  | none =>
      rw [ends_bind, ends_lines_of_absent present] at succeeded
      cases succeeded
  | some document =>
      rw [ends_bind, ends_lines_of present] at succeeded
      exact ⟨document, rfl, succeeded⟩

theorem written_of_ends (editor : FaithfulEditor σ uri)
    (ended : ends (writeStatement uri name : Job σ Unit) s = (.ok (), after)) :
    ∃ document block, (editor.desk s).document = some document ∧
      Block.scan document.lines none = .ok block ∧
      (editor.desk after).document = some
        (document.replaceAll [NamespaceStatement.edit name document.lines block.declarations]) := by
  obtain ⟨document, present, scanning⟩ := editor.exists_document_of_lines_of ended
  obtain ⟨block, scanned, submitting⟩ := ends_of_except scanning
  obtain ⟨made, trace, hands⟩ : Concludes uri (fun _ => False) (submit uri _) s _ :=
    concludes_submit s uri [NamespaceStatement.edit name document.lines block.declarations]
  rw [submitting] at trace hands
  cases hands with
  | accepted batch => exact ⟨document, block, present, scanned, trace.document_eq present⟩

theorem statement_unnamed_iff :
    NamespaceStatement.statement name = "namespace ;".toList ↔ name = [] := by
  have unnamed : NamespaceStatement.statement [] = "namespace ;".toList := by decide +kernel
  constructor
  · intro same
    exact List.append_cancel_left (List.append_cancel_right (same.trans unnamed.symm))
  · intro empty
    rw [empty, unnamed]

/-- A generated namespace is written into the document. Its statement has no name exactly if the
manifest gives the base directory of the file a name without segments and leaves nothing but
separators around that directory. -/
theorem generate_namespace_unnamed_iff (editor : FaithfulEditor σ uri)
    (succeeded : ends (generateNamespace uri : Job σ Unit) s = (.ok (), after)) :
    ∃ file project map name document block relative pair above below,
      Generates s uri file project map name ∧
        (editor.desk s).document = some document ∧
        Block.scan document.lines none = .ok block ∧
        (editor.desk after).document = some
          (document.replaceAll [NamespaceStatement.edit name document.lines block.declarations]) ∧
        relativeDirectory? (file.parent?.getD project) project = some relative ∧
        Chosen map relative pair above below ∧
        (NamespaceStatement.statement name = "namespace ;".toList ↔
          (∀ c ∈ pair.1, c = '\\') ∧ ∀ c ∈ above ++ below, c = '/' ∨ c = '\\') := by
  obtain ⟨file, project, map, name, asked, generates, questions, writing⟩ :=
    generates_of_ends succeeded
  obtain ⟨document, block, present, scanned, written⟩ := editor.written_of_ends writing
  obtain ⟨relative, pair, above, below, inside, chosen, empty_iff⟩ :=
    exists_chosen_of_derive generates.derived
  rw [(keeps_of_questions questions).desk_eq] at present
  refine ⟨file, project, map, name, document, block, relative, pair, above, below, generates,
    present, scanned, written, inside, chosen, ?_⟩
  rw [statement_unnamed_iff, empty_iff]

end FaithfulEditor

namespace Workbench

open Job

def sourceFile : Text := "file:///p/src/A.php".toList

def globalSources : Workbench where
  root := some (.ofText "/p".toList)
  documents :=
    [(sourceFile, ⟨"<?php\n".toList⟩),
      ("file:///p/composer.json".toList,
        ⟨"\x7b\"autoload\":\x7b\"psr-4\":\x7b\"\":\"src/\"\x7d\x7d\x7d".toList⟩)]

def appManifest : Text :=
  "\x7b\"autoload\":\x7b\"psr-4\":\x7b\"App\\\\\":\"src/\"\x7d\x7d\x7d".toList

def appSources : AutoloadMap :=
  ⟨[("App\\".toList, ["src/".toList])]⟩

def mappedSources : Workbench where
  root := some (.ofText "/p".toList)
  documents :=
    [(sourceFile, ⟨"<?php namespace Old;\n".toList⟩),
      ("file:///p/composer.json".toList, ⟨appManifest⟩)]

theorem open_file?_of_questions {bench after : Workbench} (asked : Questions bench after)
    (path : Path) : after.openFile? path = bench.openFile? path := by
  induction asked with
  | refl => rfl
  | step _ request quiet induction =>
      rw [← induction]
      cases request with
      | candidateFiles name => cases quiet
      | applyEdits uri edits => cases quiet
      | _ => rfl

theorem generate_namespace_unnamed_iff_mapped_sources :
    (ends (generateNamespace sourceFile : Job Workbench Unit) mappedSources).1 = .ok () ∧
      (ends (generateNamespace sourceFile : Job Workbench Unit) mappedSources).2.document?
        sourceFile = some ⟨"<?php namespace App;\n".toList⟩ ∧
      Generates mappedSources sourceFile (.ofText "/p/src/A.php".toList) (.ofText "/p".toList)
        appSources "App".toList ∧
      Chosen appSources "src/".toList ("App\\".toList, "src/".toList) [] [] ∧
      (NamespaceStatement.statement "App".toList = "namespace ;".toList ↔
        (∀ c ∈ "App\\".toList, c = '\\') ∧ ∀ c ∈ ([] : Text), c = '/' ∨ c = '\\') := by
  have done : (ends (generateNamespace sourceFile : Job Workbench Unit) mappedSources).1 =
      .ok () := by decide +kernel
  have succeeded : ends (generateNamespace sourceFile : Job Workbench Unit) mappedSources =
      (.ok (), (ends (generateNamespace sourceFile : Job Workbench Unit) mappedSources).2) := by
    generalize ends (generateNamespace sourceFile : Job Workbench Unit) mappedSources = ended
      at done
    exact Prod.ext done rfl
  obtain ⟨file, project, map, name, _, _, relative, pair, above, below, generates, -, -, -, inside,
      chosen, unnamed⟩ :=
    FaithfulEditor.generate_namespace_unnamed_iff (faithful sourceFile) succeeded
  have file_eq : Uri.toPath? sourceFile = some (.ofText "/p/src/A.php".toList) := by decide +kernel
  obtain rfl := Option.some.inj (generates.file_eq.symm.trans file_eq)
  have way : manifestDirectories (.ofText "/p/src/A.php".toList) (.ofText "/p".toList) =
      .ok [.ofText "/p/src".toList, .ofText "/p".toList] := by decide +kernel
  obtain ⟨_, directories, ⟨⟩, listed, onWay⟩ := generates.onWay
  obtain rfl := Except.ok.inj (listed.symm.trans way)
  obtain ⟨_, ⟨asked, lines, questions, rfl, shown⟩, parsed⟩ := generates.manifest
  replace shown := (open_file?_of_questions questions _).symm.trans shown
  obtain rfl : project = .ofText "/p".toList := by
    rcases List.mem_cons.mp onWay with rfl | onWay
    · rw [show mappedSources.openFile? _ = none by decide +kernel] at shown
      cases shown
    · exact List.mem_singleton.mp onWay
  have text : mappedSources.openFile?
      ((Path.ofText "/p".toList).child (Text.utf8 Manifest.fileName)) = some [appManifest] := by
    decide +kernel
  obtain rfl := Option.some.inj (shown.symm.trans text)
  have map_eq : Manifest.autoloadMap (Text.joinLines [appManifest]) = .ok appSources := by
    decide +kernel
  obtain rfl := Except.ok.inj (parsed.symm.trans map_eq)
  have name_eq : derive (.ofText "/p/src/A.php".toList) (.ofText "/p".toList) appSources =
      .ok "App".toList := by decide +kernel
  obtain rfl := Except.ok.inj (generates.derived.symm.trans name_eq)
  have relative_eq : relativeDirectory? ((Path.ofText "/p/src/A.php".toList).parent?.getD
      (.ofText "/p".toList)) (.ofText "/p".toList) = some "src/".toList := by decide +kernel
  obtain rfl := Option.some.inj (inside.symm.trans relative_eq)
  obtain rfl : pair = ("App\\".toList, "src/".toList) :=
    List.mem_singleton.mp chosen.longest.mem
  have cut : Text.FirstOccurrence "src/".toList "src/".toList [] [] :=
    Text.first_occurrence_of_cut_at_text? (by decide +kernel)
  obtain ⟨rfl, rfl⟩ := chosen.occurs.unique cut
  exact ⟨done, by decide +kernel, generates, chosen, unnamed⟩

/-- A file at the top of the base directory of the global namespace gets a statement without a
name. -/
theorem generate_namespace_writes_no_name :
    (ends (generateNamespace sourceFile : Job Workbench Unit) globalSources).1 = .ok () ∧
      (ends (generateNamespace sourceFile : Job Workbench Unit) globalSources).2.document?
        sourceFile = some ⟨"<?php\n\nnamespace ;\n".toList⟩ := by
  decide +kernel

end Workbench
end PhpNames
