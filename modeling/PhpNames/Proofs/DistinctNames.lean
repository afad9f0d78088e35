import PhpNames.Proofs.BlockGrowth
import PhpNames.Proofs.ImportCalls

/-!
Imports never make one short name available twice.

A name is only added if no statement makes it available yet, a statement is only replaced by one
with the same name, and sorting exchanges statements. So a document whose short names are distinct
stays such, whatever is imported or sorted, accepted or refused.
-/

namespace PhpNames

open Text Commands

namespace Document

open UseStatement

def shortNames (document : Document) : List Text :=
  match Block.scan document.lines none with
  | .ok block => block.uses.filterMap (·.shortName?)
  | .error _ => []

/-- A document in which no two statements make the same name available. -/
def Clean (document : Document) : Prop :=
  document.shortNames.Nodup

instance (document : Document) : Decidable document.Clean :=
  inferInstanceAs (Decidable (List.Nodup _))

variable {document new : Document} {name : Text} {otherName stop : Option Text} {block : Block}

theorem short_names_eq (document : Document) :
    document.shortNames = (Block.texts document.lines).filterMap shortNameOf? := by
  have scanned := Block.scan_none document.lines
  rw [shortNames, scanned, Block.texts, ← Block.map_text_of_scan scanned, List.filterMap_map]
  rfl

theorem takes_iff (scanned : Block.scan document.lines stop = .ok block) :
    takes block.uses name = true ↔ name ∈ document.shortNames := by
  rw [short_names_eq, Block.texts, ← Block.map_text_of_scan scanned, List.filterMap_map,
    List.mem_filterMap, takes, List.any_eq_true]
  simp only [beq_iff_eq]
  rfl

theorem not_mem_short_names (scanned : Block.scan document.lines stop = .ok block)
    (free : takes block.uses name = false) : name ∉ document.shortNames := by
  rw [← takes_iff scanned, free]
  decide

/-! ### One batch -/

def nameOnLine? (line : Text) : Option Text :=
  if isUse line then shortNameOf? line else none

theorem short_names_congr (kinds_eq : new.lines.map LineKind.of = document.lines.map LineKind.of)
    (names_eq : new.lines.map nameOnLine? = document.lines.map nameOnLine?) :
    new.shortNames = document.shortNames := by
  have read (lines : List Text) (count : Nat) :
      ((lines.take count).filter isUse).filterMap shortNameOf? =
        ((lines.map nameOnLine?).take count).filterMap id := by
    rw [List.filterMap_filter, ← List.map_take, List.filterMap_map]
    rfl
  rw [short_names_eq, short_names_eq, Block.texts, Block.texts, read, read, names_eq,
    Block.window_congr kinds_eq]

theorem short_names_insert_use (plain : Plain document.text)
    (scanned : Block.scan document.lines stop = .ok block) (segmented : Segmented isWordChar name)
    (typed : ∀ other ∈ otherName, other ≠ [] ∧ ∀ c ∈ other, isWordChar c = true) :
    (document.replaceAll [insertEdit name otherName block.declarations]).shortNames.Sublist
      (document.shortNames ++ [shownName name otherName]) := by
  have unbroken : Unbroken (lineFor name otherName) :=
    unbroken_line_for segmented.unbroken
      fun other isOther => unbroken_of_letters (typed other isOther).2
  have named {before : Text} (noEnd : ';' ∉ before) :=
    short_name_of?_line_for segmented typed noEnd
  rw [short_names_eq, short_names_eq document]
  rcases texts_insert_use plain unbroken scanned with added | ⟨others, last, old, glued⟩
  · have alone : shortNameOf? ([] ++ lineFor name otherName) = _ := named List.not_mem_nil
    have ownName :
        [lineFor name otherName].filterMap shortNameOf? = [shownName name otherName] := by
      rw [List.nil_append] at alone
      rw [List.filterMap_cons, alone]
      rfl
    rw [← ownName, ← List.filterMap_append]
    exact added.filterMap _
  · apply (glued.filterMap shortNameOf?).trans
    rw [old, List.filterMap_append, List.filterMap_append, List.append_assoc]
    apply List.Sublist.append_left
    by_cases ended : ';' ∈ last
    · -- the last statement was ended, so it goes on to make the same name available
      rw [List.filterMap_cons, short_name_of?_append ended, ← List.filterMap_cons]
      exact List.sublist_append_left _ _
    · rw [List.filterMap_cons, named ended, List.filterMap_cons, short_name_of?_eq_none ended]
      exact List.Sublist.refl _

theorem short_names_replace_use {edit : Edit} (plain : Plain document.text)
    (scanned : Block.scan document.lines stop = .ok block) (segmented : Segmented isWordChar name)
    (found : replaceEdit? name block.uses = some edit) :
    (document.replaceAll [edit]).shortNames = document.shortNames ∧
      Plain (document.replaceAll [edit]).text := by
  obtain ⟨taken, isTaken, edit_eq⟩ := Option.bind_eq_some_iff.mp found
  obtain rfl := Option.some.inj edit_eq
  obtain ⟨here, oldUse, -⟩ := (Block.mem_uses_of_scan (Block.scan_none_of_scan scanned)).mp
    (List.mem_of_find?_eq_some isTaken)
  have newUse := is_use_line_for name none
  have lineUnbroken : Unbroken (lineFor name none) := unbroken_line_for segmented.unbroken (by simp)
  have rewrites := rewrites_replace_line plain here lineUnbroken
  refine ⟨short_names_congr (rewrites.map_eq here ?_) (rewrites.map_eq here ?_), rewrites.plain⟩
  · rw [LineKind.of_eq_use_statement.mpr newUse, LineKind.of_eq_use_statement.mpr oldUse]
  · have oldName : shortNameOf? taken.text = some (baseName name) := by
      simpa [shortName?] using List.find?_some isTaken
    have newName : shortNameOf? ([] ++ lineFor name none) = some (baseName name) :=
      short_name_of?_line_for segmented (by simp) List.not_mem_nil
    rw [nameOnLine?, nameOnLine?, if_pos newUse, if_pos oldUse, oldName]
    exact newName

theorem short_names_sort {policy : SortPolicy} {batch : List Edit} (plain : Plain document.text)
    (sorting : document.sortBatch? policy = some batch) :
    (document.replaceAll batch).shortNames.Perm document.shortNames ∧
      Plain (document.replaceAll batch).text := by
  obtain ⟨block, sorted, scanned, result, -, batch_eq⟩ := exists_of_sort_batch sorting
  have namesOf (uses : List UseStatement) :
      uses.filterMap (·.shortName?) = (uses.map (·.text)).filterMap shortNameOf? := by
    rw [List.filterMap_map]
    rfl
  rw [batch_eq]
  refine ⟨?_, (rewrites_resorted plain scanned result).plain⟩
  rw [shortNames, scan_resorted plain scanned result, shortNames, scanned]
  dsimp only
  rw [namesOf, namesOf, map_text_of_sort result]
  exact (policy.sort_texts_perm _).filterMap _

/-! ### Documents that stay clean -/

structure Neat (document : Document) : Prop where
  plain : Plain document.text
  clean : document.Clean

theorem Neat.added (neat : document.Neat) (scanned : Block.scan document.lines stop = .ok block)
    (segmented : Segmented isWordChar name)
    (typed : ∀ other ∈ otherName, other ≠ [] ∧ ∀ c ∈ other, isWordChar c = true)
    (free : takes block.uses (shownName name otherName) = false) :
    (document.replaceAll [insertEdit name otherName block.declarations]).Neat where
  plain := plain_insert_use neat.plain (unbroken_line_for segmented.unbroken
    fun other isOther => unbroken_of_letters (typed other isOther).2)
  clean := by
    apply (short_names_insert_use neat.plain scanned segmented typed).nodup
    apply List.nodup_append.mpr
    refine ⟨neat.clean, List.pairwise_singleton _ _, ?_⟩
    intro old isOld shown isShown same
    rw [same, List.mem_singleton.mp isShown] at isOld
    exact not_mem_short_names scanned free isOld

theorem Neat.replaced {edit : Edit} (neat : document.Neat)
    (scanned : Block.scan document.lines stop = .ok block) (segmented : Segmented isWordChar name)
    (found : replaceEdit? name block.uses = some edit) : (document.replaceAll [edit]).Neat where
  plain := (short_names_replace_use neat.plain scanned segmented found).2
  clean := by
    rw [Clean, (short_names_replace_use neat.plain scanned segmented found).1]
    exact neat.clean

theorem Neat.sorted {policy : SortPolicy} {batch : List Edit} (neat : document.Neat)
    (sorting : document.sortBatch? policy = some batch) : (document.replaceAll batch).Neat where
  plain := (short_names_sort neat.plain sorting).2
  clean := (short_names_sort neat.plain sorting).1.nodup_iff.mpr neat.clean

end Document

/-! ### One command -/

namespace FaithfulEditor

open Job UseStatement

section Neat

variable {σ : Type} [MonadEditor (StateM σ)] {uri name : Text} {editor : FaithfulEditor σ uri}
  {s : σ} {document : Document} {made : List Call}

theorem Hands.neat {batch : Option (List Edit)} {result : Except ResolveError Unit}
    (hands : Hands uri batch result made) (neat : document.Neat)
    (tidies : ∀ handed, batch = some handed → (document.replaceAll handed).Neat) :
    (made.foldl Call.write document).Neat := by
  cases hands with
  | nothing => exact neat
  | accepted handed => exact tidies handed rfl
  | refused handed => exact neat

theorem Planned.neat {typed : Text → Prop} {replaceSelection : Bool} {block : Block}
    {batch : List Edit} (planned : Planned typed none name replaceSelection block batch)
    (neat : document.Neat) (scanned : Block.scan document.lines (some name) = .ok block)
    (segmented : Segmented isWordChar name)
    (words : ∀ otherName, typed otherName → ∀ c ∈ otherName, isWordChar c = true) :
    (document.replaceAll batch).Neat := by
  cases planned with
  | added free =>
      rw [ite_self]
      exact neat.added scanned segmented (by simp) free
  | replaced _ found => exact neat.replaced scanned segmented found
  | @renamed otherName _ typed named free =>
      have letters : ∀ other ∈ some otherName, other ≠ [] ∧ ∀ c ∈ other, isWordChar c = true := by
        rintro _ ⟨⟩
        exact ⟨named, words otherName typed⟩
      exact neat.added scanned segmented letters free

theorem ClassEnd.neat {replaceSelection : Bool} {result : Except ResolveError Outcome}
    (ended : ClassEnd editor s none name replaceSelection result made)
    (present : (editor.desk s).document = some document) (neat : document.Neat)
    (segmented : Segmented isWordChar name)
    (words : ∀ otherName, Types s otherName → ∀ c ∈ otherName, isWordChar c = true) :
    (made.foldl Call.write document).Neat := by
  cases ended with
  | unopened _ => exact neat
  | imported _ _ => exact neat
  | declined _ _ _ => exact neat
  | @handed shown block batch _ _ opened scanned planned ended =>
      obtain rfl : document = shown := Option.some.inj (present.symm.trans opened)
      cases ended with
      | refused => exact neat
      | taken closing =>
          have imported := planned.neat neat scanned segmented words
          obtain ⟨settings, -, hands⟩ := closing
          exact hands.neat imported fun _ due =>
            imported.sorted (Document.sort_batch_of_follow_up due).2

theorem NameEnd.neat {result : Except ResolveError Outcome}
    (ended : NameEnd editor s none name result made)
    (present : (editor.desk s).document = some document) (neat : document.Neat)
    (segmented : ∀ full, (ends (resolve name : Job σ _) s).1 = .ok (some full) →
      Segmented isWordChar full)
    (words : ∀ otherName, Types s otherName → ∀ c ∈ otherName, isWordChar c = true) :
    (made.foldl Call.write document).Neat := by
  cases ended with
  | unknown _ => exact neat
  | unpicked _ => exact neat
  | resolved found ended => exact ended.neat present neat (segmented _ found) words

theorem SortEnd.neat {result : Except ResolveError Unit} (ended : SortEnd editor s result made)
    (present : (editor.desk s).document = some document) (neat : document.Neat) :
    (made.foldl Call.write document).Neat := by
  cases ended with
  | unopened _ => exact neat
  | nothingToSort _ _ _ => exact neat
  | @handed shown _ _ _ _ opened _ _ hands =>
      obtain rfl : document = shown := Option.some.inj (present.symm.trans opened)
      exact hands.neat neat fun _ => neat.sorted

end Neat
end FaithfulEditor

namespace Workbench

open FaithfulEditor Job

def ShowsNeat (uri : Text) (bench : Workbench) : Prop :=
  ∃ document, bench.document? uri = some document ∧ document.Neat

def TypesWords (bench : Workbench) : Prop :=
  ∀ answer, some answer ∈ bench.answers → ∀ c ∈ answer, isWordChar c = true

variable {bench after : Workbench} {uri name : Text} {made : List Call}

theorem Makes.types_words (makes : bench.Makes made after) (words : bench.TypesWords) :
    after.TypesWords :=
  fun answer typed => words answer (makes.answers typed)

theorem TypesWords.typed (words : bench.TypesWords) (otherName : Text)
    (types : Types bench otherName) : ∀ c ∈ otherName, isWordChar c = true :=
  words otherName (mem_answers_of_types types)

/-! ### Runs of commands -/

def resolvedBy (name : Text) (bench : Workbench) : List Text :=
  match (ends (resolve name) bench).1 with
  | .ok (some full) => [full]
  | _ => []

def resolvedEach (uri : Text) : List Text → Workbench → List Text
  | [], _ => []
  | name :: rest, bench =>
      resolvedBy name bench ++
        match ends (importName uri none name) bench with
        | (.ok .done, after) => resolvedEach uri rest after
        | (.ok .cancelled, _) => []
        | (.error error, after) =>
            resolvedEach uri rest ((reportError error : StateM Workbench Unit).run after).2

def missingNames (document : Document) : List Text :=
  (References.all (joinLines document.lines)).filter
    (!(References.imported document.lines).contains ·)

theorem import_name_shows_neat (shows : bench.ShowsNeat uri) (words : bench.TypesWords)
    (segmented : ∀ full ∈ resolvedBy name bench, Segmented isWordChar full) :
    (ends (importName uri none name) bench).2.ShowsNeat uri ∧
      (ends (importName uri none name) bench).2.TypesWords := by
  obtain ⟨document, opened, neat⟩ := shows
  obtain ⟨made, trace, ended⟩ : Concludes uri (fun _ => True) (importName uri none name) bench _ :=
    concludes_import_name (faithful uri) trivial bench none
  have neatAfter := ended.neat opened neat
    (fun full found => segmented full (by simp [resolvedBy, found])) words.typed
  exact ⟨⟨_, document?_of_trace trace opened, neatAfter⟩, (makes_of_trace trace).types_words words⟩

theorem import_each_cons_run (uri name : Text) (rest : List Text) (bench : Workbench) :
    ((importEach uri (name :: rest) : StateM Workbench Unit).run bench).2 =
      match ends (importName uri none name) bench with
      | (.ok .done, after) => ((importEach uri rest : StateM Workbench Unit).run after).2
      | (.ok .cancelled, after) => after
      | (.error error, after) =>
          ((importEach uri rest : StateM Workbench Unit).run
            ((reportError error : StateM Workbench Unit).run after).2).2 := by
  have run_eq : (importName uri none name : Job Workbench Outcome).run.run bench =
      ends (importName uri none name) bench := rfl
  rw [importEach, StateT.run_bind, run_eq]
  rcases ends (importName uri none name) bench with ⟨error | ⟨_ | _⟩, after⟩
  · rfl
  · rfl
  · rfl

theorem import_each_shows_neat (names : List Text) (shows : bench.ShowsNeat uri)
    (words : bench.TypesWords)
    (segmented : ∀ full ∈ resolvedEach uri names bench, Segmented isWordChar full) :
    ((importEach uri names : StateM Workbench Unit).run bench).2.ShowsNeat uri := by
  induction names generalizing bench with
  | nil => exact shows
  | cons name rest induction =>
      rw [resolvedEach] at segmented
      obtain ⟨showsNext, wordsNext⟩ := import_name_shows_neat shows words
        fun full found => segmented full (List.mem_append_left _ found)
      have onwards := fun full found => segmented full (List.mem_append_right _ found)
      rw [import_each_cons_run]
      generalize ends (importName uri none name) bench = ended at showsNext wordsNext onwards ⊢
      obtain ⟨error | ⟨_ | _⟩, after⟩ := ended
      · have reported : after.Makes [] _ :=
          makes_of_questions (asks_show_message error.message true after)
        obtain ⟨document, opened, neat⟩ := showsNext
        rw [← reported.document? uri] at opened
        exact induction ⟨document, opened, neat⟩ (reported.types_words wordsNext) onwards
      · exact induction showsNext wordsNext onwards
      · exact showsNext

end Workbench

inductive ImportStep where
  | importAll
  | importName (name : Text)
  | sortImports
  deriving DecidableEq, Repr

namespace ImportStep

open FaithfulEditor Job Workbench

def after (uri : Text) (bench : Workbench) : ImportStep → Workbench
  | importAll => ((Commands.importAll uri : StateM Workbench Unit).run bench).2
  | importName name => (ends (Commands.importName uri none name) bench).2
  | sortImports => (ends (Commands.sortImports uri) bench).2

def resolved (uri : Text) (bench : Workbench) : ImportStep → List Text
  | importAll =>
      match bench.document? uri with
      | some document => resolvedEach uri (missingNames document) bench
      | none => []
  | importName name => resolvedBy name bench
  | sortImports => []

variable {uri : Text} {bench : Workbench}

theorem after_shows_neat (step : ImportStep) (shows : bench.ShowsNeat uri)
    (words : bench.TypesWords)
    (segmented : ∀ full ∈ step.resolved uri bench, Segmented isWordChar full) :
    (step.after uri bench).ShowsNeat uri := by
  obtain ⟨document, opened, neat⟩ := shows
  cases step with
  | importAll =>
      have lines_eq : (MonadEditor.documentLines uri : StateM Workbench _).run bench =
          (some document.lines, bench) := by
        have asked : (MonadEditor.documentLines uri : StateM Workbench _).run bench =
            ((bench.document? uri).map (·.lines), bench) := rfl
        rw [asked, opened]
        rfl
      rw [resolved, opened] at segmented
      rw [after, Commands.importAll, StateT.run_bind, lines_eq]
      exact import_each_shows_neat (missingNames document) ⟨document, opened, neat⟩ words segmented
  | importName name =>
      exact (import_name_shows_neat ⟨document, opened, neat⟩ words segmented).1
  | sortImports =>
      obtain ⟨made, trace, ended⟩ : Concludes uri (fun _ => False) _ bench _ :=
        concludes_sort_imports (faithful uri) bench
      exact ⟨_, document?_of_trace trace opened, ended.neat opened neat⟩

end ImportStep

/-- A run of steps on the imports of a document. Between two steps anything may change but the
document: the settings, what the user is going to say, and what else is open. -/
inductive ImportRun (uri : Text) (bench : Workbench) : Workbench → Prop
  | start : ImportRun uri bench bench
  | meanwhile {between after : Workbench} (run : ImportRun uri bench between)
      (kept : after.document? uri = between.document? uri) : ImportRun uri bench after
  | step {between : Workbench} (run : ImportRun uri bench between) (step : ImportStep)
      (words : between.TypesWords)
      (segmented : ∀ full ∈ step.resolved uri between, Segmented isWordChar full) :
      ImportRun uri bench (step.after uri between)

/-- Short names that are distinct stay so, whatever is imported or sorted. -/
theorem ImportRun.keeps_short_names_distinct {uri : Text} {bench after : Workbench}
    {document : Document} (run : ImportRun uri bench after)
    (opened : bench.document? uri = some document)
    (plain : Plain document.text) (clean : document.Clean) :
    ∃ current, after.document? uri = some current ∧ Plain current.text ∧ current.Clean := by
  have shows : after.ShowsNeat uri := by
    induction run with
    | start => exact ⟨document, opened, plain, clean⟩
    | meanwhile _ kept induction =>
        obtain ⟨current, shown, neat⟩ := induction
        exact ⟨current, kept.trans shown, neat⟩
    | step _ step words segmented induction => exact step.after_shows_neat induction words segmented
  obtain ⟨current, shown, neat⟩ := shows
  exact ⟨current, shown, neat.plain, neat.clean⟩

def clashingBench : Workbench where
  documents := [("m".toList, ⟨"<?php\r\nuse B\\Bar;\nuse A\\Foo;\n\nnew Closure;".toList⟩)]
  search := [("Closure".toList, [])]
  answers := [some "Bar".toList, some "Qux".toList]

def renamedBench : Workbench :=
  { (ImportStep.importName "C\\Foo".toList).after "m".toList clashingBench with
    settings := { autoSort := false }
    answers := [some []] }

theorem ImportRun.keeps_short_names_distinct_renamed_replaced_added :
    ∃ after current, ImportRun "m".toList clashingBench after ∧
      after.document? "m".toList = some current ∧
      current.text = ("<?php\r\nuse A\\Foo;\nuse D\\Bar;\nuse C\\Foo as Qux;\nuse Closure;\n\n" ++
        "new Closure;").toList ∧
      current.Clean := by
  have typed : clashingBench.TypesWords := by
    intro answer member
    have either : answer = "Bar".toList ∨ answer = "Qux".toList := by
      simpa [clashingBench] using member
    apply List.all_eq_true.mp
    rcases either with rfl | rfl
    · decide +kernel
    · decide +kernel
  have typedNext : renamedBench.TypesWords := by
    intro answer member
    obtain rfl : answer = [] := by simpa [renamedBench] using member
    simp
  have typedLast : ((ImportStep.importName "D\\Bar".toList).after "m".toList
      renamedBench).TypesWords := by
    have noAnswers : ((ImportStep.importName "D\\Bar".toList).after "m".toList
        renamedBench).answers = [] := by decide +kernel
    intro answer member
    rw [noAnswers] at member
    cases member
  have renamed : ImportRun "m".toList clashingBench renamedBench :=
    .meanwhile (.step .start (.importName "C\\Foo".toList) typed (by decide +kernel)) rfl
  have run := (renamed.step (.importName "D\\Bar".toList) typedNext (by decide +kernel)).step
    .importAll typedLast (by decide +kernel)
  obtain ⟨current, shown, -, clean⟩ :=
    run.keeps_short_names_distinct rfl (by decide +kernel) (by decide +kernel)
  have text_eq : ((ImportStep.importAll.after "m".toList
      ((ImportStep.importName "D\\Bar".toList).after "m".toList
        renamedBench)).document? "m".toList).map (·.text) =
          some ("<?php\r\nuse A\\Foo;\nuse D\\Bar;\nuse C\\Foo as Qux;\nuse Closure;\n\n" ++
            "new Closure;").toList := by decide +kernel
  rw [shown] at text_eq
  exact ⟨_, current, run, shown, Option.some.inj text_eq, clean⟩

end PhpNames
