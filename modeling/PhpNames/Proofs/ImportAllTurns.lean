import PhpNames.Proofs.DistinctNames

/-!
Importing all classes of a document, name by name.

The names that a document refers to are taken in turn, unless they are imported already. Whether a
name is imported is read off the `use` lines down to the first other line that looks like the
declaration of a type. A scan of the block reads on below such a line, so a `use` statement that it
finds there does not keep a name from its turn.
-/

namespace PhpNames

open Text Commands

/-! ### Names that are left out -/

namespace UseStatement

/-- The word before the first semicolon is taken if there is one. -/
theorem read_imported?_append {before run : Text} (noEnd : ';' ∉ before)
    (letters : ∀ c ∈ run, isWordChar c = true)
    (named : (before.reverse ++ run).takeWhile isWordChar ≠ []) (after : Text) :
    readImported? run (before ++ ';' :: after) =
      some ((before.reverse ++ run).takeWhile isWordChar).reverse := by
  induction before generalizing run with
  | nil =>
      have whole : run.takeWhile isWordChar = run := List.takeWhile_eq_self_iff.mpr letters
      simp only [List.reverse_nil, List.nil_append, whole] at named ⊢
      rw [readImported?, if_pos rfl, if_neg (by simpa using named)]
  | cons c rest induction =>
      simp only [List.mem_cons, not_or] at noEnd
      rw [List.reverse_cons, List.append_assoc, List.singleton_append] at named ⊢
      rw [List.cons_append, readImported?, if_neg (Ne.symm noEnd.1)]
      cases letter : isWordChar c with
      | true =>
          exact induction noEnd.2 (List.forall_mem_cons.mpr ⟨letter, letters⟩) named
      | false =>
          rw [take_while_append_cons letter] at named ⊢
          rw [← List.append_nil rest.reverse] at named ⊢
          exact induction noEnd.2 (by simp) named

theorem imported_name?_of_short_name_of? {line name : Text}
    (short : shortNameOf? line = some name) :
    importedName? line = some name := by
  by_cases ended : ';' ∈ line
  · obtain ⟨before, after, rfl, noEnd⟩ := List.eq_append_cons_of_mem ended
    rw [short_name_of?_ended noEnd] at short
    split at short
    · cases short
    · rename_i named
      rw [← Option.some.inj short]
      have word : (before.reverse ++ []).takeWhile isWordChar ≠ [] := by simpa [lastRun] using named
      rw [importedName?, read_imported?_append noEnd (by simp) word, List.append_nil, lastRun]
  · rw [short_name_of?_eq_none ended] at short
    cases short

end UseStatement

namespace References

/-- Whether only `use` lines above a line look like the declaration of a type. -/
def isOpenTo (lines : List Text) (index : Nat) : Bool :=
  (lines.take index).all fun line => UseStatement.isUse line || !declaresType line

/-- A name is imported exactly if there is a `use` line for it and no type is declared above. -/
theorem mem_imported_iff {name : Text} {lines : List Text} :
    name ∈ imported lines ↔ ∃ index line, lines[index]? = some line ∧
      UseStatement.isUse line = true ∧ UseStatement.importedName? line = some name ∧
      isOpenTo lines index = true := by
  induction lines with
  | nil => simp [imported]
  | cons first rest induction =>
      -- the first line, or a line of the rest with the first line above it
      have split : (∃ index line, (first :: rest)[index]? = some line ∧
          UseStatement.isUse line = true ∧ UseStatement.importedName? line = some name ∧
          isOpenTo (first :: rest) index = true) ↔
            (UseStatement.isUse first = true ∧ UseStatement.importedName? first = some name) ∨
              ((UseStatement.isUse first || !declaresType first) = true ∧
                name ∈ imported rest) := by
        rw [induction]
        constructor
        · rintro ⟨index, line, found, isUse, named, isOpen⟩
          cases index with
          | zero =>
              obtain rfl : first = line := by simpa using found
              exact Or.inl ⟨isUse, named⟩
          | succ index =>
              rw [isOpenTo, List.take_succ_cons, List.all_cons, Bool.and_eq_true] at isOpen
              exact Or.inr ⟨isOpen.1, index, line, found, isUse, named, isOpen.2⟩
        · rintro (⟨isUse, named⟩ | ⟨passed, index, line, found, isUse, named, isOpen⟩)
          · exact ⟨0, first, rfl, isUse, named, rfl⟩
          · refine ⟨index + 1, line, found, isUse, named, ?_⟩
            rw [isOpenTo, List.take_succ_cons, List.all_cons, passed, Bool.true_and]
            exact isOpen
      rw [split, imported]
      cases UseStatement.isUse first with
      | true =>
          cases UseStatement.importedName? first with
          | none => simp
          | some other => simp [eq_comm]
      | false => cases declaresType first <;> simp

end References

/-! ### What a job adds to the record -/

def Workbench.Adds (name : Text) (bench after : Workbench) : Prop :=
  ∃ more, after.events = bench.events ++ more ∧ ∀ found, .find found ∈ more → found = name

namespace Workbench

open Job

variable {name : Text} {bench between after : Workbench} {uri : Text}

theorem Adds.refl (name : Text) (bench : Workbench) : bench.Adds name bench :=
  ⟨[], by simp, by simp⟩

theorem Adds.trans (first : bench.Adds name between) (second : between.Adds name after) :
    bench.Adds name after := by
  obtain ⟨early, earlyEvents, earlyFinds⟩ := first
  obtain ⟨late, lateEvents, lateFinds⟩ := second
  refine ⟨early ++ late, by rw [lateEvents, earlyEvents, List.append_assoc], ?_⟩
  intro found member
  rcases List.mem_append.mp member with inEarly | inLate
  · exact earlyFinds found inEarly
  · exact lateFinds found inLate

theorem adds_event {event : Event} (events : after.events = bench.events ++ [event])
    (allowed : ∀ found, event = .find found → found = name) : bench.Adds name after := by
  refine ⟨[event], events, ?_⟩
  intro found member
  exact allowed found (List.mem_singleton.mp member).symm

theorem adds_submit (bench : Workbench) (uri : Text) (batch : List Edit) :
    bench.Adds name (bench.submit uri batch).2 := by
  unfold submit
  split
  · exact adds_event rfl nofun
  · have events : ((bench.decided uri batch true).edit uri batch).events =
        bench.events ++ [.edits uri batch true] := by
      rw [edit_note]
      rfl
    exact adds_event events nofun

theorem adds_request {α : Type} (request : Request α) (quiet : request.isQuiet = true)
    (bench : Workbench) : bench.Adds name ((request.perform : StateM Workbench α).run bench).2 := by
  cases request with
  | settings => exact .refl name bench
  | workspaceRoot => exact .refl name bench
  | documentLines uri => exact .refl name bench
  | patience => exact .refl name bench
  | candidateFiles other => cases quiet
  | applyEdits uri edits => cases quiet
  | openFile path => exact adds_event rfl nofun
  | chooseName options => exact adds_event rfl nofun
  | askText placeholder => exact adds_event rfl nofun
  | notify message isError => exact adds_event rfl nofun
  | showStatus message => exact adds_event rfl nofun

/-- The record of what leads to an editor, if no other class is looked for. -/
theorem adds_of_trace {made : List Call} (trace : Trace uri (Eq name) bench made after) :
    bench.Adds name after := by
  induction trace with
  | refl => exact .refl name bench
  | ask _ request quiet induction => exact induction.trans (adds_request request quiet _)
  | @search _ between _ other allowed induction =>
      apply induction.trans
      apply adds_event rfl
      intro found isFind
      rw [allowed, Event.find.inj isFind]
  | submit _ batch induction => exact induction.trans (adds_submit _ uri batch)

/-! ### One name after the other -/

/-- The import of one of several names, with the report if it fails: whether to go on to the next
name, and the editor afterwards. -/
def turn (uri name : Text) (bench : Workbench) : Bool × Workbench :=
  match ends (importName uri none name) bench with
  | (.ok .done, after) => (true, after)
  | (.ok .cancelled, after) => (false, after)
  | (.error error, after) => (true, ((reportError error : StateM Workbench Unit).run after).2)

/-- What was asked of the editor on account of a name. -/
structure Turn where
  name : Text
  events : List Event
  deriving DecidableEq, Repr

def turns (uri : Text) : List Text → Workbench → List Turn
  | [], _ => []
  | name :: rest, bench =>
      let (goesOn, after) := turn uri name bench
      ⟨name, after.events.drop bench.events.length⟩ :: if goesOn then turns uri rest after else []

theorem turn_adds (uri name : Text) (bench : Workbench) :
    bench.Adds name (turn uri name bench).2 := by
  obtain ⟨made, trace, -⟩ : Concludes uri (Eq name) (importName uri none name) bench _ :=
    FaithfulEditor.concludes_import_name (faithful uri) rfl bench none
  have adds := adds_of_trace trace
  unfold turn
  generalize ends (importName uri none name) bench = ended at adds ⊢
  obtain ⟨error | ⟨_ | _⟩, after⟩ := ended
  · have reported : Trace uri (Eq name) after [] _ :=
      .of_questions (asks_show_message error.message true after)
    exact adds.trans (adds_of_trace reported)
  · exact adds
  · exact adds

theorem import_each_cons_turn (uri name : Text) (rest : List Text) (bench : Workbench) :
    ((importEach uri (name :: rest) : StateM Workbench Unit).run bench).2 =
      if (turn uri name bench).1 then
        ((importEach uri rest : StateM Workbench Unit).run (turn uri name bench).2).2
      else (turn uri name bench).2 := by
  rw [import_each_cons_run, turn]
  rcases ends (importName uri none name) bench with ⟨error | ⟨_ | _⟩, after⟩
  · rfl
  · rfl
  · rfl

theorem import_each_events (uri : Text) (names : List Text) (bench : Workbench) :
    ((importEach uri names : StateM Workbench Unit).run bench).2.events =
      bench.events ++ (turns uri names bench).flatMap (·.events) := by
  induction names generalizing bench with
  | nil => exact (List.append_nil _).symm
  | cons name rest induction =>
      obtain ⟨more, events, -⟩ := turn_adds uri name bench
      rw [import_each_cons_turn, turns]
      dsimp only
      rw [events, List.drop_left, List.flatMap_cons]
      cases (turn uri name bench).1 with
      | true =>
          rw [if_pos rfl, if_pos rfl, induction, events, List.append_assoc]
      | false =>
          rw [if_neg Bool.false_ne_true, if_neg Bool.false_ne_true, events, List.flatMap_nil,
            List.append_nil]

/-- A name whose turn comes is one of the names, and no other is looked for in its turn. -/
theorem mem_turns {uri : Text} {names : List Text} {bench : Workbench} {current : Turn}
    (member : current ∈ turns uri names bench) :
    current.name ∈ names ∧ ∀ found, .find found ∈ current.events → found = current.name := by
  induction names generalizing bench with
  | nil => cases member
  | cons name rest induction =>
      obtain ⟨more, events, finds⟩ := turn_adds uri name bench
      rw [turns] at member
      dsimp only at member
      rw [events, List.drop_left] at member
      rcases List.mem_cons.mp member with rfl | later
      · exact ⟨List.mem_cons_self, finds⟩
      · cases goesOn : (turn uri name bench).1 with
        | true =>
            rw [goesOn, if_pos rfl] at later
            obtain ⟨inRest, finds⟩ := induction later
            exact ⟨List.mem_cons_of_mem name inRest, finds⟩
        | false =>
            rw [goesOn, if_neg Bool.false_ne_true] at later
            cases later

/-! ### All references of a document -/

theorem not_mem_missing_names_iff {document : Document}
    (refers : name ∈ References.all (joinLines document.lines)) :
    name ∉ missingNames document ↔ name ∈ References.imported document.lines := by
  simp [missingNames, refers]

theorem import_all_run {document : Document} (opened : bench.document? uri = some document) :
    (importAll uri : StateM Workbench Unit).run bench =
      (importEach uri (missingNames document) : StateM Workbench Unit).run bench := by
  have lines_eq : (MonadEditor.documentLines uri : StateM Workbench _).run bench =
      (some document.lines, bench) := by
    change ((bench.document? uri).map (·.lines), bench) = _
    rw [opened, Option.map_some]
  rw [Commands.importAll, StateT.run_bind, lines_eq]
  rfl

/-- Importing all classes takes its turns with names that no `use` line imports above the first line
that looks like the declaration of a type, and in each turn looks for that name only. -/
theorem import_all_leaves_imported_names (bench : Workbench) (uri : Text) (document : Document)
    (block : Block) (opened : bench.document? uri = some document)
    (scanned : Block.scan document.lines none = .ok block) :
    ((importAll uri : StateM Workbench Unit).run bench).2.events =
        bench.events ++ (turns uri (missingNames document) bench).flatMap (·.events) ∧
      (∀ current ∈ turns uri (missingNames document) bench,
        current.name ∈ missingNames document ∧
          ∀ found, .find found ∈ current.events → found = current.name) ∧
      (∀ name ∈ References.all (joinLines document.lines), name ∉ missingNames document ↔
        ∃ index line, document.lines[index]? = some line ∧ UseStatement.isUse line = true ∧
          UseStatement.importedName? line = some name ∧
          References.isOpenTo document.lines index = true) ∧
      ∀ statement ∈ block.uses, ∀ name, statement.shortName? = some name →
        References.isOpenTo document.lines statement.line = true →
          ∀ current ∈ turns uri (missingNames document) bench, current.name ≠ name := by
  refine ⟨?_, fun current member => mem_turns member, ?_, ?_⟩
  · rw [import_all_run opened]
    exact import_each_events uri (missingNames document) bench
  · intro name refers
    rw [not_mem_missing_names_iff refers, References.mem_imported_iff]
  · rintro statement used name short isOpen current member rfl
    obtain ⟨found, isUse, -⟩ := (Block.mem_uses_of_scan scanned).mp used
    have imported : current.name ∈ References.imported document.lines :=
      References.mem_imported_iff.mpr ⟨statement.line, statement.text, found, isUse,
        UseStatement.imported_name?_of_short_name_of? short, isOpen⟩
    have missing := List.mem_filter.mp (mem_turns member).1
    simp [imported] at missing

def halfImported : Document :=
  ⟨"<?php\nuse App\\Closure;\nclass Foo extends Closure \x7b\x7d\nnew Iterator;".toList⟩

theorem import_all_leaves_imported_names_closure :
    missingNames halfImported = ["Iterator".toList] ∧
      ∀ current ∈ turns "file:///a.php".toList (missingNames halfImported)
          { documents := [("file:///a.php".toList, halfImported)] },
        current.name ≠ "Closure".toList := by
  have scanned : Block.scan halfImported.lines none =
      .ok ⟨[⟨"use App\\Closure;".toList, 1⟩], ⟨some 1, none, none, some 2, some 3⟩⟩ := by decide
  obtain ⟨-, -, -, leaves⟩ := import_all_leaves_imported_names
    { documents := [("file:///a.php".toList, halfImported)] } "file:///a.php".toList halfImported _
    (by decide) scanned
  refine ⟨by decide, ?_⟩
  exact leaves _ (List.mem_singleton.mpr rfl) "Closure".toList (by decide) (by decide)

def remarked : Document :=
  ⟨"<?php\n// a class for closures\nuse App\\Closure;\n\nnew Closure;\n".toList⟩

/-- Below such a remark, a class that is imported is looked for all the same. -/
theorem import_all_repeats_import_below_remark :
    Block.scan remarked.lines none =
        .ok ⟨[⟨"use App\\Closure;".toList, 2⟩], ⟨some 1, none, none, some 3, some 2⟩⟩ ∧
      UseStatement.shortName? ⟨"use App\\Closure;".toList, 2⟩ = some "Closure".toList ∧
      ((importAll "file:///a.php".toList : StateM Workbench Unit).run
        { documents := [("file:///a.php".toList, remarked)],
          search := [("Closure".toList, [])] }).2.events =
        [.find "Closure".toList, .ask aliasPlaceholder] := by
  decide +kernel

end Workbench
end PhpNames
