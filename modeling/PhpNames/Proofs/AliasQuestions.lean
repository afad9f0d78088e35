import PhpNames.Proofs.AcceptedAlias
import PhpNames.Proofs.ExactScan
import PhpNames.Proofs.ImportCalls

/-!
The questions for another name, and what the answers lead to.

While the short name of a class is taken, the user is asked for another one. Every answer that is
the short name of a statement is reported as taken and followed by the next question. The first
other answer decides: it stops the import, replaces a statement, or adds one under the name it
gives. The whole course of events is said here, for every script of answers; the bound on the number
of questions is never met.
-/

namespace PhpNames

open Commands Job

namespace Event

/-- What the user sees of a message. Only the status bar shows the icon. -/
def ofMessage (settings : Settings) (icon text : String) (isError : Bool) : Event :=
  if settings.showMessageOnStatusBar then .status (icon.toList ++ text.toList)
  else .notify ("PHP Namespace Resolver: ".toList ++ text.toList) isError

def ofQuestion : Event :=
  .ask "Enter an alias or leave it empty to replace".toList

def ofConflict (settings : Settings) : Event :=
  .ofMessage settings "" "This alias is already in use." true

def ofImport (settings : Settings) : Event :=
  .ofMessage settings "$(check)  " "The class is imported." false

/-- The questions that were answered by names that are taken, each with the report of it. -/
def conflicts (settings : Settings) (rejected : List Text) : List Event :=
  rejected.flatMap fun _ => [ofQuestion, ofConflict settings]

end Event

/-- Whether the first type declaration is at most one line below the last statement, the namespace
or the opening tag, of which an absent one counts as standing above the first line. -/
def Declarations.CrowdsType (found : Declarations) : Prop :=
  ∃ typeLine, found.firstType = some typeLine ∧ (typeLine ≤ found.lastUse.getD 0 + 1 ∨
    typeLine ≤ found.namespaceLine.getD 0 + 1 ∨ typeLine ≤ found.openingTag.getD 0 + 1)

namespace InsertionPoint

variable {found : Declarations}

theorem is_crowded_iff : isCrowded found = true ↔ found.CrowdsType := by
  simp [isCrowded, Declarations.CrowdsType, Option.any_eq_true]

theorem of_last_use {line : Nat} (last : found.lastUse = some line) :
    of found = ⟨line, [], (of found).after⟩ := by
  simp [of, last]

theorem after_of_last_use {line : Nat} (last : found.lastUse = some line) :
    found.CrowdsType ∧ (of found).after = "\n\n".toList ∨
      ¬ found.CrowdsType ∧ (of found).after = "\n".toList := by
  rw [← is_crowded_iff]
  by_cases crowded : isCrowded found = true
  · exact .inl ⟨crowded, by simp [of, last, crowded]⟩
  · exact .inr ⟨crowded, by simp [of, last, crowded]⟩

end InsertionPoint

/-- Whether an answer is not empty, and the short name of some statement. -/
def UseStatement.Conflicts (uses : List UseStatement) (answer : Text) : Prop :=
  answer ≠ [] ∧ ∃ statement ∈ uses, statement.shortName? = some answer

open UseStatement

namespace AliasDecision

variable {uses : List UseStatement} {answer : Text}

theorem of_conflict (conflicts : Conflicts uses answer) :
    AliasDecision.of (some answer) uses = .conflict answer := by
  simp [AliasDecision.of, conflicts.1, takes_eq_true_iff.mpr conflicts.2]

theorem of_empty (uses : List UseStatement) :
    AliasDecision.of (some []) uses = .replaceExisting := rfl

theorem of_free (named : answer ≠ []) (free : ¬ Conflicts uses answer) :
    AliasDecision.of (some answer) uses = .useAlias answer := by
  apply of_eq_use_alias_iff.mpr ⟨rfl, named, ?_⟩
  rw [Bool.eq_false_iff]
  exact fun taken => free ⟨named, takes_eq_true_iff.mp taken⟩

/-- Answers are some that are taken, and then one that is not or no further one. -/
theorem exists_deciding (uses : List UseStatement) (answers : List (Option Text)) :
    ∃ (rejected : List Text) (rest : List (Option Text)), answers = rejected.map some ++ rest ∧
      (∀ answer ∈ rejected, Conflicts uses answer) ∧
      ∀ answer, rest.head?.join = some answer → ¬ Conflicts uses answer := by
  induction answers with
  | nil => exact ⟨[], [], rfl, by simp, by simp⟩
  | cons first others induction =>
      by_cases taken : ∃ answer, first = some answer ∧ Conflicts uses answer
      · obtain ⟨answer, rfl, conflicts⟩ := taken
        obtain ⟨rejected, rest, rfl, all, decides⟩ := induction
        exact ⟨answer :: rejected, rest, rfl, List.forall_mem_cons.mpr ⟨conflicts, all⟩, decides⟩
      · refine ⟨[], first :: others, rfl, by simp, ?_⟩
        intro answer here conflicts
        exact taken ⟨answer, by simpa using here, conflicts⟩

end AliasDecision

namespace Workbench

variable {bench : Workbench} {uri : Text} {document : Document}

def noteAll (bench : Workbench) (events : List Event) : Workbench :=
  { bench with events := bench.events ++ events }

theorem note_all_nil (bench : Workbench) : bench.noteAll [] = bench := by
  rw [noteAll, List.append_nil]

def questioned (bench : Workbench) : Workbench :=
  { bench.note .ofQuestion with answers := bench.answers.tail }

/-! ### Batches and messages -/

theorem ends_show_message {message : Text} {icon text : String} (bench : Workbench)
    (isError : Bool) (parts : message = icon.toList ++ text.toList)
    (stripped : withoutIcon message = text.toList) :
    ends (liftM (showMessage message isError : StateM Workbench Unit) : Job Workbench Unit) bench =
      (.ok (), bench.noteAll [.ofMessage bench.settings icon text isError]) := by
  have shown : (showMessage message isError : StateM Workbench Unit).run bench =
      ((), bench.noteAll [.ofMessage bench.settings icon text isError]) := by
    change (ite (bench.settings.showMessageOnStatusBar = true) _
      (MonadEditor.notify (messageHeading ++ withoutIcon message) isError) :
        StateM Workbench Unit).run bench = _
    rw [Event.ofMessage, stripped, ← parts]
    split
    · rfl
    · rfl
  rw [ends_ask, run_state, shown]

theorem ends_report_conflict (bench : Workbench) (answer : Text) :
    ends (liftM (reportError (.aliasConflict answer) : StateM Workbench Unit) :
        Job Workbench Unit) bench =
      (.ok (), bench.noteAll [.ofConflict bench.settings]) := by
  have stripped : withoutIcon "This alias is already in use.".toList =
      "This alias is already in use.".toList := by decide +kernel
  exact ends_show_message bench true rfl stripped

theorem ends_show_imported (bench : Workbench) :
    ends (liftM (showMessage importedMessage false : StateM Workbench Unit) :
        Job Workbench Unit) bench =
      (.ok (), bench.noteAll [.ofImport bench.settings]) :=
  ends_show_message bench false (by decide +kernel) (by decide +kernel)

structure Submits (bench : Workbench) (uri : Text) (batch : List Edit) (isAccepted : Bool)
    (after : Workbench) : Prop where
  events : after.events = bench.events ++ [.edits uri batch isAccepted]
  answers : after.answers = bench.answers
  settings : after.settings = bench.settings
  accept : after.accept = bench.accept.tail
  refused_iff : isAccepted = false ↔ bench.accept.head? = some false
  written : isAccepted = true →
    after.document? uri = (bench.document? uri).map (·.replaceAll batch)

theorem submits (bench : Workbench) (uri : Text) (batch : List Edit) :
    bench.Submits uri batch (bench.submit uri batch).1 (bench.submit uri batch).2 where
  events := by
    unfold submit
    split
    · rfl
    · rw [edit_note]
      rfl
  answers := by
    unfold submit edit
    split
    · rfl
    · split
      · rfl
      · rfl
  accept := by
    unfold submit edit
    split
    · rfl
    · split
      · rfl
      · rfl
  refused_iff := by
    unfold submit
    split
    · rename_i refused
      simp [refused]
    · rename_i accepted
      exact ⟨fun refused => (by cases refused), fun refused => absurd refused accepted⟩
  settings := settings_reached (.step .refl (.applyEdits uri batch))
  written accepted := by
    have desk := congrArg Desk.document (submit_desk bench uri batch)
    rw [accepted] at desk
    exact desk

theorem exists_submits (bench : Workbench) (uri : Text) (batch : List Edit) :
    ∃ isAccepted after, bench.submit uri batch = (isAccepted, after) ∧
      bench.Submits uri batch isAccepted after :=
  ⟨_, _, rfl, submits bench uri batch⟩

/-- The events of an import from its batch on, by the way the batch and the sorting after it end.
The user refuses a batch only if that is scripted in `accept`. -/
inductive BatchTrace (settings : Settings) (accept : List Bool) (uri : Text) (document : Document)
    (batch : List Edit) (message : List Event) : Except ResolveError Outcome → List Event → Prop
  | refused (refused : accept.head? = some false) :
      BatchTrace settings accept uri document batch message (.error .editRejected)
        [.edits uri batch false]
  | unsorted (accepted : accept.head? ≠ some false)
      (idle : (document.replaceAll batch).followUp? settings = none) :
      BatchTrace settings accept uri document batch message (.ok .done)
        (.edits uri batch true :: message)
  | sorted {sorting : List Edit} (accepted : accept.head? ≠ some false)
      (due : (document.replaceAll batch).followUp? settings = some sorting)
      (alsoAccepted : accept.tail.head? ≠ some false) :
      BatchTrace settings accept uri document batch message (.ok .done)
        (.edits uri batch true :: .edits uri sorting true :: message)
  | sortingRefused {sorting : List Edit} (accepted : accept.head? ≠ some false)
      (due : (document.replaceAll batch).followUp? settings = some sorting)
      (refused : accept.tail.head? = some false) :
      BatchTrace settings accept uri document batch message (.error .editRejected)
        [.edits uri batch true, .edits uri sorting false]

structure Closes (bench : Workbench) (trace : Except ResolveError Outcome → List Event → Prop)
    (ended : Except ResolveError Outcome × Workbench) : Prop where
  answers : ended.2.answers = bench.answers
  events : ∃ made, ended.2.events = bench.events ++ made ∧ trace ended.1 made

theorem Closes.mono {trace weaker : Except ResolveError Outcome → List Event → Prop}
    {ended : Except ResolveError Outcome × Workbench} (closes : bench.Closes trace ended)
    (implies : ∀ result made, trace result made → weaker result made) :
    bench.Closes weaker ended := by
  obtain ⟨made, events, holds⟩ := closes.events
  exact ⟨closes.answers, made, events, implies _ _ holds⟩

theorem closes_batch {message : List Event} (batch : List Edit) (last : Job Workbench Unit)
    (opened : bench.document? uri = some document)
    (silent : ∀ after : Workbench, after.settings = bench.settings →
      last.ends after = (.ok (), after.noteAll message)) :
    bench.Closes (BatchTrace bench.settings bench.accept uri document batch message)
      (ends (Commands.submit uri batch >>= fun _ => autoSort uri >>= fun _ => last >>= fun _ =>
        pure .done) bench) := by
  have asked (bench : Workbench) (batch : List Edit) :
      (MonadEditor.applyEdits uri batch : StateM Workbench Bool).run bench =
        bench.submit uri batch := rfl
  have closing (between : Workbench) (same : between.settings = bench.settings) :
      ends (last >>= fun _ => pure Outcome.done) between =
        (.ok .done, between.noteAll message) := by
    rw [ends_bind, silent between same]
    rfl
  obtain ⟨isAccepted, after, submitted, first⟩ := exists_submits bench uri batch
  rw [ends_bind, ends_submit, run_state, asked, submitted]
  cases isAccepted with
  | false => exact ⟨first.answers, _, first.events, .refused (first.refused_iff.mp rfl)⟩
  | true =>
      have accepted : bench.accept.head? ≠ some false := by
        intro refused
        cases first.refused_iff.mpr refused
      have written : after.document? uri = some (document.replaceAll batch) := by
        rw [first.written rfl, opened]
        rfl
      dsimp only
      rw [ends_bind, ends_auto_sort written, first.settings]
      cases due : (document.replaceAll batch).followUp? bench.settings with
      | none =>
          change bench.Closes _ (ends (last >>= fun _ => pure Outcome.done) after)
          rw [closing after first.settings]
          exact ⟨first.answers, _, by simp [noteAll, first.events], .unsorted accepted due⟩
      | some sorting =>
          obtain ⟨isAccepted, sorted, submitted, second⟩ := exists_submits after uri sorting
          rw [FaithfulEditor.handOver, ends_submit, run_state, asked, submitted]
          have answers := second.answers.trans first.answers
          have settings := second.settings.trans first.settings
          have events := second.events.trans (congrArg (· ++ _) first.events)
          have refused_iff := second.refused_iff
          rw [first.accept] at refused_iff
          cases isAccepted with
          | false =>
              exact ⟨answers, _, by rw [events, List.append_assoc]; rfl,
                .sortingRefused accepted due (refused_iff.mp rfl)⟩
          | true =>
              have alsoAccepted : bench.accept.tail.head? ≠ some false := by
                intro refused
                cases refused_iff.mpr refused
              dsimp only
              rw [closing sorted settings]
              exact ⟨answers, _, by simp [noteAll, events], .sorted accepted due alsoAccepted⟩

/-! ### Questions -/

section Questions

variable {selection : Option Range} {name : Text} {block : Block}

/-- What follows a question, by the answer to it. -/
theorem ends_import_with_alias_succ (attempts : Nat) (bench : Workbench) :
    ends (importWithAlias uri selection name block (attempts + 1) : Job Workbench Outcome) bench =
      match AliasDecision.of bench.answers.head?.join block.uses with
      | .cancel => (.ok .cancelled, bench.questioned)
      | .conflict _ =>
          ends (importWithAlias uri selection name block attempts)
            (bench.questioned.noteAll [.ofConflict bench.settings])
      | .replaceExisting =>
          ends (match replaceEdit? name block.uses with
            | some edit =>
                Commands.submit uri [edit] >>= fun _ => autoSort uri >>= fun _ => pure .done
            | none => autoSort uri >>= fun _ => pure .done) bench.questioned
      | .useAlias otherName =>
          ends (Commands.submit uri (selectionEdit selection otherName ++
              [insertEdit name (some otherName) block.declarations]) >>= fun _ =>
            finishImport uri >>= fun _ => pure .done) bench.questioned := by
  rw [importWithAlias, ends_bind, ends_ask, run_state]
  have asked : (MonadEditor.askText aliasPlaceholder : StateM Workbench _).run bench =
      (bench.answers.head?.join, bench.questioned) := rfl
  rw [asked]
  dsimp only
  cases AliasDecision.of bench.answers.head?.join block.uses with
  | cancel => rfl
  | conflict _ =>
      dsimp only
      rw [ends_bind, ends_report_conflict]
      rfl
  | replaceExisting =>
      cases replaceEdit? name block.uses with
      | none => rfl
      | some edit => rfl
  | useAlias otherName => rfl

def reported (bench : Workbench) (rejected : List Text) (rest : List (Option Text)) : Workbench :=
  { bench with answers := rest
               events := bench.events ++ Event.conflicts bench.settings rejected }

/-- Every answer that is taken costs one question, and nothing else. -/
theorem ends_import_with_alias_rejected {rejected : List Text} {rest : List (Option Text)}
    (conflicts : ∀ answer ∈ rejected, Conflicts block.uses answer)
    (scripted : bench.answers = rejected.map some ++ rest) (attempts : Nat) :
    ends (importWithAlias uri selection name block (rejected.length + attempts) :
        Job Workbench Outcome) bench =
      ends (importWithAlias uri selection name block attempts) (bench.reported rejected rest) := by
  induction rejected generalizing bench with
  | nil =>
      obtain rfl : rest = bench.answers := scripted.symm
      rw [List.length_nil, Nat.zero_add, reported, Event.conflicts, List.flatMap_nil,
        List.append_nil]
  | cons answer rejected induction =>
      obtain ⟨taken, others⟩ := List.forall_mem_cons.mp conflicts
      have head : bench.answers.head?.join = some answer := by
        rw [scripted]
        rfl
      have tail : bench.answers.tail = rejected.map some ++ rest := by
        rw [scripted]
        rfl
      have further : attempts + (answer :: rejected).length =
          rejected.length + attempts + 1 := by
        rw [List.length_cons]
        omega
      rw [Nat.add_comm, further, ends_import_with_alias_succ, head, AliasDecision.of_conflict taken]
      dsimp only
      rw [induction others tail]
      simp [reported, questioned, noteAll, note, Event.conflicts]

/-- How the answer that decides ends an import, and the events from then on. -/
inductive AnswerEnd (settings : Settings) (accept : List Bool) (uri : Text) (document : Document)
    (selection : Option Range) (name : Text) (block : Block) :
    Option Text → Except ResolveError Outcome → List Event → Prop
  | declined : AnswerEnd settings accept uri document selection name block none (.ok .cancelled) []
  | replaced {statement : UseStatement} {result : Except ResolveError Outcome} {made : List Event}
      (member : statement ∈ block.uses) (short : statement.shortName? = some (baseName name))
      (first : ∀ other ∈ block.uses, other.shortName? = some (baseName name) →
        statement.line ≤ other.line)
      (standing : document.lines[statement.line]? = some statement.text)
      (ended : BatchTrace settings accept uri document
        [⟨⟨⟨statement.line, 0⟩, ⟨statement.line, Text.units statement.text⟩⟩,
          "use ".toList ++ name ++ ";".toList⟩] [] result made) :
      AnswerEnd settings accept uri document selection name block (some []) result made
  | renamed {answer feeds : Text} {last : UseStatement} {result : Except ResolveError Outcome}
      {made : List Event} (named : answer ≠ []) (member : last ∈ block.uses)
      (lowest : ∀ other ∈ block.uses, other.line ≤ last.line)
      (spacing : block.declarations.CrowdsType ∧ feeds = "\n\n".toList ∨
        ¬ block.declarations.CrowdsType ∧ feeds = "\n".toList)
      (ended : BatchTrace settings accept uri document
        (selection.toList.map (fun range => ⟨range, answer⟩) ++
          [⟨⟨⟨last.line + 1, 0⟩, ⟨last.line + 1, 0⟩⟩,
            "use ".toList ++ name ++ " as ".toList ++ answer ++ ";".toList ++ feeds⟩])
        [.ofImport settings] result made) :
      AnswerEnd settings accept uri document selection name block (some answer) result made

theorem uses_ascending (scanned : Block.scan document.lines (some name) = .ok block) :
    block.uses.Pairwise fun upper lower => upper.line < lower.line := by
  rw [Block.eq_shown_by_of_scan scanned]
  exact Block.uses_from_pairwise 0 _

/-- The statement that an import replaces stands on the first line with the short name. -/
theorem exists_replaced (scanned : Block.scan document.lines (some name) = .ok block)
    (taken : takes block.uses (baseName name) = true) :
    ∃ statement ∈ block.uses, statement.shortName? = some (baseName name) ∧
      (∀ other ∈ block.uses, other.shortName? = some (baseName name) →
        statement.line ≤ other.line) ∧
      document.lines[statement.line]? = some statement.text ∧
      replaceEdit? name block.uses =
        some ⟨⟨⟨statement.line, 0⟩, ⟨statement.line, Text.units statement.text⟩⟩,
          "use ".toList ++ name ++ ";".toList⟩ := by
  obtain ⟨edit, found⟩ := FaithfulEditor.exists_replace_edit taken
  obtain ⟨statement, searched, edit_eq⟩ := Option.bind_eq_some_iff.mp found
  obtain rfl := Option.some.inj edit_eq
  obtain ⟨short, above, below, uses_eq, others⟩ := List.find?_eq_some_iff_append.mp searched
  have member : statement ∈ block.uses := List.mem_of_find?_eq_some searched
  have ordered := uses_ascending scanned
  refine ⟨statement, member, beq_iff_eq.mp short, ?_, ?_, found⟩
  · intro other otherMember same
    rw [uses_eq] at ordered otherMember
    rcases List.mem_append.mp otherMember with earlier | later
    · have different := others other earlier
      simp [same] at different
    · rcases List.mem_cons.mp later with here | later
      · rw [here]
      · have below := (List.pairwise_cons.mp (List.pairwise_append.mp ordered).2.1).1 other later
        exact below.le
  · exact ((Block.mem_uses_of_scan (Block.scan_none_of_scan scanned)).mp member).1

/-- Where there is a statement, the line for a class goes below the last one. -/
theorem exists_added (scanned : Block.scan document.lines (some name) = .ok block)
    (taken : takes block.uses (baseName name) = true) (answer : Text) :
    ∃ last ∈ block.uses, (∀ other ∈ block.uses, other.line ≤ last.line) ∧
      ∃ feeds, (block.declarations.CrowdsType ∧ feeds = "\n\n".toList ∨
          ¬ block.declarations.CrowdsType ∧ feeds = "\n".toList) ∧
        insertEdit name (some answer) block.declarations =
          ⟨⟨⟨last.line + 1, 0⟩, ⟨last.line + 1, 0⟩⟩,
            "use ".toList ++ name ++ " as ".toList ++ answer ++ ";".toList ++ feeds⟩ := by
  obtain ⟨statement, someUse, -⟩ := takes_eq_true_iff.mp taken
  obtain ⟨above, last, uses_eq⟩ :=
    (List.eq_nil_or_concat' block.uses).resolve_left (List.ne_nil_of_mem someUse)
  have last_use_eq : block.declarations.lastUse = some (last.line + 1) := by
    have position := Block.last_use_shown_by (document.lines.take (Block.window document.lines))
    rw [← Block.eq_shown_by_of_scan scanned, uses_eq, List.getLast?_concat] at position
    exact position
  have ordered := uses_ascending scanned
  rw [uses_eq, List.pairwise_append] at ordered
  refine ⟨last, by simp [uses_eq], ?_, _, InsertionPoint.after_of_last_use last_use_eq, ?_⟩
  · intro other member
    rw [uses_eq] at member
    rcases List.mem_append.mp member with earlier | same
    · exact (ordered.2.2 other earlier last (List.mem_singleton.mpr rfl)).le
    · rw [List.mem_singleton.mp same]
  · rw [insertEdit, InsertionPoint.of_last_use last_use_eq]
    rfl

/-- An answer that is not taken decides, however many questions are left. -/
theorem closes_answer (opened : bench.document? uri = some document)
    (scanned : Block.scan document.lines (some name) = .ok block)
    (taken : takes block.uses (baseName name) = true) (selection : Option Range)
    (decides : ∀ answer, bench.answers.head?.join = some answer → ¬ Conflicts block.uses answer) :
    ∃ ended, (∀ attempts, ends (importWithAlias uri selection name block (attempts + 1)) bench =
        ended) ∧
      bench.questioned.Closes (AnswerEnd bench.settings bench.accept uri document selection name
        block bench.answers.head?.join) ended := by
  have openedStill : bench.questioned.document? uri = some document := opened
  simp only [ends_import_with_alias_succ]
  generalize bench.answers.head?.join = reply at decides ⊢
  cases reply with
  | none => exact ⟨_, fun _ => rfl, rfl, [], (List.append_nil _).symm, .declined⟩
  | some answer =>
      by_cases empty : answer = []
      · subst empty
        obtain ⟨statement, member, short, first, standing, found⟩ := exists_replaced scanned taken
        have closes (edit : Edit) := closes_batch [edit] (pure ()) openedStill
          fun after _ => congrArg (Prod.mk _) (note_all_nil after).symm
        simp only [pure_bind] at closes
        simp only [AliasDecision.of_empty, found]
        exact ⟨_, fun _ => rfl, (closes _).mono fun _ _ => .replaced member short first standing⟩
      · obtain ⟨last, member, lowest, feeds, spacing, added⟩ := exists_added scanned taken answer
        have closes := closes_batch
          (selectionEdit selection answer ++ [insertEdit name (some answer) block.declarations])
          (liftM (showMessage importedMessage false : StateM Workbench Unit)) openedStill
          fun after same => same ▸ ends_show_imported after
        rw [added] at closes
        simp only [AliasDecision.of_free empty (decides answer rfl), finishImport, bind_assoc,
          added]
        exact ⟨_, fun _ => rfl, closes.mono fun _ _ => .renamed empty member lowest spacing⟩

theorem ends_import_class_taken (opened : bench.document? uri = some document)
    (scanned : Block.scan document.lines (some name) = .ok block)
    (taken : takes block.uses (baseName name) = true) (replaceSelection : Bool) :
    ends (importClass uri selection name replaceSelection : Job Workbench Outcome) bench =
      ends (importWithAlias uri selection name block (bench.answers.length + 1)) bench := by
  have present : ((faithful uri).desk bench).document = some document := opened
  rw [importClass, ends_bind, FaithfulEditor.ends_lines_of present]
  change ends (liftM (Block.scan document.lines (some name)) >>= _) bench = _
  rw [ends_bind, ends_except, scanned]
  dsimp only
  rw [ImportPlan.of, if_pos taken]
  rfl

theorem filter_map_call?_conflicts (settings : Settings) (rejected : List Text) :
    (Event.conflicts settings rejected).filterMap Event.call? = [] := by
  rw [List.filterMap_eq_nil_iff]
  intro event member
  obtain ⟨answer, _, asked⟩ := List.mem_flatMap.mp member
  simp only [List.mem_cons, List.not_mem_nil, or_false] at asked
  rcases asked with rfl | rfl
  · rfl
  · rw [Event.ofConflict, Event.ofMessage]
    split
    · rfl
    · rfl

/-- An import whose short name is taken asks until an answer decides, for every script of answers
and with every bound above their number. It uses up the answers up to that one, reports each earlier
one as taken and does nothing else on their account. -/
theorem import_class_asks_until_decided (opened : bench.document? uri = some document)
    (scanned : Block.scan document.lines (some name) = .ok block)
    (taken : takes block.uses (baseName name) = true) (selection : Option Range)
    (replaceSelection : Bool) :
    ∃ result after, ends (importClass uri selection name replaceSelection) bench = (result, after) ∧
      (∀ attempts, bench.answers.length < attempts →
        ends (importWithAlias uri selection name block attempts) bench = (result, after)) ∧
      ∃ (rejected : List Text) (rest : List (Option Text)) (made : List Event),
        bench.answers = rejected.map some ++ rest ∧
        (∀ answer ∈ rejected, Conflicts block.uses answer) ∧
        (∀ answer, rest.head?.join = some answer → ¬ Conflicts block.uses answer) ∧
        after.answers = rest.tail ∧
        after.events = bench.events ++ Event.conflicts bench.settings rejected ++
          .ofQuestion :: made ∧
        after.documents = (made.filterMap Event.call?).foldl Call.carryOut bench.documents ∧
        AnswerEnd bench.settings bench.accept uri document selection name block rest.head?.join
          result made := by
  obtain ⟨rejected, rest, scripted, conflicts, decides⟩ :=
    AliasDecision.exists_deciding block.uses bench.answers
  have openedStill : (bench.reported rejected rest).document? uri = some document := opened
  obtain ⟨⟨result, after⟩, decided, closes⟩ :=
    closes_answer openedStill scanned taken selection decides
  have bounded : ∀ attempts, bench.answers.length < attempts →
      ends (importWithAlias uri selection name block attempts) bench = (result, after) := by
    intro attempts enough
    rw [scripted, List.length_append, List.length_map] at enough
    obtain ⟨left, rfl⟩ : ∃ left, attempts = rejected.length + (left + 1) :=
      ⟨attempts - rejected.length - 1, by omega⟩
    rw [ends_import_with_alias_rejected conflicts scripted, decided]
  have ended : ends (importClass uri selection name replaceSelection) bench = (result, after) := by
    rw [ends_import_class_taken opened scanned taken, bounded _ (Nat.lt_succ_self _)]
  obtain ⟨made, events, holds⟩ := closes.events
  have events_eq : after.events = bench.events ++ Event.conflicts bench.settings rejected ++
      .ofQuestion :: made := by
    rw [events]
    simp [questioned, note, reported]
  refine ⟨result, after, ended, bounded, rejected, rest, made, scripted, conflicts, decides,
    closes.answers, events_eq, ?_, holds⟩
  obtain ⟨calls, trace, -⟩ : Concludes uri (fun _ => False) _ bench _ :=
    FaithfulEditor.concludes_import_class (faithful uri) bench selection name replaceSelection
  have makes := makes_of_trace trace
  rw [ended] at makes
  have calls_eq : made.filterMap Event.call? = calls := by
    have all := makes.calls
    rw [Workbench.calls, events_eq, List.filterMap_append, List.filterMap_append,
      filter_map_call?_conflicts, List.append_nil] at all
    exact List.append_cancel_left all
  rw [calls_eq]
  exact makes.documents

def twoUsers : Document :=
  ⟨"<?php\nuse App\\User;\nuse Lib\\Account;\n\nnew User;\n".toList⟩

def twoUsersBlock : Block :=
  ⟨[⟨"use App\\User;".toList, 1⟩, ⟨"use Lib\\Account;".toList, 2⟩],
    ⟨some 1, none, none, some 3, none⟩⟩

def stubbornUser (decision : String) : Workbench where
  settings := { autoSort := false }
  documents := [("file:///a.php".toList, twoUsers)]
  answers := [some "User".toList, some "Account".toList, some decision.toList, none]

/-- Both taken names are reported. The name that is free replaces the selected one and is given to
the class; without a name, the statement with the short name of the class is replaced. -/
theorem import_class_asks_until_decided_stubborn_user :
    ends (importWithAlias "file:///a.php".toList (some ⟨⟨4, 4⟩, ⟨4, 8⟩⟩) "Old\\User".toList
        twoUsersBlock 9) (stubbornUser "Member") =
      ends (importClass "file:///a.php".toList (some ⟨⟨4, 4⟩, ⟨4, 8⟩⟩) "Old\\User".toList true)
        (stubbornUser "Member") ∧
    (ends (importClass "file:///a.php".toList (some ⟨⟨4, 4⟩, ⟨4, 8⟩⟩) "Old\\User".toList true)
        (stubbornUser "Member")).2.answers = [none] ∧
    (ends (importClass "file:///a.php".toList (some ⟨⟨4, 4⟩, ⟨4, 8⟩⟩) "Old\\User".toList true)
        (stubbornUser "Member")).2.events =
      [.ask "Enter an alias or leave it empty to replace".toList,
        .notify "PHP Namespace Resolver: This alias is already in use.".toList true,
        .ask "Enter an alias or leave it empty to replace".toList,
        .notify "PHP Namespace Resolver: This alias is already in use.".toList true,
        .ask "Enter an alias or leave it empty to replace".toList,
        .edits "file:///a.php".toList
          [⟨⟨⟨4, 4⟩, ⟨4, 8⟩⟩, "Member".toList⟩,
            ⟨⟨⟨3, 0⟩, ⟨3, 0⟩⟩, "use Old\\User as Member;\n".toList⟩] true,
        .notify "PHP Namespace Resolver: The class is imported.".toList false] ∧
    (ends (importClass "file:///a.php".toList (some ⟨⟨4, 4⟩, ⟨4, 8⟩⟩) "Old\\User".toList true)
        (stubbornUser "")).2.events =
      [.ask "Enter an alias or leave it empty to replace".toList,
        .notify "PHP Namespace Resolver: This alias is already in use.".toList true,
        .ask "Enter an alias or leave it empty to replace".toList,
        .notify "PHP Namespace Resolver: This alias is already in use.".toList true,
        .ask "Enter an alias or leave it empty to replace".toList,
        .edits "file:///a.php".toList
          [⟨⟨⟨1, 0⟩, ⟨1, 13⟩⟩, "use Old\\User;".toList⟩] true] := by
  have opened : (stubbornUser "Member").document? "file:///a.php".toList = some twoUsers := by
    decide +kernel
  have scanned : Block.scan twoUsers.lines (some "Old\\User".toList) = .ok twoUsersBlock := by
    decide +kernel
  have taken : takes twoUsersBlock.uses (baseName "Old\\User".toList) = true := by decide +kernel
  obtain ⟨result, after, ended, bounded, _⟩ :=
    import_class_asks_until_decided opened scanned taken (some ⟨⟨4, 4⟩, ⟨4, 8⟩⟩) true
  refine ⟨?_, by decide +kernel, by decide +kernel, by decide +kernel⟩
  rw [ended, bounded 9 (by decide)]

end Questions

end Workbench
end PhpNames
