import PhpNames.Proofs.Layout
import PhpNames.Workbench

/-!
Editors that keep their word, and what the steps of the commands do with them.

An editor answers requests, one after the other, from a state that the answers may change.
`FaithfulEditor` says what commands rely on for the document that they work on: its lines are those
of a text, an accepted batch is carried out on that text, and nothing else changes it. What the
editor answers otherwise is left open, so a statement about every faithful editor is one about every
script of answers.

An editor whose accepted batches are noted is faithful if the editor behind it is, so that whatever
holds of a command holds of it as well while its batches are noted.
-/

namespace PhpNames

open Text

/-! ### States -/

/-- A monad whose actions are carried out one after the other, in states of type `σ`. -/
class MonadRun (σ : Type) (m : outParam (Type → Type)) [Monad m] where
  run {α : Type} : m α → σ → α × σ
  run_pure {α : Type} (a : α) (s : σ) : run (pure a) s = (a, s)
  run_bind {α β : Type} (first : m α) (next : α → m β) (s : σ) :
    run (first >>= next) s = run (next (run first s).1) (run first s).2
  run_map {α β : Type} (f : α → β) (action : m α) (s : σ) :
    run (f <$> action) s = (f (run action s).1, (run action s).2)

open MonadRun

instance {σ : Type} : MonadRun σ (StateM σ) where
  run := StateT.run
  run_pure _ _ := rfl
  run_bind _ _ _ := rfl
  run_map _ _ _ := rfl

theorem run_state {σ α : Type} (action : StateM σ α) (s : σ) :
    run action s = StateT.run action s :=
  rfl

structure Noted (σ : Type) where
  batches : List (List Edit)
  state : σ

section Noting

variable {σ α : Type} {m : Type → Type} [Monad m] [MonadRun σ m]

instance : MonadRun (Noted σ) (Noting m) where
  run action s :=
    let reply := run (action.run s.batches) s.state
    (reply.1.1, ⟨reply.1.2, reply.2⟩)
  run_pure a s := by
    have run_eq : run ((pure a : Noting m _).run s.batches) s.state =
        ((a, s.batches), s.state) := run_pure _ s.state
    dsimp only
    rw [run_eq]
  run_bind first next s := by
    dsimp only
    rw [StateT.run_bind, run_bind]
  run_map f action s := by
    have run_eq : run ((f <$> action).run s.batches) s.state = _ :=
      (run_bind (action.run s.batches) _ s.state).trans (run_pure _ _)
    dsimp only
    rw [run_eq]

theorem run_of_run {action : Noting m α} {s : Noted σ} {a : α} {batches : List (List Edit)}
    {after : σ} (run_eq : run (action.run s.batches) s.state = ((a, batches), after)) :
    run action s = (a, ⟨batches, after⟩) :=
  congrArg (fun reply => (reply.1.1, (⟨reply.1.2, reply.2⟩ : Noted σ))) run_eq

theorem run_lift (action : m α) (s : Noted σ) :
    run (StateT.lift action : Noting m α) s =
      ((run action s.state).1, ⟨s.batches, (run action s.state).2⟩) :=
  run_of_run ((run_bind action _ s.state).trans (run_pure _ _))

end Noting

abbrev Job (σ : Type) {m : Type → Type} [Monad m] [MonadRun σ m] (α : Type) :=
  ExceptT ResolveError m α

namespace Job

variable {σ α β : Type} {m : Type → Type} [Monad m] [MonadRun σ m]

/-- The outcome of a job, and the state in which it leaves the editor. -/
def ends (job : Job σ α) (s : σ) : Except ResolveError α × σ :=
  run job.run s

theorem ends_pure (a : α) (s : σ) : ends (pure a) s = (.ok a, s) :=
  run_pure _ s

theorem ends_throw (error : ResolveError) (s : σ) :
    ends (throw error : Job σ α) s = (.error error, s) :=
  run_pure _ s

theorem ends_bind (job : Job σ α) (next : α → Job σ β) (s : σ) :
    ends (job >>= next) s =
      match job.ends s with
      | (.ok a, between) => (next a).ends between
      | (.error error, between) => (.error error, between) := by
  rw [ends, ExceptT.run_bind, run_bind, ends]
  rcases run job.run s with ⟨error | a, between⟩
  · exact run_pure _ between
  · rfl

theorem ends_try_catch (job : Job σ α) (handler : ResolveError → Job σ α) (s : σ) :
    ends (tryCatch job handler) s =
      match job.ends s with
      | (.ok a, between) => (.ok a, between)
      | (.error error, between) => (handler error).ends between := by
  rw [ends]
  refine (run_bind job.run _ s).trans ?_
  rw [ends]
  rcases run job.run s with ⟨error | a, between⟩
  · rfl
  · exact run_pure _ between

theorem ends_ask (question : m α) (s : σ) :
    ends (liftM question) s = (.ok (run question s).1, (run question s).2) :=
  run_map Except.ok question s

theorem ends_except (result : Except ResolveError α) (s : σ) :
    ends (liftM result : Job σ α) s = (result, s) := by
  cases result with
  | error error => exact ends_throw error s
  | ok a => exact ends_pure a s

end Job

/-! ### Requests -/

/-- What a command can ask of an editor, by the type of the answer. -/
inductive Request : Type → Type where
  | settings : Request Settings
  | workspaceRoot : Request (Option Path)
  | documentLines (uri : Text) : Request (Option (List Text))
  | candidateFiles (name : Text) : Request (List Path)
  | openFile (path : Path) : Request (Option (List Text))
  | chooseName (options : List Text) : Request (Option Text)
  | askText (placeholder : Text) : Request (Option Text)
  | patience : Request Nat
  | applyEdits (uri : Text) (edits : List Edit) : Request Bool
  | notify (message : Text) (isError : Bool) : Request Unit
  | showStatus (message : Text) : Request Unit

namespace Request

variable {α : Type}

def perform {m : Type → Type} [MonadEditor m] : Request α → m α
  | settings => MonadEditor.settings
  | workspaceRoot => MonadEditor.workspaceRoot
  | documentLines uri => MonadEditor.documentLines uri
  | candidateFiles name => MonadEditor.candidateFiles name
  | openFile path => MonadEditor.openFile path
  | chooseName options => MonadEditor.chooseName options
  | askText placeholder => MonadEditor.askText placeholder
  | patience => MonadEditor.patience
  | applyEdits uri edits => MonadEditor.applyEdits uri edits
  | notify message isError => MonadEditor.notify message isError
  | showStatus message => MonadEditor.showStatus message

/-- Whether a request neither looks for a class nor submits a batch. -/
def isQuiet : Request α → Bool
  | candidateFiles _ | applyEdits _ _ => false
  | _ => true

def noted : Request α → α → List (List Edit)
  | applyEdits _ edits, isAccepted => if isAccepted then [edits] else []
  | _, _ => []

theorem noted_of_quiet (request : Request α) (quiet : request.isQuiet = true) (answer : α) :
    request.noted answer = [] := by
  cases request with
  | applyEdits uri edits => cases quiet
  | _ => rfl

end Request

/-- What an editor shows of the work on one document: its text, the classes that were looked for
and the batches that were accepted. -/
structure Desk where
  document : Option Document
  lookups : List Text
  accepted : List (List Edit)
  deriving DecidableEq, Repr

namespace Desk

def lookUp (desk : Desk) (name : Text) : Desk :=
  { desk with lookups := desk.lookups ++ [name] }

def settle (desk : Desk) (edits : List Edit) (isAccepted : Bool) : Desk :=
  if isAccepted then
    { desk with
      document := desk.document.map (·.replaceAll edits)
      accepted := desk.accepted ++ [edits] }
  else desk

end Desk

/-- An editor whose state is of type `σ`, as it behaves towards one document. -/
structure FaithfulEditor (σ : Type) {m : Type → Type} [Monad m] [MonadEditor m] [MonadRun σ m]
    (uri : Text) where
  desk : σ → Desk
  documentLines_eq (s : σ) :
    run (MonadEditor.documentLines uri : m _) s = ((desk s).document.map (·.lines), s)
  candidateFiles_desk (name : Text) (s : σ) :
    desk (run (MonadEditor.candidateFiles name : m _) s).2 = (desk s).lookUp name
  applyEdits_desk (edits : List Edit) (s : σ) :
    desk (run (MonadEditor.applyEdits uri edits : m _) s).2 =
      (desk s).settle edits (run (MonadEditor.applyEdits uri edits : m _) s).1
  quiet_desk {α : Type} (request : Request α) (quiet : request.isQuiet = true) (s : σ) :
    desk (run (request.perform : m α) s).2 = desk s

section Runs

variable {σ : Type} {m : Type → Type} [Monad m] [MonadEditor m] [MonadRun σ m]

inductive Reaches (s : σ) : σ → Prop where
  | refl : Reaches s s
  | step {α : Type} {between : σ} (reached : Reaches s between) (request : Request α) :
      Reaches s (run (request.perform : m α) between).2

theorem Reaches.trans {s between after : σ} (first : Reaches s between)
    (second : Reaches between after) : Reaches s after := by
  induction second with
  | refl => exact first
  | step _ request induction => exact induction.step request

/-- Requests that neither look for a class nor submit a batch, one after the other. -/
inductive Questions (s : σ) : σ → Prop where
  | refl : Questions s s
  | step {α : Type} {between : σ} (asked : Questions s between) (request : Request α)
      (quiet : request.isQuiet = true) :
      Questions s (run (request.perform : m α) between).2

theorem Questions.trans {s between after : σ} (first : Questions s between)
    (second : Questions between after) : Questions s after := by
  induction second with
  | refl => exact first
  | step _ request quiet induction => exact induction.step request quiet

def Asks {α : Type} (σ : Type) [MonadRun σ m] (action : m α) : Prop :=
  ∀ s : σ, Questions s (run action s).2

end Runs

namespace Commands

variable {σ α β : Type} {m : Type → Type} [Monad m] [MonadEditor m] [MonadRun σ m]

theorem asks_pure (a : α) : Asks σ (pure a : m α) := by
  intro s
  rw [run_pure]
  exact .refl

theorem asks_bind {first : m α} {next : α → m β} (firstAsks : Asks σ first)
    (nextAsks : ∀ a, Asks σ (next a)) : Asks σ (first >>= next) := by
  intro s
  rw [run_bind]
  exact (firstAsks s).trans (nextAsks _ _)

theorem asks_request (request : Request α) (quiet : request.isQuiet = true) :
    Asks σ (request.perform : m α) :=
  fun _ => .step .refl request quiet

theorem asks_show_message (message : Text) (isError : Bool) :
    Asks σ (showMessage message isError : m Unit) := by
  apply asks_bind (asks_request .settings rfl)
  intro settings
  split
  · exact asks_request (.showStatus message) rfl
  · exact asks_request (.notify (messageHeading ++ withoutIcon message) isError) rfl

theorem asks_pick_name (candidates : Candidates) :
    Asks σ (pickName candidates : m (Option Text)) := by
  unfold pickName
  cases candidates.single? with
  | some only => exact asks_pure _
  | none => exact asks_request (.chooseName candidates.names) rfl

theorem asks_open_all (paths : List Path) : Asks σ (openAll paths : m (List (List Text))) := by
  induction paths with
  | nil => exact asks_pure []
  | cons path rest induction =>
      apply asks_bind (asks_request (.openFile path) rfl)
      intro found
      cases found with
      | none => exact induction
      | some lines => exact asks_bind induction fun others => asks_pure _

def openCandidates (name : Text) : m (List (List Text)) := do
  let files ← MonadEditor.candidateFiles name
  openAll (files.filter (Candidates.isNamedAfter · name))

open Job

theorem ends_find_candidates (name : Text) (s : σ) :
    ends (findCandidates name) s =
      (Candidates.resolve name (run (openCandidates name) s).1,
        (run (openCandidates name) s).2) := by
  rw [findCandidates, ends_bind, ends_ask, openCandidates, run_bind]
  dsimp only
  rw [ends_bind, ends_ask]
  dsimp only
  cases Candidates.resolve name _ with
  | ok candidates => exact ends_pure candidates _
  | error error => exact ends_throw error _

theorem ends_submit (uri : Text) (edits : List Edit) (s : σ) :
    ends (submit uri edits) s =
      match run (MonadEditor.applyEdits uri edits : m Bool) s with
      | (true, after) => (.ok (), after)
      | (false, after) => (.error .editRejected, after) := by
  rw [submit, ends_bind, ends_ask]
  rcases run (MonadEditor.applyEdits uri edits : m Bool) s with ⟨_ | _, after⟩
  · exact ends_throw _ after
  · exact ends_pure () after

end Commands

/-! ### What the steps do to a faithful editor -/

namespace FaithfulEditor

variable {σ : Type} {m : Type → Type} [Monad m] [MonadEditor m] [MonadRun σ m] {uri : Text}

/-- An editor that has answered questions, while nothing happened to the document. -/
structure Keeps (editor : FaithfulEditor σ uri) (s after : σ) : Prop where
  reached : Reaches s after
  desk_eq : editor.desk after = editor.desk s

variable {editor : FaithfulEditor σ uri} {s between after : σ}

theorem Keeps.refl : editor.Keeps s s :=
  ⟨.refl, rfl⟩

theorem Keeps.trans (first : editor.Keeps s between) (second : editor.Keeps between after) :
    editor.Keeps s after :=
  ⟨first.reached.trans second.reached, second.desk_eq.trans first.desk_eq⟩

theorem keeps_of_questions (asked : Questions s after) : editor.Keeps s after := by
  induction asked with
  | refl => exact .refl
  | step _ request quiet induction =>
      exact induction.trans ⟨.step .refl request, editor.quiet_desk request quiet _⟩

open Commands Job

variable {document : Document}

theorem ends_lines_of (present : (editor.desk s).document = some document) :
    ends (linesOf uri) s = (.ok document.lines, s) := by
  rw [linesOf, ends_bind, ends_ask, editor.documentLines_eq, present]
  exact ends_pure document.lines s

theorem ends_lines_of_absent (absent : (editor.desk s).document = none) :
    ends (linesOf uri) s = (.error .noSelection, s) := by
  rw [linesOf, ends_bind, ends_ask, editor.documentLines_eq, absent]
  exact ends_throw _ s

theorem ends_word_at_absent (absent : (editor.desk s).document = none) (position : Position) :
    ends (wordAt uri position) s = (.error .noSelection, s) := by
  rw [wordAt, ends_bind, ends_lines_of_absent absent]

theorem ends_word_at (present : (editor.desk s).document = some document) (position : Position) :
    ends (wordAt uri position) s =
      match document.wordAt? position with
      | some word => (.ok word, s)
      | none => (.error .noSelection, s) := by
  have at_eq : Word.at? document.lines position = document.wordAt? position := rfl
  rw [wordAt, ends_bind, ends_lines_of present]
  dsimp only
  rw [at_eq]
  cases document.wordAt? position with
  | some word => exact ends_pure word s
  | none => exact ends_throw _ s

end FaithfulEditor

/-! ### Noting -/

section Noting

variable {σ α : Type} {m : Type → Type} [Monad m] [MonadEditor m] [MonadRun σ m]

/-- A request is answered as by the editor behind, and a batch that is accepted is noted. -/
theorem run_noting (request : Request α) (s : Noted σ) :
    run (request.perform : Noting m α) s =
      ((run (request.perform : m α) s.state).1,
        ⟨s.batches ++ request.noted (run (request.perform : m α) s.state).1,
          (run (request.perform : m α) s.state).2⟩) := by
  have lifted {β : Type} (action : m β) :
      run (StateT.lift action : Noting m β) s =
        ((run action s.state).1, ⟨s.batches ++ [], (run action s.state).2⟩) := by
    rw [run_lift, List.append_nil]
  cases request with
  | applyEdits uri edits =>
      refine (run_bind _ _ s).trans ?_
      rw [run_lift, Request.perform]
      generalize run (MonadEditor.applyEdits uri edits : m Bool) s.state = reply
      obtain ⟨isAccepted, after⟩ := reply
      cases isAccepted with
      | false =>
          refine (run_pure false _).trans ?_
          rw [Request.noted, if_neg Bool.false_ne_true, List.append_nil]
      | true =>
          have noted : run (modify (· ++ [edits]) : Noting m Unit) (Noted.mk s.batches after) =
              ((), ⟨s.batches ++ [edits], after⟩) := run_of_run (run_pure _ after)
          refine (run_bind (modify (· ++ [edits])) _ _).trans ?_
          rw [noted]
          exact run_pure true _
  | settings => exact lifted _
  | workspaceRoot => exact lifted _
  | documentLines uri => exact lifted _
  | candidateFiles name => exact lifted _
  | openFile path => exact lifted _
  | chooseName options => exact lifted _
  | askText placeholder => exact lifted _
  | patience => exact lifted _
  | notify message isError => exact lifted _
  | showStatus message => exact lifted _

theorem candidate_files_noting (name : Text) (s : Noted σ) :
    run (MonadEditor.candidateFiles name : Noting m _) s =
      ((run (MonadEditor.candidateFiles name : m _) s.state).1,
        ⟨s.batches, (run (MonadEditor.candidateFiles name : m _) s.state).2⟩) :=
  run_lift _ s

theorem apply_edits_noting (uri : Text) (edits : List Edit) (s : Noted σ) :
    run (MonadEditor.applyEdits uri edits : Noting m Bool) s =
      ((run (MonadEditor.applyEdits uri edits : m Bool) s.state).1,
        ⟨s.batches ++
            if (run (MonadEditor.applyEdits uri edits : m Bool) s.state).1 then [edits] else [],
          (run (MonadEditor.applyEdits uri edits : m Bool) s.state).2⟩) :=
  run_noting (.applyEdits uri edits) s

def FaithfulEditor.noting {uri : Text} (editor : FaithfulEditor σ uri) :
    FaithfulEditor (Noted σ) uri where
  desk s := editor.desk s.state
  documentLines_eq s := by
    refine (run_lift _ s).trans ?_
    rw [editor.documentLines_eq]
  candidateFiles_desk name s := by
    rw [candidate_files_noting]
    exact editor.candidateFiles_desk name s.state
  applyEdits_desk edits s := by
    rw [apply_edits_noting]
    exact editor.applyEdits_desk edits s.state
  quiet_desk request quiet s := by
    rw [run_noting]
    exact editor.quiet_desk request quiet s.state

theorem Reaches.state {s after : Noted σ} (reached : Reaches s after) :
    Reaches s.state after.state := by
  induction reached with
  | refl => exact .refl
  | step _ request induction =>
      rw [run_noting]
      exact induction.step request

end Noting

/-! ### Several cursors -/

namespace Commands

section Pass

variable {m : Type → Type} [Monad m] [MonadEditor m]

/-- Serves cursors as `atEach` does, and tells which batches have been noted then. There is no
answer if the user has declined, so that cursors further on are not served. -/
def pass (command : Position → ExceptT ResolveError (Noting m) Outcome)
    (noted : List (List Edit)) : List Position → m (Option (List (List Edit)))
  | [] => return some noted
  | position :: rest => do
      let (outcome, more) ← ((command (position.shiftAll noted)).run).run []
      match outcome with
      | .ok .done => pass command (noted ++ more) rest
      | .ok .cancelled => return none
      | .error error =>
          reportError error
          pass command (noted ++ more) rest

variable [LawfulMonad m] (command : Position → ExceptT ResolveError (Noting m) Outcome)

theorem pass_append (noted : List (List Edit)) (front rest : List Position) :
    pass command noted (front ++ rest) = do
      match ← pass command noted front with
      | some further => pass command further rest
      | none => return none := by
  induction front generalizing noted with
  | nil => simp [pass]
  | cons position front induction =>
      rw [List.cons_append, pass, pass, bind_assoc]
      congr 1
      funext ⟨outcome, more⟩
      rcases outcome with error | ⟨_ | _⟩
      · simp only [bind_assoc, induction]
      · exact induction _
      · simp

theorem at_each_append (noted : List (List Edit)) (front rest : List Position) :
    atEach command noted (front ++ rest) = do
      match ← pass command noted front with
      | some further => atEach command further rest
      | none => return () := by
  induction front generalizing noted with
  | nil => simp [pass]
  | cons position front induction =>
      rw [List.cons_append, atEach, pass, bind_assoc]
      congr 1
      funext ⟨outcome, more⟩
      rcases outcome with error | ⟨_ | _⟩
      · simp only [bind_assoc, induction]
      · exact induction _
      · simp

end Pass

/-- A cursor is served, and then the others. -/
theorem pass_cons_run {σ : Type} [MonadEditor (StateM σ)]
    (command : Position → Job (Noted σ) Outcome) (noted : List (List Edit)) (position : Position)
    (rest : List Position) (s : σ) :
    (pass command noted (position :: rest) : StateM σ _).run s =
      match (command (position.shiftAll noted)).ends ⟨[], s⟩ with
      | (.ok .done, after) => (pass command (noted ++ after.batches) rest).run after.state
      | (.ok .cancelled, after) => (none, after.state)
      | (.error error, after) => (pass command (noted ++ after.batches) rest).run
          ((reportError error : StateM σ Unit).run after.state).2 := by
  have ends_eq : (command (position.shiftAll noted)).ends ⟨[], s⟩ =
      ((((command (position.shiftAll noted)).run.run []).run s).1.1,
        ⟨(((command (position.shiftAll noted)).run.run []).run s).1.2,
          (((command (position.shiftAll noted)).run.run []).run s).2⟩) := rfl
  rw [pass, StateT.run_bind, ends_eq]
  rcases ((command (position.shiftAll noted)).run.run []).run s with ⟨⟨outcome, more⟩, after⟩
  rcases outcome with error | ⟨_ | _⟩
  · rfl
  · rfl
  · rfl

end Commands

/-! ### The editor in memory -/

def Event.lookup? : Event → Option Text
  | .find name => some name
  | _ => none

def Event.acceptedFor? (uri : Text) : Event → Option (List Edit)
  | .edits changed batch true => if changed = uri then some batch else none
  | _ => none

namespace Workbench

def desk (uri : Text) (bench : Workbench) : Desk where
  document := bench.document? uri
  lookups := bench.events.filterMap Event.lookup?
  accepted := bench.events.filterMap (Event.acceptedFor? uri)

theorem note_desk {uri : Text} (bench : Workbench) (event : Event)
    (noLookup : event.lookup? = none) (noBatch : event.acceptedFor? uri = none) :
    (bench.note event).desk uri = bench.desk uri := by
  simp [desk, note, document?, noLookup, noBatch]

theorem edit_desk (bench : Workbench) (uri : Text) (edits : List Edit) :
    (bench.edit uri edits).desk uri =
      { bench.desk uri with document := (bench.document? uri).map (·.replaceAll edits) } := by
  unfold edit
  cases found : bench.document? uri with
  | none => simp [desk, found]
  | some document =>
      simp [desk, put, document?, Entries.lookup_set]

theorem submit_desk (bench : Workbench) (uri : Text) (edits : List Edit) :
    (bench.submit uri edits).2.desk uri =
      (bench.desk uri).settle edits (bench.submit uri edits).1 := by
  unfold submit
  split
  · simp [desk, decided, note, document?, Desk.settle, Event.lookup?, Event.acceptedFor?]
  · rw [edit_desk]
    simp [desk, decided, note, document?, Desk.settle, Event.lookup?, Event.acceptedFor?]

def faithful (uri : Text) : FaithfulEditor Workbench uri where
  desk := desk uri
  documentLines_eq _ := rfl
  candidateFiles_desk name bench := by
    change (bench.note (.find name)).desk uri = _
    simp [desk, note, document?, Desk.lookUp, Event.lookup?, Event.acceptedFor?]
  applyEdits_desk edits bench := submit_desk bench uri edits
  quiet_desk request quiet bench := by
    cases request with
    | candidateFiles name => cases quiet
    | applyEdits changed edits => cases quiet
    | settings => rfl
    | workspaceRoot => rfl
    | documentLines shown => rfl
    | openFile path => exact note_desk bench (.openFile path) rfl rfl
    | chooseName options => exact note_desk bench (.choose options) rfl rfl
    | askText placeholder => exact note_desk bench (.ask placeholder) rfl rfl
    | patience => rfl
    | notify message isError => exact note_desk bench (.notify message isError) rfl rfl
    | showStatus message => exact note_desk bench (.status message) rfl rfl

/-- Whether an editor in memory has used up some of its script, from the front. -/
structure Continues (bench after : Workbench) : Prop where
  choices : after.choices <:+ bench.choices
  answers : after.answers <:+ bench.answers
  accept : after.accept <:+ bench.accept

theorem Continues.refl (bench : Workbench) : bench.Continues bench :=
  ⟨List.suffix_rfl, List.suffix_rfl, List.suffix_rfl⟩

theorem Continues.trans {bench between after : Workbench} (first : bench.Continues between)
    (second : between.Continues after) : bench.Continues after :=
  ⟨second.choices.trans first.choices, second.answers.trans first.answers,
    second.accept.trans first.accept⟩

theorem perform_continues {α : Type} (request : Request α) (bench : Workbench) :
    bench.Continues ((request.perform : StateM Workbench α).run bench).2 := by
  cases request with
  | chooseName options => exact ⟨List.tail_suffix _, List.suffix_rfl, List.suffix_rfl⟩
  | askText placeholder => exact ⟨List.suffix_rfl, List.tail_suffix _, List.suffix_rfl⟩
  | applyEdits uri edits =>
      change bench.Continues (bench.submit uri edits).2
      unfold submit
      split
      · exact ⟨List.suffix_rfl, List.suffix_rfl, List.tail_suffix _⟩
      · unfold edit
        split
        · exact ⟨List.suffix_rfl, List.suffix_rfl, List.tail_suffix _⟩
        · exact ⟨List.suffix_rfl, List.suffix_rfl, List.tail_suffix _⟩
  | _ => exact ⟨List.suffix_rfl, List.suffix_rfl, List.suffix_rfl⟩

theorem reached_continues {bench after : Workbench} (reached : Reaches bench after) :
    bench.Continues after := by
  induction reached with
  | refl => exact .refl bench
  | step _ request induction => exact induction.trans (perform_continues request _)

theorem settings_reached {bench after : Workbench} (reached : Reaches bench after) :
    after.settings = bench.settings := by
  induction reached with
  | refl => rfl
  | @step _ between _ request induction =>
      rw [← induction]
      cases request with
      | applyEdits uri edits =>
          change (between.submit uri edits).2.settings = _
          unfold submit
          split
          · rfl
          · unfold edit
            split
            · rfl
            · rfl
      | _ => rfl

/-- An editor in memory that is not told to refuse anything accepts every batch. -/
theorem accepts_reached {bench after : Workbench} (uri : Text)
    (willing : ∀ isAccepted ∈ bench.accept, isAccepted = true) (reached : Reaches bench after)
    (edits : List Edit) :
    ((MonadEditor.applyEdits uri edits : StateM Workbench Bool).run after).1 = true := by
  change (after.submit uri edits).1 = true
  unfold submit
  split
  · rename_i refused
    have scripted := (reached_continues reached).accept.subset (List.mem_of_mem_head? refused)
    exact absurd (willing false scripted) (by decide)
  · rfl

end Workbench
end PhpNames
