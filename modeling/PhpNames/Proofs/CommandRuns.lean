import PhpNames.Proofs.FaithfulEditor
import PhpNames.Proofs.Scanning

/-!
How commands end in a faithful editor.

A command is run in a state of the editor and ends with a result in another, after some calls, each
a batch that is accepted or refused. `Concludes` says which results go with which calls. Its rules
are those of the steps that commands are made of, so every command is walked through once, here or
where it is imported; what the calls do to the document, to the record of an editor or to a waiting
cursor follows from the trace that comes with them.
-/

namespace PhpNames

open Commands MonadRun

/-! ### Calls -/

structure Call where
  uri : Text
  batch : List Edit
  isAccepted : Bool
  deriving DecidableEq, Repr

namespace Call

def write (document : Document) (call : Call) : Document :=
  if call.isAccepted then document.replaceAll call.batch else document

def acceptedBatches (made : List Call) : List (List Edit) :=
  (made.filter (·.isAccepted)).map (·.batch)

end Call

section Traces

variable {σ : Type} {m : Type → Type} [Monad m] [MonadEditor m] [MonadRun σ m]

/-- The states that an editor can be brought to by these calls for one document, while no classes
but certain ones are looked for. -/
inductive Trace (uri : Text) (looked : Text → Prop) (s : σ) : List Call → σ → Prop where
  | refl : Trace uri looked s [] s
  | ask {α : Type} {made : List Call} {between : σ} (trace : Trace uri looked s made between)
      (request : Request α) (quiet : request.isQuiet = true) :
      Trace uri looked s made (run (request.perform : m α) between).2
  | search {made : List Call} {between : σ} (trace : Trace uri looked s made between) (name : Text)
      (allowed : looked name) :
      Trace uri looked s made (run (MonadEditor.candidateFiles name : m _) between).2
  | submit {made : List Call} {between : σ} (trace : Trace uri looked s made between)
      (batch : List Edit) :
      Trace uri looked s
        (made ++ [⟨uri, batch, (run (MonadEditor.applyEdits uri batch : m _) between).1⟩])
        (run (MonadEditor.applyEdits uri batch : m _) between).2

namespace Trace

variable {uri : Text} {looked : Text → Prop} {s between after : σ} {made more : List Call}

theorem trans (first : Trace uri looked s made between)
    (second : Trace uri looked between more after) : Trace uri looked s (made ++ more) after := by
  induction second with
  | refl =>
      rw [List.append_nil]
      exact first
  | ask _ request quiet induction => exact induction.ask request quiet
  | search _ name allowed induction => exact induction.search name allowed
  | submit _ batch induction =>
      rw [← List.append_assoc]
      exact induction.submit batch

theorem of_questions (asked : Questions s after) : Trace uri looked s [] after := by
  induction asked with
  | refl => exact .refl
  | step _ request quiet induction => exact induction.ask request quiet

theorem reached (trace : Trace uri looked s made after) : Reaches s after := by
  induction trace with
  | refl => exact .refl
  | ask _ request quiet induction => exact induction.step request
  | search _ name allowed induction => exact induction.step (.candidateFiles name)
  | submit _ batch induction => exact induction.step (.applyEdits uri batch)

variable {editor : FaithfulEditor σ uri} {document : Document}

theorem document_map (editor : FaithfulEditor σ uri) (trace : Trace uri looked s made after) :
    (editor.desk after).document = (editor.desk s).document.map (made.foldl Call.write) := by
  induction trace with
  | refl => exact Option.map_id'.symm
  | ask _ request quiet induction => rw [editor.quiet_desk request quiet, induction]
  | search _ name allowed induction => rw [editor.candidateFiles_desk, Desk.lookUp, induction]
  | @submit made between _ batch induction =>
      rw [editor.applyEdits_desk, Desk.settle]
      cases (run (MonadEditor.applyEdits uri batch : m _) between).1 with
      | false => simp [Call.write, induction]
      | true => simp [Call.write, induction, Function.comp_def]

theorem document_eq (trace : Trace uri looked s made after)
    (present : (editor.desk s).document = some document) :
    (editor.desk after).document = some (made.foldl Call.write document) := by
  rw [trace.document_map, present, Option.map_some]

theorem document_kept (editor : FaithfulEditor σ uri) (trace : Trace uri looked s [] after) :
    (editor.desk after).document = (editor.desk s).document :=
  (trace.document_map editor).trans Option.map_id'

theorem accepted_eq (editor : FaithfulEditor σ uri) (trace : Trace uri looked s made after) :
    (editor.desk after).accepted = (editor.desk s).accepted ++ Call.acceptedBatches made := by
  induction trace with
  | refl => exact (List.append_nil _).symm
  | ask _ request quiet induction => rw [editor.quiet_desk request quiet, induction]
  | search _ name allowed induction => rw [editor.candidateFiles_desk, Desk.lookUp, induction]
  | @submit made between _ batch induction =>
      rw [editor.applyEdits_desk, Desk.settle]
      cases (run (MonadEditor.applyEdits uri batch : m _) between).1 with
      | false => simp [Call.acceptedBatches, induction]
      | true => simp [Call.acceptedBatches, induction]

theorem batches_eq {s after : Noted σ} (trace : Trace uri looked s made after) :
    after.batches = s.batches ++ Call.acceptedBatches made := by
  induction trace with
  | refl => exact (List.append_nil _).symm
  | ask _ request quiet induction =>
      rw [run_noting, request.noted_of_quiet quiet, List.append_nil, induction]
  | search _ name allowed induction =>
      rw [candidate_files_noting, induction]
  | @submit made between _ batch induction =>
      rw [apply_edits_noting, induction]
      cases (run (MonadEditor.applyEdits uri batch : m _) between.state).1 with
      | false => simp [Call.acceptedBatches]
      | true => simp [Call.acceptedBatches]

end Trace
end Traces

/-! ### Results and calls -/

namespace Job

variable {σ α β : Type} {m : Type → Type} [Monad m] [MonadEditor m] [MonadRun σ m]

/-- A job that ends as `post` says: with this result, after these calls. -/
def Concludes (uri : Text) (looked : Text → Prop) (job : Job σ α) (s : σ)
    (post : Except ResolveError α → List Call → Prop) : Prop :=
  ∃ made, Trace uri looked s made (job.ends s).2 ∧ post (job.ends s).1 made

variable {uri : Text} {looked : Text → Prop} {s : σ}
  {post : Except ResolveError β → List Call → Prop}

theorem concludes_bind {job : Job σ α} {next : α → Job σ β}
    {first : Except ResolveError α → List Call → Prop}
    (concludes : job.Concludes uri looked s first)
    (failed : ∀ error made, first (.error error) made → post (.error error) made)
    (continued : ∀ a made after, Trace uri looked s made after → first (.ok a) made →
      (next a).Concludes uri looked after fun result more => post result (made ++ more)) :
    Concludes uri looked (job >>= next) s post := by
  obtain ⟨made, trace, holds⟩ := concludes
  unfold Concludes
  rw [ends_bind]
  generalize job.ends s = ended at trace holds ⊢
  obtain ⟨error | a, between⟩ := ended
  · exact ⟨made, trace, failed error made holds⟩
  · obtain ⟨more, further, holdsMore⟩ := continued a made between trace holds
    exact ⟨made ++ more, trace.trans further, holdsMore⟩

theorem concludes_mono {job : Job σ β} {stronger : Except ResolveError β → List Call → Prop}
    (concludes : job.Concludes uri looked s stronger)
    (implies : ∀ result made, stronger result made → post result made) :
    job.Concludes uri looked s post := by
  obtain ⟨made, trace, holds⟩ := concludes
  exact ⟨made, trace, implies _ _ holds⟩

theorem concludes_of_ends {job : Job σ β} {result : Except ResolveError β} {after : σ}
    (ended : job.ends s = (result, after)) (trace : Trace uri looked s [] after)
    (holds : post result []) : job.Concludes uri looked s post := by
  unfold Concludes
  rw [ended]
  exact ⟨[], trace, holds⟩

theorem concludes_pure {a : β} (holds : post (.ok a) []) :
    Concludes uri looked (pure a) s post :=
  concludes_of_ends (ends_pure a s) .refl holds

theorem concludes_ask {question : m α} {next : α → Job σ β} (asks : Asks σ question)
    (continued : ∀ answer after, run question s = (answer, after) →
      Trace uri looked s [] after → (next answer).Concludes uri looked after post) :
    Concludes uri looked (liftM question >>= next) s post := by
  have unchanged : Trace uri looked s [] (run question s).2 := .of_questions (asks s)
  unfold Concludes
  rw [ends_bind, ends_ask]
  obtain ⟨made, trace, holds⟩ := continued _ _ rfl unchanged
  exact ⟨made, unchanged.trans trace, holds⟩

theorem concludes_except {result : Except ResolveError α} {next : α → Job σ β}
    (failed : ∀ error, result = .error error → post (.error error) [])
    (continued : ∀ a, result = .ok a → (next a).Concludes uri looked s post) :
    Concludes uri looked (liftM result >>= next) s post := by
  unfold Concludes
  rw [ends_bind, ends_except]
  cases result with
  | error error => exact ⟨[], .refl, failed error rfl⟩
  | ok a => exact continued a rfl

end Job

namespace FaithfulEditor

open Job

variable {σ : Type} {m : Type → Type} [Monad m] [MonadEditor m] [MonadRun σ m] {uri : Text}
  {editor : FaithfulEditor σ uri} {looked : Text → Prop} {s : σ} {document : Document}

theorem concludes_lines_of {β : Type} {next : List Text → Job σ β}
    {post : Except ResolveError β → List Call → Prop}
    (unopened : (editor.desk s).document = none → post (.error .noSelection) [])
    (opened : ∀ document, (editor.desk s).document = some document →
      (next document.lines).Concludes uri looked s post) :
    Concludes uri looked (linesOf uri >>= next) s post := by
  unfold Concludes
  rw [ends_bind]
  cases found : (editor.desk s).document with
  | none =>
      rw [ends_lines_of_absent found]
      exact ⟨[], .refl, unopened found⟩
  | some document =>
      rw [ends_lines_of found]
      exact opened document found

inductive Hands (uri : Text) : Option (List Edit) → Except ResolveError Unit → List Call → Prop
  | nothing : Hands uri none (.ok ()) []
  | accepted (batch : List Edit) : Hands uri (some batch) (.ok ()) [⟨uri, batch, true⟩]
  | refused (batch : List Edit) :
      Hands uri (some batch) (.error .editRejected) [⟨uri, batch, false⟩]

namespace Hands

variable {batch : Option (List Edit)} {result : Except ResolveError Unit} {made : List Call}

theorem succeeds_or_refused (hands : Hands uri batch result made) :
    (result = .ok () ∧ made.length ≤ 1 ∧
        ∀ call ∈ made, call.uri = uri ∧ call.isAccepted = true) ∨
      (result = .error .editRejected ∧
        ∃ refused, batch = some refused ∧ made = [⟨uri, refused, false⟩]) := by
  cases hands with
  | nothing => exact .inl ⟨rfl, by simp, by simp⟩
  | accepted batch => exact .inl ⟨rfl, by simp, by simp⟩
  | refused batch => exact .inr ⟨rfl, batch, rfl, rfl⟩

theorem written_of_ok (hands : Hands uri batch (.ok ()) made) (document : Document) :
    made.foldl Call.write document = batch.elim document document.replaceAll := by
  cases hands with
  | nothing => rfl
  | accepted batch => rfl

end Hands

theorem concludes_submit (s : σ) (uri : Text) (batch : List Edit) :
    Concludes uri looked (submit uri batch) s (Hands uri (some batch)) := by
  have trace : Trace uri looked s _ _ := Trace.refl.submit batch
  unfold Concludes
  rw [ends_submit]
  generalize run (MonadEditor.applyEdits uri batch : m _) s = decision at trace ⊢
  obtain ⟨isAccepted, after⟩ := decision
  cases isAccepted with
  | true => exact ⟨_, trace, .accepted batch⟩
  | false => exact ⟨_, trace, .refused batch⟩

def handOver (uri : Text) : Option (List Edit) → Job σ Unit
  | none => pure ()
  | some batch => submit uri batch

theorem concludes_hand_over (s : σ) (uri : Text) (batch : Option (List Edit)) :
    Concludes uri looked (handOver uri batch) s (Hands uri batch) := by
  cases batch with
  | none => exact concludes_pure .nothing
  | some batch => exact concludes_submit s uri batch

end FaithfulEditor

/-! ### Sorting -/

theorem UseStatement.sort_error {policy : SortPolicy} {uses : List UseStatement}
    {error : ResolveError} (failed : sort policy uses = .error error) :
    error = .nothingToSort ∧ uses.length < 2 := by
  unfold sort at failed
  split at failed
  · rename_i few
    exact ⟨(Except.error.inj failed).symm, few⟩
  · cases failed

/-- A document after sorting. There is a batch only if the order changes. -/
def Document.resorted (document : Document) (uses sorted : List UseStatement) : Document :=
  if sorted = uses then document else document.replaceAll (UseStatement.sortEdits uses sorted)

namespace Document

def sortBatch? (document : Document) (policy : SortPolicy) : Option (List Edit) :=
  match Block.scan document.lines none with
  | .error _ => none
  | .ok block =>
      match UseStatement.sort policy block.uses with
      | .error _ => none
      | .ok sorted =>
          if sorted = block.uses then none else some (UseStatement.sortEdits block.uses sorted)

variable {document : Document} {policy : SortPolicy} {block : Block} {sorted : List UseStatement}

theorem sort_batch?_eq (scanned : Block.scan document.lines none = .ok block)
    (result : UseStatement.sort policy block.uses = .ok sorted) :
    document.sortBatch? policy =
      if sorted = block.uses then none else some (UseStatement.sortEdits block.uses sorted) := by
  rw [sortBatch?, scanned]
  dsimp only
  rw [result]

theorem sort_batch?_of_error {error : ResolveError}
    (scanned : Block.scan document.lines none = .ok block)
    (failed : UseStatement.sort policy block.uses = .error error) :
    document.sortBatch? policy = none := by
  rw [sortBatch?, scanned]
  dsimp only
  rw [failed]

theorem sort_batch?_elim (scanned : Block.scan document.lines none = .ok block)
    (result : UseStatement.sort policy block.uses = .ok sorted) :
    (document.sortBatch? policy).elim document document.replaceAll =
      document.resorted block.uses sorted := by
  rw [sort_batch?_eq scanned result, resorted]
  split
  · rfl
  · rfl

theorem exists_of_sort_batch {batch : List Edit}
    (sorting : document.sortBatch? policy = some batch) :
    ∃ block sorted, Block.scan document.lines none = .ok block ∧
      UseStatement.sort policy block.uses = .ok sorted ∧
      batch = UseStatement.sortEdits block.uses sorted ∧
      document.replaceAll batch = document.resorted block.uses sorted := by
  have scanned := Block.scan_none document.lines
  cases result : UseStatement.sort policy (Block.shownBy (document.lines.take
      (Block.window document.lines))).uses with
  | error error =>
      rw [sort_batch?_of_error scanned result] at sorting
      cases sorting
  | ok sorted =>
      have written := sort_batch?_elim scanned result
      rw [sorting] at written
      rw [sort_batch?_eq scanned result] at sorting
      split at sorting
      · cases sorting
      · exact ⟨_, sorted, scanned, result, (Option.some.inj sorting).symm, written⟩

def followUp? (document : Document) (settings : Settings) : Option (List Edit) :=
  if settings.autoSort then document.sortBatch? settings.sortPolicy else none

theorem sort_batch_of_follow_up {settings : Settings} {batch : List Edit}
    (due : document.followUp? settings = some batch) :
    settings.autoSort = true ∧ document.sortBatch? settings.sortPolicy = some batch := by
  unfold followUp? at due
  split at due
  · rename_i automatic
    exact ⟨automatic, due⟩
  · cases due

def followedUp (document : Document) (settings : Settings) : Document :=
  (document.followUp? settings).elim document document.replaceAll

theorem followed_up_cases (document : Document) (settings : Settings) :
    document.followedUp settings = document ∨
      settings.autoSort = true ∧ ∃ block sorted,
        Block.scan document.lines none = .ok block ∧
        UseStatement.sort settings.sortPolicy block.uses = .ok sorted ∧
        document.followedUp settings = document.resorted block.uses sorted := by
  unfold followedUp
  cases due : document.followUp? settings with
  | none => exact .inl rfl
  | some batch =>
      obtain ⟨automatic, sorting⟩ := sort_batch_of_follow_up due
      obtain ⟨block, sorted, scanned, result, -, resorted_eq⟩ := exists_of_sort_batch sorting
      exact .inr ⟨automatic, block, sorted, scanned, result, resorted_eq⟩

end Document

namespace FaithfulEditor

open Job

variable {σ : Type} {m : Type → Type} [Monad m] [MonadEditor m] [MonadRun σ m] {uri : Text}
  {editor : FaithfulEditor σ uri} {looked : Text → Prop} {s between : σ} {document : Document}

/-- What the settings are when they are asked for. -/
def settingsAt (s : σ) : Settings :=
  (run (MonadEditor.settings : m Settings) s).1

def askedSettings (s : σ) : σ :=
  (run (MonadEditor.settings : m Settings) s).2

theorem run_settings (s : σ) :
    run (MonadEditor.settings : m Settings) s = (settingsAt s, askedSettings s) :=
  rfl

/-- What the settings are for the sorting after an import, which asks for them twice: whether to
sort at all, and in which order. -/
def settingsToSort (s : σ) : Settings :=
  { settingsAt (askedSettings s) with autoSort := (settingsAt s).autoSort }

theorem questions_settings (s : σ) : Questions s (askedSettings s) :=
  .step .refl .settings rfl

theorem keeps_settings (s : σ) : editor.Keeps s (askedSettings s) :=
  keeps_of_questions (questions_settings s)

inductive SortEnd (editor : FaithfulEditor σ uri) (s : σ) :
    Except ResolveError Unit → List Call → Prop
  | unopened (unopened : (editor.desk s).document = none) :
      SortEnd editor s (.error .noSelection) []
  | nothingToSort {document : Document} {block : Block}
      (opened : (editor.desk s).document = some document)
      (scanned : Block.scan document.lines none = .ok block) (few : block.uses.length < 2) :
      SortEnd editor s (.error .nothingToSort) []
  | handed {document : Document} {block : Block} {sorted : List UseStatement}
      {result : Except ResolveError Unit} {made : List Call}
      (opened : (editor.desk s).document = some document)
      (scanned : Block.scan document.lines none = .ok block)
      (sorts : UseStatement.sort (settingsAt s).sortPolicy block.uses = .ok sorted)
      (hands : Hands uri (document.sortBatch? (settingsAt s).sortPolicy) result made) :
      SortEnd editor s result made

/-- Sorting asks for the settings and, if there is something to sort, hands over the batch that
they ask for. -/
theorem ends_sort_imports {block : Block} (present : (editor.desk s).document = some document)
    (scanned : Block.scan document.lines none = .ok block) :
    ends (sortImports uri : Job σ Unit) s =
      match UseStatement.sort (settingsAt s).sortPolicy block.uses with
      | .error error => (.error error, askedSettings s)
      | .ok _ =>
          ends (handOver uri (document.sortBatch? (settingsAt s).sortPolicy))
            (askedSettings s) := by
  rw [sortImports, ends_bind, ends_lines_of present]
  dsimp only
  rw [ends_bind, ends_except, scanned]
  dsimp only
  rw [ends_bind, ends_ask, run_settings]
  dsimp only
  rw [ends_bind, ends_except]
  cases sorts : UseStatement.sort (settingsAt s).sortPolicy block.uses with
  | error error => rfl
  | ok sorted =>
      dsimp only
      rw [Document.sort_batch?_eq scanned sorts]
      by_cases same : sorted = block.uses
      · rw [if_neg (not_not.mpr same), if_pos same]
        rfl
      · rw [if_pos same, if_neg same]
        rfl

theorem concludes_sort_imports (editor : FaithfulEditor σ uri) (s : σ) :
    Concludes uri looked (sortImports uri) s (SortEnd editor s) := by
  cases shown : (editor.desk s).document with
  | none =>
      refine ⟨[], ?_, ?_⟩ <;> rw [sortImports, ends_bind, ends_lines_of_absent shown]
      · exact .refl
      · exact .unopened shown
  | some document =>
      have scanned := Block.scan_none document.lines
      have asked : Trace uri looked s [] (askedSettings s) := .of_questions (questions_settings s)
      unfold Concludes
      rw [ends_sort_imports shown scanned]
      split
      · rename_i failed
        obtain ⟨rfl, few⟩ := UseStatement.sort_error failed
        exact ⟨[], asked, .nothingToSort shown scanned few⟩
      · rename_i sorts
        obtain ⟨made, trace, hands⟩ := concludes_hand_over (askedSettings s) uri
          (document.sortBatch? (settingsAt s).sortPolicy)
        exact ⟨made, asked.trans trace, .handed shown scanned sorts hands⟩

section SortEnd

variable {block : Block} {result : Except ResolveError Unit} {made : List Call}
  (present : (editor.desk s).document = some document)
  (scanned : Block.scan document.lines none = .ok block)

include present scanned

theorem SortEnd.of_present (ended : SortEnd editor s result made) :
    result = .error .nothingToSort ∧ block.uses.length < 2 ∨
      ∃ sorted, UseStatement.sort (settingsAt s).sortPolicy block.uses = .ok sorted ∧
        Hands uri (document.sortBatch? (settingsAt s).sortPolicy) result made := by
  cases ended with
  | unopened unopened =>
      rw [present] at unopened
      cases unopened
  | @nothingToSort shown read opened rescanned few =>
      obtain rfl : document = shown := Option.some.inj (present.symm.trans opened)
      obtain rfl : block = read := Except.ok.inj (scanned.symm.trans rescanned)
      exact .inl ⟨rfl, few⟩
  | @handed shown read sorted _ _ opened rescanned sorts hands =>
      obtain rfl : document = shown := Option.some.inj (present.symm.trans opened)
      obtain rfl : block = read := Except.ok.inj (scanned.symm.trans rescanned)
      exact .inr ⟨sorted, sorts, hands⟩

theorem SortEnd.resorted {after : σ} (ended : SortEnd editor s (.ok ()) made)
    (trace : Trace uri looked s made after) :
    ∃ sorted, UseStatement.sort (settingsAt s).sortPolicy block.uses = .ok sorted ∧
      (editor.desk after).document = some (document.resorted block.uses sorted) := by
  rcases ended.of_present present scanned with ⟨failed, -⟩ | ⟨sorted, sorts, hands⟩
  · cases failed
  · refine ⟨sorted, sorts, ?_⟩
    rw [trace.document_eq present, hands.written_of_ok, Document.sort_batch?_elim scanned sorts]

end SortEnd

/-- Sorting after an import takes having nothing to sort for success. -/
theorem ends_auto_sort (present : (editor.desk s).document = some document) :
    ends (autoSort uri : Job σ Unit) s =
      ends (handOver uri (document.followUp? (settingsToSort s)))
        (if (settingsAt s).autoSort then askedSettings (askedSettings s) else askedSettings s) := by
  have scanned := Block.scan_none document.lines
  have presentStill : (editor.desk (askedSettings s)).document = some document := by
    rw [(keeps_settings s).desk_eq, present]
  have policy_eq : (settingsToSort s).sortPolicy = (settingsAt (askedSettings s)).sortPolicy := rfl
  have automatic_eq : (settingsToSort s).autoSort = (settingsAt s).autoSort := rfl
  rw [autoSort, ends_bind, ends_ask, run_settings, Document.followUp?, automatic_eq]
  dsimp only
  by_cases automatic : (settingsAt s).autoSort = true
  · rw [if_pos automatic, if_pos automatic, if_pos automatic, ends_try_catch,
      ends_sort_imports presentStill scanned, policy_eq]
    cases sorts : UseStatement.sort (settingsAt (askedSettings s)).sortPolicy
        (Block.shownBy (document.lines.take (Block.window document.lines))).uses with
    | error error =>
        obtain ⟨rfl, -⟩ := UseStatement.sort_error sorts
        rw [Document.sort_batch?_of_error scanned sorts]
        rfl
    | ok sorted =>
        -- what is handed over fails only by being refused, which is passed on
        generalize document.sortBatch? (settingsAt (askedSettings s)).sortPolicy = batch
        obtain ⟨_, -, hands⟩ : Concludes uri (fun _ => False) (handOver uri batch) _ _ :=
          concludes_hand_over (askedSettings (askedSettings s)) uri batch
        generalize ends (handOver uri batch : Job σ Unit) _ = ended at hands ⊢
        obtain ⟨result, after⟩ := ended
        cases hands with
        | nothing => rfl
        | accepted batch => rfl
        | refused batch => exact ends_throw _ after
  · rw [if_neg automatic, if_neg automatic, if_neg automatic]
    rfl

def Told (s : σ) (settings : Settings) : Prop :=
  ∃ asked, Reaches s asked ∧ settings = settingsToSort asked

theorem Told.earlier {settings : Settings} (told : Told between settings)
    (reached : Reaches s between) : Told s settings := by
  obtain ⟨asked, further, settings_eq⟩ := told
  exact ⟨asked, reached.trans further, settings_eq⟩

def Follows (s : σ) (uri : Text) (document : Document) (result : Except ResolveError Unit)
    (made : List Call) : Prop :=
  ∃ settings, Told s settings ∧ Hands uri (document.followUp? settings) result made

theorem concludes_auto_sort (present : (editor.desk s).document = some document) :
    Concludes uri looked (autoSort uri) s (Follows s uri document) := by
  have asked : Trace uri looked s []
      (if (settingsAt s).autoSort then askedSettings (askedSettings s) else askedSettings s) := by
    split
    · exact .of_questions ((questions_settings s).trans (questions_settings _))
    · exact .of_questions (questions_settings s)
  unfold Concludes
  rw [ends_auto_sort present]
  generalize (if (settingsAt s).autoSort = true then _ else _) = later at asked ⊢
  obtain ⟨made, trace, hands⟩ :=
    concludes_hand_over later uri (document.followUp? (settingsToSort s))
  exact ⟨made, asked.trans trace, _, ⟨s, .refl, rfl⟩, hands⟩

theorem concludes_finish_import (present : (editor.desk s).document = some document) :
    Concludes uri looked (finishImport uri) s (Follows s uri document) := by
  apply concludes_bind (concludes_auto_sort present)
  · intro error made follows
    exact follows
  · intro _ made between _ follows
    apply concludes_of_ends (ends_ask _ between)
    · exact .of_questions (asks_show_message importedMessage false between)
    · rw [List.append_nil]
      exact follows

end FaithfulEditor
end PhpNames
