import Mathlib.Data.List.Induction
import PhpNames.Proofs.Batches
import PhpNames.Proofs.FaithfulEditor
import PhpNames.Proofs.WholeWords

/-!
Expanding the classes under several cursors.

The cursors are served one after the other, and every replacement moves the words that still wait.
The outcome is nevertheless that of replacing all words at once in the text as it was at first. What
carries the proof from one cursor to the next is `Waiting`: a word that has not been served stands
where replacing the served ones at once puts it, and its cursor has been moved there.
-/

namespace PhpNames

open Text Word Position

/-! ### Words that wait -/

theorem Position.shift_all_add (position : Position) (batches : List (List Edit)) (edit : Edit) :
    position.shiftAll (batches ++ [[edit]]) = (position.shiftAll batches).shiftOne edit := by
  simp [shiftAll, shift, Edit.bottomUp, StableSort.sort, StableSort.insert]

namespace Splice

def Spares (splices : List Splice) (start stop : Nat) : Prop :=
  ∀ splice ∈ splices, splice.start ≤ splice.stop ∧ splice.Apart ⟨start, stop, []⟩

variable {splices : List Splice} {before word : Text}

theorem Spares.walk_eq (spared : Spares splices before.length (before ++ word).length) :
    walk splices 0 (before ++ word) = walk splices 0 before ++ word :=
  walk_through (fun other member => (spared other member).1)
    (fun other member => (spared other member).2) rfl rfl

theorem Spares.at_once_eq (spared : Spares splices before.length (before ++ word).length)
    (after : Text) :
    atOnce splices (before ++ word ++ after) =
      walk splices 0 before ++ word ++ finish splices (before ++ word).length after := by
  rw [atOnce, finish_append, spared.walk_eq, Nat.zero_add]

theorem Spares.at_once_add_eq (spared : Spares splices before.length (before ++ word).length)
    {splice : Splice} (start_eq : splice.start = before.length)
    (stop_eq : splice.stop = (before ++ word).length) (after : Text) :
    atOnce (splices ++ [splice]) (before ++ word ++ after) =
      walk splices 0 before ++ splice.text ++
        finish splices (before ++ word).length after := by
  have ordered : ∀ other ∈ splices, other.start ≤ other.stop :=
    fun other member => (spared other member).1
  have apart : ∀ other ∈ splices, other.Apart splice := by
    intro other member
    have sides := (spared other member).2
    simp only [Apart] at sides ⊢
    rwa [start_eq, stop_eq]
  rw [at_once_add ordered apart after start_eq stop_eq, stop_eq]

theorem Spares.add {start stop : Nat} (spared : Spares splices start stop) {splice : Splice}
    (ordered : splice.start ≤ splice.stop) (apart : splice.Apart ⟨start, stop, []⟩) :
    Spares (splices ++ [splice]) start stop := by
  intro other member
  rcases List.mem_append.mp member with earlier | last
  · exact spared other earlier
  · rw [List.mem_singleton.mp last]
    exact ⟨ordered, apart⟩

end Splice

/-- A word of a text that some replacements leave alone, where they put it, with its cursor. -/
structure Waiting (text : Text) (splices : List Splice) (batches : List (List Edit))
    (position : Position) (word : Word) (before after : Text) : Prop where
  split : text = before ++ word.text ++ after
  spared : Splice.Spares splices before.length (before ++ word.text).length
  stands : Stands (Splice.walk splices 0 before) word.text
    (Splice.finish splices (before ++ word.text).length after)
  moved : position.shiftAll batches =
    endOf (Splice.walk splices 0 before ++ word.text.take (position.column - word.start))

namespace Waiting

variable {text : Text} {splices : List Splice} {batches : List (List Edit)}
  {position otherPosition : Position} {word otherWord : Word}
  {before after otherBefore otherAfter gap : Text}

theorem at_once_eq (waiting : Waiting text splices batches position word before after) :
    Splice.atOnce splices text = Splice.walk splices 0 before ++ word.text ++
      Splice.finish splices (before ++ word.text).length after := by
  rw [waiting.split, waiting.spared.at_once_eq]

/-- Two waiting words keep their order, and something in between. -/
theorem exists_between (first : Waiting text splices batches position word before after)
    (second : Waiting text splices batches otherPosition otherWord otherBefore otherAfter)
    (behind : otherBefore = before ++ word.text ++ gap) :
    ∃ between, between ≠ [] ∧
      Splice.walk splices 0 otherBefore =
        Splice.walk splices 0 before ++ word.text ++ between ∧
      Splice.finish splices (before ++ word.text).length after = between ++ otherWord.text ++
        Splice.finish splices (otherBefore ++ otherWord.text).length otherAfter := by
  have longer : (Splice.walk splices 0 before).length + word.text.length ≤
      (Splice.walk splices 0 otherBefore).length := by
    rw [behind, Splice.walk_append, first.spared.walk_eq]
    simp only [List.length_append]
    omega
  have nonempty := List.length_pos_iff.mpr first.stands.nonempty
  rcases first.stands.same_or_behind second.stands
    (first.at_once_eq.symm.trans second.at_once_eq) (by omega) with ⟨same, -, -⟩ | found
  · rw [same] at longer
    omega
  · exact found

variable {edit : Edit} {splice : Splice}

/-- A word behind the one that is replaced goes on waiting. -/
theorem step_behind (served : Waiting text splices batches position word before after)
    (waits : Waiting text splices batches otherPosition otherWord otherBefore otherAfter)
    (behind : otherBefore = before ++ word.text ++ gap)
    (fits : edit.Fits (Splice.walk splices 0 before) word.text
      (Splice.finish splices (before ++ word.text).length after))
    (start_eq : splice.start = before.length)
    (stop_eq : splice.stop = (before ++ word.text).length) (text_eq : splice.text = edit.text) :
    Waiting text (splices ++ [splice]) (batches ++ [[edit]]) otherPosition otherWord otherBefore
      otherAfter := by
  obtain ⟨between, nonempty, walked, finished⟩ := served.exists_between waits behind
  have positive := List.length_pos_iff.mpr served.stands.nonempty
  have started : splice.start < otherBefore.length := by
    simp only [start_eq, behind, List.length_append]
    omega
  have stopped : splice.stop ≤ otherBefore.length := by
    simp only [stop_eq, behind, List.length_append]
    omega
  have ordered : splice.start ≤ splice.stop := by
    simp only [start_eq, stop_eq, List.length_append]
    omega
  have spared := waits.spared.add ordered ⟨Or.inl stopped, started.ne⟩
  have finish_eq : Splice.finish (splices ++ [splice]) (otherBefore ++ otherWord.text).length
      otherAfter = Splice.finish splices (otherBefore ++ otherWord.text).length otherAfter := by
    apply Splice.finish_add_beyond
    · simp only [List.length_append]
      omega
    · simp only [List.length_append]
      omega
  have walk_eq : Splice.walk (splices ++ [splice]) 0 otherBefore =
      Splice.walk splices 0 before ++ edit.text ++ between := by
    have newText := served.spared.at_once_add_eq start_eq stop_eq after
    rw [← served.split, waits.split, spared.at_once_eq, finish_eq, finished, text_eq,
      ← List.append_assoc, ← List.append_assoc, List.append_left_inj,
      List.append_left_inj] at newText
    exact newText
  refine ⟨waits.split, spared, ?_, ?_⟩
  · have stands := waits.stands
    rw [walked] at stands
    rw [walk_eq, finish_eq]
    exact stands.shed_left.widen_left fun empty => absurd empty nonempty
  · rw [shift_all_add, waits.moved, walked, List.append_assoc _ between, fits.shift_one_behind,
      walk_eq, List.append_assoc _ between]

/-- A word in front of the one that is replaced goes on waiting. -/
theorem step_ahead (served : Waiting text splices batches position word before after)
    (waits : Waiting text splices batches otherPosition otherWord otherBefore otherAfter)
    (ahead : before = otherBefore ++ otherWord.text ++ gap)
    (fits : edit.Fits (Splice.walk splices 0 before) word.text
      (Splice.finish splices (before ++ word.text).length after))
    (start_eq : splice.start = before.length)
    (stop_eq : splice.stop = (before ++ word.text).length) (text_eq : splice.text = edit.text) :
    Waiting text (splices ++ [splice]) (batches ++ [[edit]]) otherPosition otherWord otherBefore
      otherAfter := by
  obtain ⟨between, nonempty, walked, finished⟩ := waits.exists_between served ahead
  have positive := List.length_pos_iff.mpr waits.stands.nonempty
  have started : (otherBefore ++ otherWord.text).length ≤ splice.start := by
    simp only [start_eq, ahead, List.length_append]
    omega
  have different : splice.start ≠ otherBefore.length := by
    simp only [List.length_append] at started
    omega
  have ordered : splice.start ≤ splice.stop := by
    simp only [start_eq, stop_eq, List.length_append]
    omega
  have spared := waits.spared.add ordered ⟨Or.inr started, different⟩
  have walk_eq : Splice.walk (splices ++ [splice]) 0 otherBefore =
      Splice.walk splices 0 otherBefore := by
    apply Splice.walk_add_outside
    simp only [List.length_append] at started
    omega
  have finish_eq : Splice.finish (splices ++ [splice]) (otherBefore ++ otherWord.text).length
      otherAfter =
        between ++ edit.text ++ Splice.finish splices (before ++ word.text).length after := by
    have newText := served.spared.at_once_add_eq start_eq stop_eq after
    rw [← served.split, waits.split, spared.at_once_eq, walk_eq, walked, text_eq] at newText
    simp only [List.append_assoc, List.append_cancel_left_eq] at newText ⊢
    exact newText
  refine ⟨waits.split, spared, ?_, ?_⟩
  · have stands := waits.stands
    rw [finished, List.append_assoc] at stands
    rw [walk_eq, finish_eq, List.append_assoc]
    exact stands.shed_right.widen_right fun empty => absurd empty nonempty
  · have split : Splice.walk splices 0 before =
        Splice.walk splices 0 otherBefore ++
            otherWord.text.take (otherPosition.column - otherWord.start) ++
          (otherWord.text.drop (otherPosition.column - otherWord.start) ++ between) := by
      rw [walked, ← List.append_assoc, List.append_assoc _ (otherWord.text.take _),
        List.take_append_drop]
    rw [shift_all_add, waits.moved, fits.shift_one_ahead split (by simp [nonempty]), walk_eq]

/-- A word other than the one that is replaced goes on waiting. -/
theorem step (served : Waiting text splices batches position word before after)
    (waits : Waiting text splices batches otherPosition otherWord otherBefore otherAfter)
    (stands : Stands before word.text after)
    (otherStands : Stands otherBefore otherWord.text otherAfter)
    (different : ¬(before = otherBefore ∧ word.text = otherWord.text))
    (fits : edit.Fits (Splice.walk splices 0 before) word.text
      (Splice.finish splices (before ++ word.text).length after))
    (start_eq : splice.start = before.length)
    (stop_eq : splice.stop = (before ++ word.text).length) (text_eq : splice.text = edit.text) :
    Waiting text (splices ++ [splice]) (batches ++ [[edit]]) otherPosition otherWord otherBefore
      otherAfter := by
  rcases stands.same_or_apart otherStands (served.split.symm.trans waits.split) with
    ⟨sameBefore, sameWord, -⟩ | ⟨gap, -, behind, -⟩ | ⟨gap, -, ahead, -⟩
  · exact absurd ⟨sameBefore, sameWord⟩ different
  · exact served.step_behind waits behind fits start_eq stop_eq text_eq
  · exact served.step_ahead waits ahead fits start_eq stop_eq text_eq

/-- Replacing the word in the text as it is now is replacing one word more at once. -/
theorem replace_all_eq (served : Waiting text splices batches position word before after)
    (fits : edit.Fits (Splice.walk splices 0 before) word.text
      (Splice.finish splices (before ++ word.text).length after))
    (start_eq : splice.start = before.length)
    (stop_eq : splice.stop = (before ++ word.text).length) (text_eq : splice.text = edit.text) :
    Document.replaceAll ⟨Splice.atOnce splices text⟩ [edit] =
        ⟨Splice.atOnce (splices ++ [splice]) text⟩ ∧
      Plain (Splice.atOnce (splices ++ [splice]) text) := by
  have newText := served.spared.at_once_add_eq start_eq stop_eq after
  rw [← served.split, text_eq] at newText
  rw [newText]
  exact ⟨fits.replace_eq served.at_once_eq,
    (fits.before_plain.append fits.text_plain).append fits.after_plain⟩

theorem start {document : Document} (touched : document.WordAt position word before after) :
    Waiting document.text [] [] position word before after := by
  refine ⟨touched.split, by simp [Splice.Spares], ?_, ?_⟩
  · rw [Splice.walk_nil, Splice.finish_nil]
    exact touched.stands
  · have starts := touched.starts
    have stops := touched.stops
    have stop_eq := touched.stop_eq
    rw [Splice.walk_nil, touched.end_of_take _ (by omega), Nat.add_sub_cancel' starts]
    rfl

/-- The cursor of a waiting word touches it. -/
theorem exists_word_at (waiting : Waiting text splices batches position word before after)
    (within : position.column - word.start ≤ word.text.length) :
    ∃ found : Word, found.text = word.text ∧
      Document.WordAt ⟨Splice.atOnce splices text⟩ (position.shiftAll batches) found
        (Splice.walk splices 0 before)
        (Splice.finish splices (before ++ word.text).length after) := by
  have there : Document.WordAt ⟨Splice.atOnce splices text⟩ _ _ _ _ :=
    Document.word_at_take waiting.at_once_eq waiting.stands within
  rw [waiting.moved]
  refine ⟨_, ?_, there⟩
  rfl

end Waiting

/-! ### One cursor -/

namespace Job

variable {σ α β : Type}

def unnoted (job : Job σ α) : Job (Noted σ) α :=
  ExceptT.mk (StateT.lift job.run)

theorem ends_unnoted (job : Job σ α) (s : Noted σ) :
    ends job.unnoted s = ((job.ends s.state).1, ⟨s.batches, (job.ends s.state).2⟩) :=
  run_lift job.run s

theorem lift_bind (first : StateM σ α) (next : α → StateM σ β) :
    (StateT.lift (first >>= next) : Noting (StateM σ) β) =
      StateT.lift first >>= fun a => StateT.lift (next a) :=
  rfl

theorem unnoted_bind (first : Job σ α) (next : α → Job σ β) :
    unnoted (first >>= next) = first.unnoted >>= fun a => (next a).unnoted := by
  apply ExceptT.ext
  rw [unnoted, ExceptT.run_mk, ExceptT.run_bind, lift_bind, ExceptT.run_bind]
  congr 1
  funext outcome
  cases outcome <;> rfl

end Job

namespace Commands

open Job

section Expansion

variable {m : Type → Type} [Monad m] [MonadEditor m]

/-- The full name that is picked, after a separator if the settings ask for one. There is none if
the user declines. -/
def pickExpansion (candidates : Candidates) : m (Option Text) := do
  match ← pickName candidates with
  | none => return none
  | some full =>
      let separator := if (← MonadEditor.settings).leadingSeparator then ['\\'] else []
      return some (separator ++ full)

def expansionOf (name : Text) : ExceptT ResolveError m (Option Text) := do
  (pickExpansion (← findCandidates name) : m _)

end Expansion

variable {σ : Type} [MonadEditor (StateM σ)]

theorem pick_name_noting (candidates : Candidates) :
    (pickName candidates : Noting (StateM σ) (Option Text)) =
      StateT.lift (pickName candidates) := by
  unfold pickName
  cases candidates.single? <;> rfl

theorem open_all_noting (paths : List Path) :
    (openAll paths : Noting (StateM σ) (List (List Text))) = StateT.lift (openAll paths) := by
  induction paths with
  | nil => rfl
  | cons path rest induction =>
      rw [openAll, openAll, lift_bind]
      congr 1
      funext found
      cases found with
      | none => exact induction
      | some lines =>
          simp only [induction]
          rfl

theorem find_candidates_noting (name : Text) :
    (findCandidates name : Job (Noted σ) Candidates) = Job.unnoted (findCandidates name) := by
  rw [findCandidates, findCandidates, unnoted_bind]
  congr 1
  funext files
  rw [open_all_noting, unnoted_bind]
  congr 1
  funext documents
  cases Candidates.resolve name documents <;> rfl

theorem expand_at_eq (uri : Text) (position : Position) :
    (expandAt uri position : Job (Noted σ) Outcome) = do
      let word ← wordAt uri position
      match ← Job.unnoted (expansionOf word.text) with
      | none => return .cancelled
      | some text =>
          submit uri [⟨word.range position.line, text⟩]
          return .done := by
  unfold expandAt
  congr 1
  funext word
  rw [expansionOf, unnoted_bind, find_candidates_noting, bind_assoc]
  congr 1
  funext candidates
  rw [pick_name_noting, pickExpansion, liftM_bind, unnoted_bind, bind_assoc]
  congr 1
  funext picked
  cases picked with
  | none => rfl
  | some full =>
      simp only [liftM_bind, unnoted_bind, bind_assoc]
      rfl

theorem asks_pick_expansion (candidates : Candidates) :
    Asks σ (pickExpansion candidates : StateM σ (Option Text)) := by
  apply asks_bind (asks_pick_name candidates)
  intro picked
  cases picked with
  | none => exact asks_pure _
  | some full => exact asks_bind (asks_request .settings rfl) fun settings => asks_pure _

end Commands

namespace FaithfulEditor

open Commands Job

variable {σ : Type} [MonadEditor (StateM σ)] {uri : Text} {editor : FaithfulEditor σ uri}

/-- Finding out what a class name is replaced by is one lookup. -/
theorem expansion_of_desk (name : Text) (s : σ) :
    Reaches s (ends (expansionOf name) s).2 ∧
      editor.desk (ends (expansionOf name) s).2 = (editor.desk s).lookUp name := by
  have files : Reaches s ((MonadEditor.candidateFiles name : StateM σ _).run s).2 :=
    .step .refl (.candidateFiles name)
  have searched := editor.candidateFiles_desk name s
  have opened : editor.Keeps ((MonadEditor.candidateFiles name : StateM σ _).run s).2
      ((openCandidates name : StateM σ _).run s).2 := keeps_of_questions (asks_open_all _ _)
  rw [expansionOf, ends_bind, ends_find_candidates]
  cases Candidates.resolve name (MonadRun.run (openCandidates name : StateM σ _) s).1 with
  | error error => exact ⟨files.trans opened.reached, opened.desk_eq.trans searched⟩
  | ok candidates =>
      have kept : editor.Keeps ((openCandidates name : StateM σ _).run s).2 _ :=
        keeps_of_questions (asks_pick_expansion candidates _)
      exact ⟨(files.trans opened.reached).trans kept.reached,
        kept.desk_eq.trans (opened.desk_eq.trans searched)⟩

end FaithfulEditor

/-! ### All cursors -/

namespace Commands

variable {σ : Type} [MonadEditor (StateM σ)]

/-- What a class name is found to be replaced by when the cursors at `served` have been served. -/
def replyAfter (uri : Text) (s : σ) (served : List Position) (name : Text) :
    Except ResolveError (Option Text) :=
  ((expansionOf name : ExceptT ResolveError (StateM σ) _).run.run
    ((atEach (expandAt uri) [] served : StateM σ Unit).run s).2).1

def Answered : Except ResolveError (Option Text) → Prop
  | .error _ => True
  | .ok none => False
  | .ok (some text) => Unbroken text

/-- Every lookup fails or ends with a name without a line break: no prompt is dismissed. -/
def AllAnswered (uri : Text) (s : σ) (served : List Position) : List (Position × Word) → Prop
  | [] => True
  | (position, word) :: rest =>
      Answered (replyAfter uri s served word.text) ∧
        AllAnswered uri s (served ++ [position]) rest

def editFor (range : Range) : Except ResolveError (Option Text) → List Edit
  | .ok (some text) => [⟨range, text⟩]
  | _ => []

/-- The edits that the cursors ask for, in the document as it is at first. -/
def expansions (uri : Text) (s : σ) (served : List Position) : List (Position × Word) → List Edit
  | [] => []
  | (position, word) :: rest =>
      editFor (word.range position.line) (replyAfter uri s served word.text) ++
        expansions uri s (served ++ [position]) rest

theorem all_answered_append {uri : Text} {s : σ} {served : List Position}
    {front : List (Position × Word)} {position : Position} {word : Word} :
    AllAnswered uri s served (front ++ [(position, word)]) ↔
      AllAnswered uri s served front ∧
        Answered (replyAfter uri s (served ++ front.map (·.1)) word.text) := by
  induction front generalizing served with
  | nil => simp [AllAnswered]
  | cons cursor front induction => simp [AllAnswered, induction, and_assoc]

theorem expansions_append (uri : Text) (s : σ) (served : List Position)
    (front : List (Position × Word)) (position : Position) (word : Word) :
    expansions uri s served (front ++ [(position, word)]) =
      expansions uri s served front ++ editFor (word.range position.line)
        (replyAfter uri s (served ++ front.map (·.1)) word.text) := by
  induction front generalizing served with
  | nil => simp [expansions]
  | cons cursor front induction => simp [expansions, induction, List.append_assoc]

end Commands

namespace FaithfulEditor

open Commands Job

variable {σ : Type} [MonadEditor (StateM σ)] {uri : Text}

/-- What holds when some cursors have been served, by replacing the stretches `splices`. -/
structure Served (editor : FaithfulEditor σ uri) (s : σ) (document : Document)
    (cursors : List (Position × Word)) (splices : List Splice) (noted : List (List Edit))
    (after : σ) : Prop where
  splices_eq : splices = (expansions uri s [] cursors).map document.splice
  passed : (pass (expandAt uri) [] (cursors.map (·.1)) : StateM σ _).run s = (some noted, after)
  reached : Reaches s after
  lookups_eq : (editor.desk after).lookups =
    (editor.desk s).lookups ++ cursors.map (·.2.text)
  document_eq : (editor.desk after).document = some ⟨Splice.atOnce splices document.text⟩
  plain : Plain (Splice.atOnce splices document.text)
  waiting : ∀ position word before rest, document.WordAt position word before rest →
    (∀ cursor ∈ cursors, cursor.2.range cursor.1.line ≠ word.range position.line) →
    Waiting document.text splices noted position word before rest

variable {editor : FaithfulEditor σ uri} {s after : σ} {document : Document}
  {cursors : List (Position × Word)} {splices : List Splice} {noted : List (List Edit)}

theorem served_nil (present : (editor.desk s).document = some document)
    (plain : Plain document.text) : editor.Served s document [] [] [] s where
  splices_eq := rfl
  passed := rfl
  reached := .refl
  lookups_eq := by simp
  document_eq := by simpa using present
  plain := by simpa using plain
  waiting := by
    intro position word before rest touched _
    exact Waiting.start touched

theorem Served.at_each_run (served : editor.Served s document cursors splices noted after) :
    ((atEach (expandAt uri) [] (cursors.map (·.1)) : StateM σ Unit).run s).2 = after := by
  have whole := at_each_append (expandAt uri : _ → Job (Noted σ) Outcome) [] (cursors.map (·.1)) []
  rw [List.append_nil] at whole
  rw [whole, StateT.run_bind, served.passed]
  rfl

theorem Served.reply_after_eq (served : editor.Served s document cursors splices noted after)
    (name : Text) :
    replyAfter uri s (cursors.map (·.1)) name = (ends (expansionOf name) after).1 := by
  rw [replyAfter, served.at_each_run]
  rfl

section Turn

variable {position : Position} {word : Word}

theorem pass_expand_at_failed (present : (editor.desk s).document = some document)
    (touched : document.wordAt? (position.shiftAll noted) = some word) {error : ResolveError}
    (failed : ends (expansionOf word.text) s = (.error error, after)) :
    (pass (expandAt uri) noted [position] : StateM σ _).run s =
      (some noted, ((reportError error : StateM σ Unit).run after).2) := by
  have noting : (editor.noting.desk ⟨[], s⟩).document = some document := present
  rw [pass_cons_run, expand_at_eq, ends_bind, ends_word_at noting, touched]
  dsimp only
  rw [ends_bind, ends_unnoted, failed]
  dsimp only
  rw [List.append_nil]
  rfl

theorem pass_expand_at_found (present : (editor.desk s).document = some document)
    (touched : document.wordAt? (position.shiftAll noted) = some word) {text : Text} {done : σ}
    (found : ends (expansionOf word.text) s = (.ok (some text), after))
    (accepted : (MonadEditor.applyEdits uri
      [⟨word.range (position.shiftAll noted).line, text⟩] : StateM σ Bool).run after =
        (true, done)) :
    (pass (expandAt uri) noted [position] : StateM σ _).run s =
      (some (noted ++ [[⟨word.range (position.shiftAll noted).line, text⟩]]), done) := by
  have noting : (editor.noting.desk ⟨[], s⟩).document = some document := present
  have submitted : MonadRun.run (MonadEditor.applyEdits uri
      [⟨word.range (position.shiftAll noted).line, text⟩] : Noting (StateM σ) Bool)
        (Noted.mk [] after) =
          (true, ⟨[[⟨word.range (position.shiftAll noted).line, text⟩]], done⟩) := by
    rw [apply_edits_noting, run_state, accepted]
    rfl
  rw [pass_cons_run, expand_at_eq, ends_bind, ends_word_at noting, touched]
  dsimp only
  rw [ends_bind, ends_unnoted, found]
  dsimp only
  rw [ends_bind, ends_submit, submitted]
  rfl

variable {before rest : Text}

theorem Served.pass_eq (served : editor.Served s document cursors splices noted after) :
    (pass (expandAt uri) [] ((cursors ++ [(position, word)]).map (·.1)) : StateM σ _).run s =
      (pass (expandAt uri) noted [position] : StateM σ _).run after := by
  rw [List.map_append, pass_append, StateT.run_bind, served.passed]
  rfl

theorem Served.step_failed (served : editor.Served s document cursors splices noted after)
    (touched : document.WordAt position word before rest)
    (different : ∀ cursor ∈ cursors, cursor.2.range cursor.1.line ≠ word.range position.line)
    {error : ResolveError}
    (failed : replyAfter uri s (cursors.map (·.1)) word.text = .error error) :
    ∃ next, editor.Served s document (cursors ++ [(position, word)]) splices noted next := by
  have waiting := served.waiting position word before rest touched different
  obtain ⟨found, text_eq, foundAt⟩ := waiting.exists_word_at touched.reach_le
  have foundAt? := (Document.word_at?_eq_some served.plain).mpr ⟨_, _, foundAt⟩
  obtain ⟨reached, desk_eq⟩ := editor.expansion_of_desk word.text after
  have same : expansions uri s [] (cursors ++ [(position, word)]) =
      expansions uri s [] cursors := by
    simp [expansions_append, failed, editFor]
  rw [served.reply_after_eq] at failed
  generalize looked_eq : ends (expansionOf word.text) after = result at failed reached desk_eq
  obtain ⟨outcome, looked⟩ := result
  obtain rfl : outcome = .error error := failed
  have kept : editor.Keeps looked ((reportError error : StateM σ Unit).run looked).2 :=
    keeps_of_questions (asks_show_message error.message true looked)
  have next_eq := kept.desk_eq.trans desk_eq
  refine ⟨((reportError error : StateM σ Unit).run looked).2, same ▸ served.splices_eq, ?_,
    (served.reached.trans reached).trans kept.reached, ?_, ?_, served.plain, ?_⟩
  · rw [served.pass_eq]
    exact pass_expand_at_failed served.document_eq foundAt? (text_eq ▸ looked_eq)
  · rw [next_eq, Desk.lookUp, served.lookups_eq]
    simp
  · rw [next_eq, Desk.lookUp, served.document_eq]
  · intro otherPosition otherWord otherBefore otherRest otherTouched otherDifferent
    exact served.waiting otherPosition otherWord otherBefore otherRest otherTouched
      fun cursor member => otherDifferent cursor (List.mem_append_left _ member)

theorem exists_accepted (editor : FaithfulEditor σ uri) {edits : List Edit}
    (agreed : ((MonadEditor.applyEdits uri edits : StateM σ Bool).run s).1 = true) :
    ∃ done, (MonadEditor.applyEdits uri edits : StateM σ Bool).run s = (true, done) ∧
      Reaches s done ∧ editor.desk done = (editor.desk s).settle edits true := by
  have settled := editor.applyEdits_desk edits s
  rw [run_state, agreed] at settled
  exact ⟨_, Prod.ext agreed rfl, Reaches.refl.step (.applyEdits uri edits), settled⟩

theorem Served.step_found (served : editor.Served s document cursors splices noted after)
    (documentPlain : Plain document.text)
    (touched : document.WordAt position word before rest)
    (different : ∀ cursor ∈ cursors, cursor.2.range cursor.1.line ≠ word.range position.line)
    (accepts : ∀ state, Reaches s state → ∀ edits,
      ((MonadEditor.applyEdits uri edits : StateM σ Bool).run state).1 = true)
    {text : Text} (unbroken : Unbroken text)
    (reply : replyAfter uri s (cursors.map (·.1)) word.text = .ok (some text)) :
    ∃ further next, editor.Served s document (cursors ++ [(position, word)])
      (splices ++ [document.splice ⟨word.range position.line, text⟩]) further next := by
  have waiting := served.waiting position word before rest touched different
  obtain ⟨found, text_eq, foundAt⟩ := waiting.exists_word_at touched.reach_le
  have foundAt? := (Document.word_at?_eq_some served.plain).mpr ⟨_, _, foundAt⟩
  have fits := foundAt.fits served.plain unbroken.plain
  rw [text_eq] at fits
  obtain ⟨start_eq, stop_eq⟩ :=
    (touched.fits documentPlain unbroken.plain).splice_eq touched.split
  -- the reply was given for the first words alone, so it has to be carried to where they led
  obtain ⟨reached, desk_eq⟩ := editor.expansion_of_desk word.text after
  have more : expansions uri s [] (cursors ++ [(position, word)]) =
      expansions uri s [] cursors ++ [⟨word.range position.line, text⟩] := by
    simp [expansions_append, reply, editFor]
  rw [served.reply_after_eq] at reply
  generalize looked_eq : ends (expansionOf word.text) after = result at reply reached desk_eq
  obtain ⟨outcome, looked⟩ := result
  obtain rfl : outcome = .ok (some text) := reply
  -- the edit names the range that the word has by now; the splice, the one it had at first
  obtain ⟨done, settled_eq, submitted, settled⟩ :=
    editor.exists_accepted (accepts looked (served.reached.trans reached)
      [⟨found.range (position.shiftAll noted).line, text⟩])
  have newText_eq : (document.splice ⟨word.range position.line, text⟩).text = text := rfl
  obtain ⟨replaced, newPlain⟩ := waiting.replace_all_eq fits start_eq stop_eq newText_eq
  simp only [Desk.settle, desk_eq, Desk.lookUp, served.document_eq, if_true] at settled
  refine ⟨noted ++ [[⟨found.range (position.shiftAll noted).line, text⟩]], done, ?_, ?_, ?_, ?_, ?_,
    ?_, ?_⟩
  · rw [more, List.map_append, ← served.splices_eq]
    rfl
  · rw [served.pass_eq]
    exact pass_expand_at_found served.document_eq foundAt? (text_eq ▸ looked_eq) settled_eq
  · exact (served.reached.trans reached).trans submitted
  · rw [settled, served.lookups_eq]
    simp
  · rw [settled, Option.map_some, replaced]
  · exact newPlain
  · intro otherPosition otherWord otherBefore otherRest otherTouched otherDifferent
    have waits := served.waiting otherPosition otherWord otherBefore otherRest otherTouched
      fun cursor member => otherDifferent cursor (List.mem_append_left _ member)
    apply waiting.step waits touched.stands otherTouched.stands ?_ fits start_eq stop_eq rfl
    rintro ⟨sameBefore, sameWord⟩
    apply otherDifferent (position, word) (by simp)
    rw [touched.range_eq, otherTouched.range_eq, sameBefore, sameWord]

end Turn

theorem exists_served (present : (editor.desk s).document = some document)
    (plain : Plain document.text)
    (touched : ∀ cursor ∈ cursors, document.wordAt? cursor.1 = some cursor.2)
    (different : cursors.Pairwise fun left right =>
      left.2.range left.1.line ≠ right.2.range right.1.line)
    (accepts : ∀ state, Reaches s state → ∀ edits,
      ((MonadEditor.applyEdits uri edits : StateM σ Bool).run state).1 = true)
    (answered : AllAnswered uri s [] cursors) :
    ∃ splices noted after, editor.Served s document cursors splices noted after := by
  induction cursors using List.reverseRecOn with
  | nil => exact ⟨[], [], s, served_nil present plain⟩
  | append_singleton front cursor induction =>
      obtain ⟨position, word⟩ := cursor
      obtain ⟨frontDifferent, -, lastDifferent⟩ := List.pairwise_append.mp different
      obtain ⟨frontAnswered, reply⟩ := all_answered_append.mp answered
      obtain ⟨splices, noted, after, served⟩ := induction
        (fun cursor member => touched cursor (List.mem_append_left _ member)) frontDifferent
        frontAnswered
      obtain ⟨before, rest, touchedHere⟩ :=
        (Document.word_at?_eq_some plain).mp (touched (position, word) (by simp))
      have differentHere : ∀ cursor ∈ front,
          cursor.2.range cursor.1.line ≠ word.range position.line :=
        fun cursor member => lastDifferent cursor member (position, word) (by simp)
      rw [List.nil_append] at reply
      cases found : replyAfter uri s (front.map (·.1)) word.text with
      | error error =>
          obtain ⟨next, further⟩ := served.step_failed touchedHere differentHere found
          exact ⟨splices, noted, next, further⟩
      | ok picked =>
          rw [found] at reply
          cases picked with
          | none => exact absurd reply id
          | some text =>
              obtain ⟨further, next, reached⟩ :=
                served.step_found plain touchedHere differentHere accepts reply found
              exact ⟨_, further, next, reached⟩

/-- Expanding at several cursors is simultaneous. Each class is looked up under the word that its
cursor touched at first, and in the end the words whose lookup succeeded are replaced at once in the
text as it was at first, with every other character kept. -/
theorem expand_selections_simultaneous (editor : FaithfulEditor σ uri) (s : σ) (document : Document)
    (cursors : List (Position × Word)) (present : (editor.desk s).document = some document)
    (plain : Plain document.text)
    (touched : ∀ cursor ∈ cursors, document.wordAt? cursor.1 = some cursor.2)
    (different : cursors.Pairwise fun left right =>
      left.2.range left.1.line ≠ right.2.range right.1.line)
    (accepts : ∀ state, Reaches s state → ∀ edits,
      ((MonadEditor.applyEdits uri edits : StateM σ Bool).run state).1 = true)
    (answered : AllAnswered uri s [] cursors) :
    (editor.desk ((expandSelections uri (cursors.map (·.1)) : StateM σ Unit).run s).2).lookups =
        (editor.desk s).lookups ++ cursors.map (·.2.text) ∧
      (editor.desk ((expandSelections uri (cursors.map (·.1)) : StateM σ Unit).run s).2).document =
        some ⟨Splice.atOnce ((expansions uri s [] cursors).map document.splice)
          document.text⟩ := by
  cases cursors with
  | nil =>
      have kept : editor.Keeps s _ :=
        keeps_of_questions (asks_show_message ResolveError.noSelection.message true s)
      have desk_eq : editor.desk ((expandSelections uri [] : StateM σ Unit).run s).2 =
        editor.desk s := kept.desk_eq
      simp [desk_eq, present, expansions]
  | cons cursor rest =>
      obtain ⟨splices, noted, after, served⟩ :=
        exists_served present plain touched different accepts answered
      have final : ((expandSelections uri ((cursor :: rest).map (·.1)) : StateM σ Unit).run s).2 =
          after := served.at_each_run
      rw [final, ← served.splices_eq]
      exact ⟨served.lookups_eq, served.document_eq⟩

end FaithfulEditor

/-- A class that no file is named after, and that is not built in, is not found. -/
theorem Workbench.expansion_of_unknown {bench : Workbench} {name : Text}
    (nowhere : bench.searchFiles name = []) (unknown : Builtin.has name = false) :
    (Commands.expansionOf name : ExceptT ResolveError (StateM Workbench) _).run.run bench =
      (.error (.classNotFound name), bench.note (.find name)) := by
  have opened : (Commands.openCandidates name : StateM Workbench _).run bench =
      ([], bench.note (.find name)) := by
    change (Commands.openAll ((bench.searchFiles name).filter _) : StateM Workbench _).run
      (bench.note (.find name)) = _
    rw [nowhere]
    rfl
  change Job.ends (Commands.expansionOf name) bench = _
  rw [Commands.expansionOf, Job.ends_bind, Commands.ends_find_candidates, run_state, opened]
  simp [Candidates.resolve, Candidates.declared, unknown]

def Workbench.threeClasses : Workbench where
  documents := [
    ("file:///m".toList, ⟨"Foo(Closure,stdClass)\r\n".toList⟩),
    ("file:///Closure.php".toList, ⟨"namespace X;".toList⟩)]
  search := [
    ("Foo".toList, []), ("stdClass".toList, []),
    ("Closure".toList, [Path.ofText "/Closure.php".toList])]
  choices := [some "X\\Closure".toList]

namespace FaithfulEditor

open Commands

theorem expand_selections_simultaneous_three_cursors :
    ((Workbench.faithful "file:///m".toList).desk
      ((expandSelections "file:///m".toList [⟨0, 12⟩, ⟨0, 5⟩, ⟨0, 3⟩] :
        StateM Workbench Unit).run Workbench.threeClasses).2).lookups =
      ["stdClass".toList, "Closure".toList, "Foo".toList] ∧
    ((Workbench.faithful "file:///m".toList).desk
      ((expandSelections "file:///m".toList [⟨0, 12⟩, ⟨0, 5⟩, ⟨0, 3⟩] :
        StateM Workbench Unit).run Workbench.threeClasses).2).document =
      some ⟨"Foo(\\X\\Closure,\\stdClass)\r\n".toList⟩ := by
  have first : replyAfter "file:///m".toList Workbench.threeClasses [] "stdClass".toList =
      .ok (some "\\stdClass".toList) := by decide +kernel
  have second : replyAfter "file:///m".toList Workbench.threeClasses [⟨0, 12⟩]
      "Closure".toList = .ok (some "\\X\\Closure".toList) := by decide +kernel
  have third : replyAfter "file:///m".toList Workbench.threeClasses [⟨0, 12⟩, ⟨0, 5⟩]
      "Foo".toList = .error (.classNotFound "Foo".toList) := by
    have unknown : Builtin.has "Foo".toList = false := by
      rw [← Bool.not_eq_true, Builtin.has_to_list]
      decide +kernel
    rw [replyAfter, Workbench.expansion_of_unknown (by decide +kernel) unknown]
  have answered : AllAnswered "file:///m".toList Workbench.threeClasses []
      [(⟨0, 12⟩, ⟨12, 20, "stdClass".toList⟩), (⟨0, 5⟩, ⟨4, 11, "Closure".toList⟩),
        (⟨0, 3⟩, ⟨0, 3, "Foo".toList⟩)] := by
    have unbroken : Unbroken "\\stdClass".toList ∧ Unbroken "\\X\\Closure".toList := by decide
    refine ⟨?_, ?_, ?_, trivial⟩
    · rw [first]
      exact unbroken.1
    · rw [List.nil_append, second]
      exact unbroken.2
    · rw [List.nil_append, List.singleton_append, third]
      trivial
  have replaced : expansions "file:///m".toList Workbench.threeClasses []
      [(⟨0, 12⟩, ⟨12, 20, "stdClass".toList⟩), (⟨0, 5⟩, ⟨4, 11, "Closure".toList⟩),
        (⟨0, 3⟩, ⟨0, 3, "Foo".toList⟩)] =
      [⟨⟨⟨0, 12⟩, ⟨0, 20⟩⟩, "\\stdClass".toList⟩, ⟨⟨⟨0, 4⟩, ⟨0, 11⟩⟩, "\\X\\Closure".toList⟩] := by
    rw [expansions, expansions, expansions, expansions, List.nil_append, List.singleton_append,
      first, second, third]
    rfl
  have positions : ([(⟨0, 12⟩, ⟨12, 20, "stdClass".toList⟩), (⟨0, 5⟩, ⟨4, 11, "Closure".toList⟩),
      (⟨0, 3⟩, ⟨0, 3, "Foo".toList⟩)] : List (Position × Word)).map (·.1) =
        [⟨0, 12⟩, ⟨0, 5⟩, ⟨0, 3⟩] := rfl
  obtain ⟨lookups, document⟩ := expand_selections_simultaneous
    (Workbench.faithful "file:///m".toList) Workbench.threeClasses
    ⟨"Foo(Closure,stdClass)\r\n".toList⟩
    [(⟨0, 12⟩, ⟨12, 20, "stdClass".toList⟩), (⟨0, 5⟩, ⟨4, 11, "Closure".toList⟩),
      (⟨0, 3⟩, ⟨0, 3, "Foo".toList⟩)]
    (by decide) (by decide) (by decide) (by decide)
    (fun state reached edits => Workbench.accepts_reached _ (by decide) reached edits) answered
  rw [positions] at lookups document
  rw [replaced] at document
  exact ⟨lookups.trans (by decide), document.trans (by decide)⟩

end FaithfulEditor
end PhpNames
