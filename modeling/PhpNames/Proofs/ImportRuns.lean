import PhpNames.Proofs.CandidateList
import PhpNames.Proofs.CommandRuns

/-!
How imports end.

For every way to import a class it is said once which calls go with which result, in every faithful
editor and whatever the user answers.
-/

namespace PhpNames

open Commands MonadRun

namespace FaithfulEditor

open Job

variable {σ : Type} {m : Type → Type} [Monad m] [MonadEditor m] [MonadRun σ m] {uri : Text}
  {editor : FaithfulEditor σ uri} {looked : Text → Prop} {s between : σ} {document : Document}

/-! ### Batches -/

inductive BatchEnd (s : σ) (uri : Text) (document : Document) (batch : List Edit) :
    Except ResolveError Outcome → List Call → Prop
  | refused : BatchEnd s uri document batch (.error .editRejected) [⟨uri, batch, false⟩]
  | taken {closed : Except ResolveError Unit} {made : List Call}
      (closing : Follows s uri (document.replaceAll batch) closed made) :
      BatchEnd s uri document batch (closed.map fun _ => .done) (⟨uri, batch, true⟩ :: made)

theorem BatchEnd.earlier {batch : List Edit} {result : Except ResolveError Outcome}
    {made : List Call} (ended : BatchEnd between uri document batch result made)
    (reached : Reaches s between) : BatchEnd s uri document batch result made := by
  cases ended with
  | refused => exact .refused
  | taken closing =>
      obtain ⟨settings, told, hands⟩ := closing
      exact .taken ⟨settings, told.earlier reached, hands⟩

theorem BatchEnd.done_or_refused {batch : List Edit} {result : Except ResolveError Outcome}
    {made : List Call} (ended : BatchEnd s uri document batch result made) :
    (∃ settings, Told s settings ∧ result = .ok .done ∧
        made.foldl Call.write document = (document.replaceAll batch).followedUp settings) ∨
      (result = .error .editRejected ∧ ∃ call ∈ made, call.isAccepted = false) := by
  cases ended with
  | refused => exact .inr ⟨rfl, by simp⟩
  | taken closing =>
      obtain ⟨settings, told, hands⟩ := closing
      rcases hands.succeeds_or_refused with ⟨rfl, -⟩ | ⟨rfl, refused, -, rfl⟩
      · exact .inl ⟨settings, told, rfl, hands.written_of_ok (document.replaceAll batch)⟩
      · exact .inr ⟨rfl, by simp⟩

theorem concludes_batch {batch : List Edit} {last : Job σ Unit}
    (present : (editor.desk s).document = some document)
    (closes : ∀ after, (editor.desk after).document = some (document.replaceAll batch) →
      Concludes uri looked last after (Follows after uri (document.replaceAll batch))) :
    Concludes uri looked (submit uri batch >>= fun _ => last >>= fun _ => pure .done) s
      (BatchEnd s uri document batch) := by
  apply concludes_bind (concludes_submit s uri batch)
  · intro error made hands
    cases hands
    exact .refused
  · intro _ made after trace hands
    cases hands
    apply concludes_bind (closes after (trace.document_eq present))
    · intro error made closing
      exact BatchEnd.earlier (.taken closing) trace.reached
    · intro _ made further _ closing
      apply concludes_pure
      rw [List.append_nil]
      exact BatchEnd.earlier (.taken closing) trace.reached

/-- The batches that can import a class into a document with this block, where only certain other
names are typed. -/
inductive Planned (typed : Text → Prop) (selection : Option Range) (name : Text)
    (replaceSelection : Bool) (block : Block) : List Edit → Prop
  | added (free : UseStatement.takes block.uses (baseName name) = false) :
      Planned typed selection name replaceSelection block
        (selectionEdit (if replaceSelection then selection else none) (baseName name) ++
          [UseStatement.insertEdit name none block.declarations])
  | replaced {edit : Edit} (taken : UseStatement.takes block.uses (baseName name) = true)
      (found : UseStatement.replaceEdit? name block.uses = some edit) :
      Planned typed selection name replaceSelection block [edit]
  | renamed {otherName : Text} (taken : UseStatement.takes block.uses (baseName name) = true)
      (isTyped : typed otherName) (named : otherName ≠ [])
      (free : UseStatement.takes block.uses otherName = false) :
      Planned typed selection name replaceSelection block
        (selectionEdit selection otherName ++
          [UseStatement.insertEdit name (some otherName) block.declarations])

theorem Planned.mono {typed wider : Text → Prop} {selection : Option Range} {name : Text}
    {replaceSelection : Bool} {block : Block} {batch : List Edit}
    (planned : Planned typed selection name replaceSelection block batch)
    (implies : ∀ otherName, typed otherName → wider otherName) :
    Planned wider selection name replaceSelection block batch := by
  cases planned with
  | added free => exact .added free
  | replaced taken found => exact .replaced taken found
  | renamed taken isTyped named free => exact .renamed taken (implies _ isTyped) named free

theorem exists_replace_edit {name : Text} {uses : List UseStatement}
    (taken : UseStatement.takes uses (baseName name) = true) :
    ∃ edit, UseStatement.replaceEdit? name uses = some edit := by
  obtain ⟨statement, member, same⟩ := List.any_eq_true.mp taken
  cases found : uses.find? (·.shortName? == some (baseName name)) with
  | none => exact absurd same (List.find?_eq_none.mp found statement member)
  | some statement =>
      exact ⟨_, by rw [UseStatement.replaceEdit?, found]; rfl⟩

/-! ### A class -/

/-- The other names that the user may type, from a state on. -/
def Types (s : σ) (otherName : Text) : Prop :=
  ∃ asked, Reaches s asked ∧
    (run (MonadEditor.askText aliasPlaceholder : m _) asked).1 = some otherName

theorem Types.earlier {otherName : Text} (types : Types between otherName)
    (reached : Reaches s between) : Types s otherName := by
  obtain ⟨asked, further, typed⟩ := types
  exact ⟨asked, reached.trans further, typed⟩

inductive ClassEnd (editor : FaithfulEditor σ uri) (s : σ) (selection : Option Range) (name : Text)
    (replaceSelection : Bool) : Except ResolveError Outcome → List Call → Prop
  | unopened (unopened : (editor.desk s).document = none) :
      ClassEnd editor s selection name replaceSelection (.error .noSelection) []
  | imported {document : Document} (opened : (editor.desk s).document = some document)
      (scanned : Block.scan document.lines (some name) = .error (.alreadyImported name)) :
      ClassEnd editor s selection name replaceSelection (.error (.alreadyImported name)) []
  | declined {document : Document} {block : Block}
      (opened : (editor.desk s).document = some document)
      (scanned : Block.scan document.lines (some name) = .ok block)
      (taken : UseStatement.takes block.uses (baseName name) = true) :
      ClassEnd editor s selection name replaceSelection (.ok .cancelled) []
  | handed {document : Document} {block : Block} {batch : List Edit}
      {result : Except ResolveError Outcome} {made : List Call}
      (opened : (editor.desk s).document = some document)
      (scanned : Block.scan document.lines (some name) = .ok block)
      (planned : Planned (Types s) selection name replaceSelection block batch)
      (ended : BatchEnd s uri document batch result made) :
      ClassEnd editor s selection name replaceSelection result made

section Class

variable {selection : Option Range} {name : Text} {replaceSelection : Bool} {block : Block}

theorem ClassEnd.earlier (same : (editor.desk between).document = (editor.desk s).document)
    (reached : Reaches s between) (result : Except ResolveError Outcome) (made : List Call)
    (ended : ClassEnd editor between selection name replaceSelection result made) :
    ClassEnd editor s selection name replaceSelection result made := by
  cases ended with
  | unopened unopened => exact .unopened (same ▸ unopened)
  | imported opened scanned => exact .imported (same ▸ opened) scanned
  | declined opened scanned taken => exact .declined (same ▸ opened) scanned taken
  | handed opened scanned planned ended =>
      exact .handed (same ▸ opened) scanned (planned.mono fun _ types => types.earlier reached)
        (ended.earlier reached)

/-- A class whose name is free is given a line of its own. -/
theorem ClassEnd.of_free {result : Except ResolveError Outcome} {made : List Call}
    (ended : ClassEnd editor s selection name replaceSelection result made)
    (present : (editor.desk s).document = some document)
    (scanned : Block.scan document.lines (some name) = .ok block)
    (free : UseStatement.takes block.uses (baseName name) = false) :
    BatchEnd s uri document
      (selectionEdit (if replaceSelection then selection else none) (baseName name) ++
        [UseStatement.insertEdit name none block.declarations]) result made := by
  have untaken : UseStatement.takes block.uses (baseName name) ≠ true := by simp [free]
  cases ended with
  | unopened unopened =>
      rw [present] at unopened
      cases unopened
  | @imported shown opened failed =>
      obtain rfl : document = shown := Option.some.inj (present.symm.trans opened)
      rw [scanned] at failed
      cases failed
  | @declined shown read opened rescanned taken =>
      obtain rfl : document = shown := Option.some.inj (present.symm.trans opened)
      obtain rfl : block = read := Except.ok.inj (scanned.symm.trans rescanned)
      exact absurd taken untaken
  | @handed shown read batch _ _ opened rescanned planned ended =>
      obtain rfl : document = shown := Option.some.inj (present.symm.trans opened)
      obtain rfl : block = read := Except.ok.inj (scanned.symm.trans rescanned)
      cases planned with
      | added _ => exact ended
      | replaced taken _ => exact absurd taken untaken
      | renamed taken _ _ _ => exact absurd taken untaken

theorem concludes_import_with_alias (present : (editor.desk s).document = some document)
    (scanned : Block.scan document.lines (some name) = .ok block)
    (taken : UseStatement.takes block.uses (baseName name) = true) (attempts : Nat) :
    Concludes uri looked (importWithAlias uri selection name block attempts) s
      (ClassEnd editor s selection name replaceSelection) := by
  -- the questions leave the document alone, so the block found at first still describes it
  induction attempts generalizing s with
  | zero => exact concludes_pure (.declined present scanned taken)
  | succ attempts induction =>
      apply concludes_ask (asks_request (.askText aliasPlaceholder) rfl)
      intro answer asked replied trace
      have presentStill : (editor.desk asked).document = some document := trace.document_eq present
      have types : ∀ otherName, answer = some otherName → Types s otherName := by
        rintro otherName rfl
        exact ⟨s, .refl, congrArg Prod.fst replied⟩
      split
      · exact concludes_pure (.declined present scanned taken)
      · rename_i otherName _
        apply concludes_ask (asks_show_message _ true)
        intro _ reported _ further
        have presentLater : (editor.desk reported).document = some document :=
          further.document_eq presentStill
        apply concludes_mono (induction presentLater)
        exact ClassEnd.earlier (presentLater.trans present.symm)
          (trace.reached.trans further.reached)
      · obtain ⟨edit, found⟩ := exists_replace_edit taken
        rw [found]
        apply concludes_mono (concludes_batch presentStill fun _ => concludes_auto_sort)
        intro result made ended
        exact .handed present scanned (.replaced taken found) (ended.earlier trace.reached)
      · rename_i otherName decided
        obtain ⟨answered, named, free⟩ := AliasDecision.free_of_use_alias decided
        apply concludes_mono (concludes_batch presentStill fun _ => concludes_finish_import)
        intro result made ended
        exact .handed present scanned (.renamed taken (types otherName answered) named free)
          (ended.earlier trace.reached)

theorem concludes_import_class (editor : FaithfulEditor σ uri) (s : σ) (selection : Option Range)
    (name : Text) (replaceSelection : Bool) :
    Concludes uri looked (importClass uri selection name replaceSelection) s
      (ClassEnd editor s selection name replaceSelection) := by
  apply concludes_lines_of ClassEnd.unopened
  intro document present
  apply concludes_except
  · intro error scanned
    obtain rfl : .alreadyImported name = error := by
      have failed := scanned
      rw [Block.scan_eq] at failed
      split at failed
      · exact Except.error.inj failed
      · cases failed
    exact .imported present scanned
  intro block scanned
  cases taken : UseStatement.takes block.uses (baseName name) with
  | true =>
      rw [ImportPlan.of, if_pos taken]
      apply concludes_ask (asks_request .patience rfl)
      intro attempts asked _ trace
      have presentStill : (editor.desk asked).document = some document := trace.document_eq present
      apply concludes_mono (concludes_import_with_alias presentStill scanned taken attempts)
      exact ClassEnd.earlier (presentStill.trans present.symm) trace.reached
  | false =>
      have added : ∀ result made,
          BatchEnd s uri document
            (selectionEdit (if replaceSelection then selection else none) (baseName name) ++
              [UseStatement.insertEdit name none block.declarations]) result made →
          ClassEnd editor s selection name replaceSelection result made :=
        fun _ _ => .handed present scanned (.added taken)
      rw [ImportPlan.of, if_neg (by rw [taken]; decide)]
      cases replaceSelection with
      | true =>
          exact concludes_mono (concludes_batch present fun _ => concludes_finish_import) added
      | false =>
          exact concludes_mono (concludes_batch present fun _ => concludes_finish_import) added

end Class

end FaithfulEditor

/-! ### A name -/

namespace Commands

/-- The full name that a name stands for: a name with a separator is full already, any other is
looked up. There is none if the user declines to pick one. -/
def resolve {m : Type → Type} [Monad m] [MonadEditor m] (name : Text) :
    ExceptT ResolveError m (Option Text) := do
  if name.contains '\\' then
    return some (if name.head? = some '\\' then name.tail else name)
  else
    let candidates ← findCandidates name
    (pickName candidates : m _)

def importPicked {m : Type → Type} [Monad m] [MonadEditor m] (uri : Text)
    (selection : Option Range) (replaceSelection : Bool) :
    Option Text → ExceptT ResolveError m Outcome
  | none => return .cancelled
  | some full => importClass uri selection full replaceSelection

theorem import_name_eq {m : Type → Type} [Monad m] [LawfulMonad m] [MonadEditor m] (uri : Text)
    (selection : Option Range) (name : Text) :
    (importName uri selection name : ExceptT ResolveError m Outcome) =
      resolve name >>= importPicked uri selection (name.contains '\\') := by
  unfold importName resolve
  by_cases qualified : name.contains '\\' = true
  · rw [if_pos qualified, if_pos qualified, pure_bind, qualified]
    rfl
  · rw [if_neg qualified, if_neg qualified, bind_assoc]
    congr 1
    funext candidates
    congr 1
    funext picked
    cases picked with
    | none => rfl
    | some full =>
        rw [Bool.eq_false_iff.mpr qualified]
        rfl

end Commands

namespace FaithfulEditor

open Job

variable {σ : Type} {m : Type → Type} [Monad m] [MonadEditor m] [MonadRun σ m] {uri : Text}
  {editor : FaithfulEditor σ uri} {looked : Text → Prop} {s : σ} {selection : Option Range}
  {name : Text}

inductive SearchEnd {α : Type} (name : Text) : Except ResolveError α → List Call → Prop
  | found (a : α) : SearchEnd name (.ok a) []
  | unknown : SearchEnd name (.error (.classNotFound name)) []

theorem concludes_find_candidates (allowed : looked name) (s : σ) :
    Concludes uri looked (findCandidates name) s (SearchEnd name) := by
  have searched : Trace uri looked s [] (run (openCandidates name : m _) s).2 := by
    rw [openCandidates, run_bind]
    exact (Trace.refl.search name allowed).trans (.of_questions (asks_open_all _ _))
  apply concludes_of_ends (ends_find_candidates name s) searched
  cases resolved : Candidates.resolve name (run (openCandidates name : m _) s).1 with
  | ok candidates => exact .found candidates
  | error error =>
      obtain rfl := Candidates.error_of_resolve resolved
      exact .unknown

theorem concludes_resolve (allowed : looked name) (s : σ) :
    Concludes uri looked (resolve name) s (SearchEnd name) := by
  unfold resolve
  split
  · exact concludes_pure (.found _)
  · apply concludes_bind (concludes_find_candidates allowed s)
    · intro error made ended
      cases ended
      exact .unknown
    · intro candidates made found _ ended
      cases ended
      exact concludes_of_ends (ends_ask _ found)
        (.of_questions (asks_pick_name candidates found)) (.found _)

inductive NameEnd (editor : FaithfulEditor σ uri) (s : σ) (selection : Option Range) (name : Text) :
    Except ResolveError Outcome → List Call → Prop
  | unknown (failed : (ends (resolve name : Job σ _) s).1 = .error (.classNotFound name)) :
      NameEnd editor s selection name (.error (.classNotFound name)) []
  | unpicked (declined : (ends (resolve name : Job σ _) s).1 = .ok none) :
      NameEnd editor s selection name (.ok .cancelled) []
  | resolved {full : Text} {result : Except ResolveError Outcome} {made : List Call}
      (found : (ends (resolve name : Job σ _) s).1 = .ok (some full))
      (ended : ClassEnd editor s selection full (name.contains '\\') result made) :
      NameEnd editor s selection name result made

theorem concludes_import_name [LawfulMonad m] (editor : FaithfulEditor σ uri)
    (allowed : looked name) (s : σ) (selection : Option Range) :
    Concludes uri looked (importName uri selection name) s (NameEnd editor s selection name) := by
  have searched : Concludes uri looked (resolve name : Job σ _) s _ := concludes_resolve allowed s
  unfold Concludes at searched ⊢
  rw [import_name_eq, ends_bind]
  generalize resolved : ends (resolve name : Job σ _) s = search at searched ⊢
  have first := congrArg Prod.fst resolved
  obtain ⟨result, found⟩ := search
  obtain ⟨made, trace, ended⟩ := searched
  cases ended with
  | unknown => exact ⟨[], trace, .unknown first⟩
  | found picked =>
      cases picked with
      | none =>
          dsimp only
          rw [importPicked, ends_pure]
          exact ⟨[], trace, .unpicked first⟩
      | some full =>
          obtain ⟨made, further, ended⟩ :=
            concludes_import_class editor found selection full (name.contains '\\')
          exact ⟨made, trace.trans further, .resolved first
            (ended.earlier (trace.document_kept editor) trace.reached)⟩

theorem concludes_import_at [LawfulMonad m] {post : Except ResolveError Outcome → List Call → Prop}
    (editor : FaithfulEditor σ uri) (s : σ) (position : Position)
    (nowhere : post (.error .noSelection) [])
    (found : ∀ document word, (editor.desk s).document = some document →
      document.wordAt? position = some word → ∀ result made,
        NameEnd editor s (some (word.range position.line)) word.text result made →
          post result made) :
    Concludes uri (fun _ => True) (importAt uri position) s post := by
  unfold Concludes
  rw [importAt, ends_bind]
  cases present : (editor.desk s).document with
  | none =>
      rw [ends_word_at_absent present]
      exact ⟨[], .refl, nowhere⟩
  | some document =>
      rw [ends_word_at present]
      cases touched : document.wordAt? position with
      | none => exact ⟨[], .refl, nowhere⟩
      | some word =>
          exact concludes_mono (concludes_import_name editor trivial s _)
            (found document word present touched)

end FaithfulEditor
end PhpNames
