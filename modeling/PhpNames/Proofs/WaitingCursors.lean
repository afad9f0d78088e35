import PhpNames.Proofs.ImportBatches
import PhpNames.Proofs.ImportRuns
import PhpNames.Proofs.PlainReplies

/-!
Importing at several cursors: a cursor that waits keeps pointing at its word.

Every batch that an import submits keeps words whole, whatever the user picks, types or refuses. So
a cursor that is moved through the accepted batches is still in its word, at the same place, unless
one of them replaced something of the word itself.
-/

namespace PhpNames

open Text Word Commands MonadRun

namespace PlainReplies

open Job

variable {σ : Type} {m : Type → Type} [Monad m] [MonadEditor m] [MonadRun σ m]

theorem noting {s : Noted σ} (replies : PlainReplies s.state) : PlainReplies s where
  picked {after} reached options := by
    have run_eq : run (MonadEditor.chooseName options : Noting m _) after = _ := run_lift _ after
    rw [run_eq]
    exact replies.picked reached.state options
  typed {after} reached placeholder := by
    have run_eq : run (MonadEditor.askText placeholder : Noting m _) after = _ := run_lift _ after
    rw [run_eq]
    exact replies.typed reached.state placeholder
  read {after} reached path := by
    have run_eq : run (MonadEditor.openFile path : Noting m _) after = _ := run_lift _ after
    rw [run_eq]
    exact replies.read reached.state path

theorem resolve {s : σ} {name full : Text} (replies : PlainReplies s) (unbroken : Unbroken name)
    (found : (ends (Commands.resolve name) s).1 = .ok (some full)) :
    Plain full ∧ (name.contains '\\' = true → Plain (baseName full)) := by
  unfold Commands.resolve at found
  split at found
  · rw [ends_pure] at found
    have fullUnbroken : Unbroken full := by
      rw [← Option.some.inj (Except.ok.inj found)]
      split
      · exact fun c member => unbroken c (List.mem_of_mem_tail member)
      · exact unbroken
    exact ⟨fullUnbroken.plain,
      fun _ => Unbroken.plain fun c member => fullUnbroken c (mem_of_mem_base_name member)⟩
  · rename_i unqualified
    refine ⟨?_, fun qualified => absurd qualified unqualified⟩
    have plain : ∀ candidates, (ends (Commands.findCandidates name) s).1 = .ok candidates →
        ∀ full ∈ candidates.names, Plain full := fun _ => replies.find_candidates unbroken
    obtain ⟨made, trace, -⟩ : Concludes [] (fun _ => True) (Commands.findCandidates name) s _ :=
      FaithfulEditor.concludes_find_candidates trivial s
    have reached := trace.reached
    rw [ends_bind] at found
    generalize ends (Commands.findCandidates name) s = ended at found plain reached
    obtain ⟨error | candidates, between⟩ := ended
    · cases found
    · dsimp only at found
      rw [ends_ask] at found
      exact (replies.later reached).pick_name (plain candidates rfl) full (Except.ok.inj found)

end PlainReplies

namespace FaithfulEditor

open Job

section Batches

variable {σ : Type} {m : Type → Type} [Monad m] [MonadEditor m] [MonadRun σ m] {uri : Text}
  {editor : FaithfulEditor σ uri} {s : σ} {document : Document} {made : List Call}

structure Ready (editor : FaithfulEditor σ uri) (document : Document) (s : σ) : Prop where
  present : (editor.desk s).document = some document
  closed : document.Closed
  replies : PlainReplies s

theorem Hands.evolves {batch : Option (List Edit)} {result : Except ResolveError Unit}
    (hands : Hands uri batch result made)
    (orderly : ∀ handed, batch = some handed → document.Orderly handed) :
    document.Evolves (Call.acceptedBatches made) (made.foldl Call.write document) := by
  cases hands with
  | nothing => exact .nil document
  | accepted handed => exact .cons (orderly handed rfl) (.nil _)
  | refused handed => exact .nil document

theorem follow_up_orderly {settings : Settings} {batch : List Edit} (closed : document.Closed)
    (due : document.followUp? settings = some batch) : document.Orderly batch := by
  obtain ⟨block, sorted, scanned, result, rfl, -⟩ :=
    Document.exists_of_sort_batch (Document.sort_batch_of_follow_up due).2
  obtain ⟨count, records⟩ := Block.exists_records scanned
  exact closed.orderly_sort records result

variable {position : Position} {word : Word} {name : Text}

theorem Planned.orderly {typed : Text → Prop} {replaceSelection : Bool} {block : Block}
    {batch : List Edit}
    (planned : Planned typed (some (word.range position.line)) name replaceSelection block batch)
    (closed : document.Closed) (scanned : Block.scan document.lines (some name) = .ok block)
    (touched : document.wordAt? position = some word) (namePlain : Plain name)
    (basePlain : replaceSelection = true → Plain (baseName name))
    (typedPlain : ∀ otherName, typed otherName → Plain otherName) : document.Orderly batch := by
  obtain ⟨count, records⟩ := Block.exists_records scanned
  cases planned with
  | added _ =>
      cases replaceSelection with
      | false => exact closed.orderly_insert records namePlain
      | true =>
          exact closed.orderly_replace_word_insert records touched (basePlain rfl) namePlain
            (by simp)
  | replaced _ found => exact closed.orderly_replace records namePlain found
  | @renamed otherName _ isTyped _ _ =>
      apply closed.orderly_replace_word_insert records touched (typedPlain otherName isTyped)
        namePlain
      rintro _ ⟨⟩
      exact typedPlain otherName isTyped

theorem ClassEnd.evolves {replaceSelection : Bool} {result : Except ResolveError Outcome}
    (ended : ClassEnd editor s (some (word.range position.line)) name replaceSelection result made)
    (ready : editor.Ready document s) (touched : document.wordAt? position = some word)
    (namePlain : Plain name) (basePlain : replaceSelection = true → Plain (baseName name)) :
    document.Evolves (Call.acceptedBatches made) (made.foldl Call.write document) := by
  cases ended with
  | unopened _ => exact .nil document
  | imported _ _ => exact .nil document
  | declined _ _ _ => exact .nil document
  | @handed shown block batch _ _ opened scanned planned ended =>
      obtain rfl : document = shown := Option.some.inj (ready.present.symm.trans opened)
      have orderly := planned.orderly ready.closed scanned touched namePlain basePlain
        fun otherName ⟨asked, reached, typed⟩ =>
          ready.replies.typed reached aliasPlaceholder otherName typed
      cases ended with
      | refused => exact .nil document
      | taken closing =>
          obtain ⟨settings, -, hands⟩ := closing
          exact .cons orderly
            (hands.evolves fun _ => follow_up_orderly (orderly.closed ready.closed))

theorem NameEnd.evolves {result : Except ResolveError Outcome}
    (ended : NameEnd editor s (some (word.range position.line)) name result made)
    (ready : editor.Ready document s) (touched : document.wordAt? position = some word)
    (unbroken : Unbroken name) :
    document.Evolves (Call.acceptedBatches made) (made.foldl Call.write document) := by
  cases ended with
  | unknown _ => exact .nil document
  | unpicked _ => exact .nil document
  | resolved found ended =>
      obtain ⟨namePlain, basePlain⟩ := ready.replies.resolve unbroken found
      exact ended.evolves ready touched namePlain basePlain

/-- An import at a cursor is a run of batches that keep words whole. -/
theorem Ready.concludes_import_at [LawfulMonad m] (ready : editor.Ready document s)
    (position : Position) :
    Concludes uri (fun _ => True) (importAt uri position) s fun _ made =>
      document.Evolves (Call.acceptedBatches made) (made.foldl Call.write document) := by
  apply FaithfulEditor.concludes_import_at editor s position (.nil document)
  intro shown word opened touched result made ended
  obtain rfl : document = shown := Option.some.inj (ready.present.symm.trans opened)
  obtain ⟨before, after, there⟩ := (Document.word_at?_eq_some ready.closed.plain).mp touched
  exact ended.evolves ready touched (unbroken_word there.stands.parts)

end Batches

/-! ### Several cursors -/

section Cursors

variable {σ : Type} [MonadEditor (StateM σ)] {uri : Text}

/-- What happened to the document between two states: batches were accepted, all of which keep words
whole. -/
structure Progress (editor : FaithfulEditor σ uri) (document : Document) (s : σ)
    (batches : List (List Edit)) (current : Document) (after : σ) : Prop where
  reached : Reaches s after
  present : (editor.desk after).document = some current
  accepted : (editor.desk after).accepted = (editor.desk s).accepted ++ batches
  evolves : document.Evolves batches current

variable {editor : FaithfulEditor σ uri} {document current final : Document} {s between after : σ}
  {batches more : List (List Edit)}

theorem Progress.trans (first : editor.Progress document s batches current between)
    (second : editor.Progress current between more final after) :
    editor.Progress document s (batches ++ more) final after where
  reached := first.reached.trans second.reached
  present := second.present
  accepted := by rw [second.accepted, first.accepted, List.append_assoc]
  evolves := first.evolves.append second.evolves

theorem Keeps.progress (keeps : editor.Keeps s after)
    (present : (editor.desk s).document = some document) :
    editor.Progress document s [] document after where
  reached := keeps.reached
  present := by rw [keeps.desk_eq, present]
  accepted := by rw [keeps.desk_eq, List.append_nil]
  evolves := .nil document

theorem Ready.next (ready : editor.Ready document s)
    (progress : editor.Progress document s batches current after) : editor.Ready current after where
  present := progress.present
  closed := progress.evolves.closed ready.closed
  replies := ready.replies.later progress.reached

/-- The batches of an import are accepted while they are noted. -/
theorem Ready.import_at_progress (ready : editor.Ready document s) (position : Position) :
    ∃ current, editor.Progress document s
      (ends (importAt uri position) (Noted.mk [] s)).2.batches current
      (ends (importAt uri position) (Noted.mk [] s)).2.state := by
  have noting : editor.noting.Ready document ⟨[], s⟩ :=
    ⟨ready.present, ready.closed, .noting ready.replies⟩
  obtain ⟨made, trace, evolves⟩ := noting.concludes_import_at position
  refine ⟨_, trace.reached.state, trace.document_eq noting.present, ?_, ?_⟩
  · rw [trace.batches_eq]
    exact trace.accepted_eq editor.noting
  · rw [trace.batches_eq]
    exact evolves

/-- What has happened when the cursors `front` have been served. -/
theorem Ready.pass_import_at (ready : editor.Ready document s) (noted : List (List Edit))
    (front : List Position) :
    ∀ further after, (pass (importAt uri) noted front : StateM σ _).run s = (some further, after) →
      ∃ batches current, further = noted ++ batches ∧
        editor.Progress document s batches current after := by
  induction front generalizing s document noted with
  | nil =>
      intro further after served
      obtain ⟨same, rfl⟩ := Prod.mk.inj served
      obtain rfl := Option.some.inj same
      exact ⟨[], document, (List.append_nil _).symm, Keeps.refl.progress ready.present⟩
  | cons position front induction =>
      obtain ⟨current, progress⟩ := ready.import_at_progress (position.shiftAll noted)
      rw [pass_cons_run]
      generalize ends (importAt uri (position.shiftAll noted)) (Noted.mk [] s) = ended at progress ⊢
      obtain ⟨outcome, ⟨more, between⟩⟩ := ended
      have ready := ready.next progress
      -- whether the cursor was served or its error shown, the others start from what it left
      have onwards : ∀ start, editor.Keeps between start → ∀ further after,
          (pass (importAt uri) (noted ++ more) front : StateM σ _).run start =
              (some further, after) →
            ∃ batches current, further = noted ++ batches ∧
              editor.Progress document s batches current after := by
        intro start keeps further after served
        have kept := keeps.progress ready.present
        obtain ⟨batches, final, rfl, later⟩ :=
          induction (ready.next kept) (noted ++ more) further after served
        exact ⟨more ++ batches, final, List.append_assoc _ _ _, progress.trans (kept.trans later)⟩
      rcases outcome with error | ⟨_ | _⟩
      · exact onwards _ (keeps_of_questions (asks_show_message error.message true between))
      · exact onwards between .refl
      · intro further after declined
        cases declined

end Cursors
end FaithfulEditor

namespace Workbench

/-- A waiting cursor and the word that it touched, when the cursors `front` have been served. -/
theorem import_selections_tracks_word {bench after : Workbench} {uri : Text} {document : Document}
    {front rest : List Position} {position : Position} {word : Word} {noted : List (List Edit)}
    (present : bench.document? uri = some document) (closed : document.Closed)
    (touched : document.wordAt? position = some word)
    (choices : ∀ name, some name ∈ bench.choices → Plain name)
    (answers : ∀ name, some name ∈ bench.answers → Plain name)
    (served : (pass (importAt uri) [] front : StateM Workbench _).run bench = (some noted, after)) :
    (importSelections uri (front ++ position :: rest) : StateM Workbench _).run bench =
        (atEach (importAt uri) noted (position :: rest) : StateM Workbench _).run after ∧
      (after.desk uri).accepted = (bench.desk uri).accepted ++ noted ∧
      ∃ current, after.document? uri = some current ∧
        (document.Undisturbed position noted →
          ∃ now, current.wordAt? (position.shiftAll noted) = some now ∧ now.text = word.text ∧
            (now.range (position.shiftAll noted).line).start =
              (word.range position.line).start.shiftAll noted ∧
            (position.shiftAll noted).column - now.start = position.column - word.start) := by
  have ready : (faithful uri).Ready document bench :=
    ⟨present, closed, plain_replies choices answers⟩
  obtain ⟨batches, current, rfl, progress⟩ := ready.pass_import_at [] front noted after served
  refine ⟨?_, progress.accepted, current, progress.present, ?_⟩
  · have some : (front ++ position :: rest).isEmpty = false := by simp
    rw [importSelections, atCursors, some, at_each_append]
    change StateT.run (pass (importAt uri) [] front >>= _) bench = _
    rw [StateT.run_bind, served]
    rfl
  · exact progress.evolves.word_kept closed touched

def threeClassDocument : Document :=
  ⟨"<?php\nuse Zeta\\Widget;\n\nnew Closure;\nnew App\\Foo; new stdClass;\n".toList⟩

def refusingFirst : Workbench where
  documents := [("file:///m".toList, threeClassDocument)]
  accept := [false]

def acceptedThen : List (List Edit) :=
  [[⟨⟨⟨4, 4⟩, ⟨4, 11⟩⟩, "Foo".toList⟩, ⟨⟨⟨2, 0⟩, ⟨2, 0⟩⟩, "use App\\Foo;\n".toList⟩],
    [⟨⟨⟨1, 0⟩, ⟨1, 16⟩⟩, "use App\\Foo;".toList⟩,
      ⟨⟨⟨2, 0⟩, ⟨2, 12⟩⟩, "use Zeta\\Widget;".toList⟩]]

theorem import_selections_tracks_word_refused_and_sorted :
    ∃ after current,
      (pass (importAt "file:///m".toList) [] [⟨3, 5⟩, ⟨4, 6⟩] : StateM Workbench _).run
        refusingFirst = (some acceptedThen, after) ∧
      (importSelections "file:///m".toList [⟨3, 5⟩, ⟨4, 6⟩, ⟨4, 20⟩] : StateM Workbench _).run
          refusingFirst =
        (atEach (importAt "file:///m".toList) acceptedThen [⟨4, 20⟩] :
          StateM Workbench _).run after ∧
      (after.desk "file:///m".toList).accepted = acceptedThen ∧
      after.document? "file:///m".toList = some current ∧
      ∃ now, current.wordAt? ⟨5, 16⟩ = some now ∧ now.text = "stdClass".toList ∧
        now.start = 13 := by
  have run : ((pass (importAt "file:///m".toList) [] [⟨3, 5⟩, ⟨4, 6⟩] : StateM Workbench _).run
      refusingFirst).1 = some acceptedThen := by decide +kernel
  obtain ⟨after, served⟩ : ∃ after, (pass (importAt "file:///m".toList) [] [⟨3, 5⟩, ⟨4, 6⟩] :
      StateM Workbench _).run refusingFirst = (some acceptedThen, after) := by
    generalize (pass (importAt "file:///m".toList) [] [⟨3, 5⟩, ⟨4, 6⟩] :
      StateM Workbench _).run refusingFirst = result at run
    exact ⟨result.2, Prod.ext run rfl⟩
  have touched : threeClassDocument.wordAt? ⟨4, 20⟩ = some ⟨17, 25, "stdClass".toList⟩ := by
    decide +kernel
  have undisturbed : threeClassDocument.Undisturbed ⟨4, 20⟩ acceptedThen := by decide +kernel
  have moved : (⟨4, 20⟩ : Position).shiftAll acceptedThen = ⟨5, 16⟩ := by decide +kernel
  obtain ⟨onwards, accepted, current, shown, kept⟩ :=
    @import_selections_tracks_word refusingFirst after "file:///m".toList threeClassDocument
      [⟨3, 5⟩, ⟨4, 6⟩] [] ⟨4, 20⟩ ⟨17, 25, "stdClass".toList⟩ acceptedThen rfl
      ⟨by decide, by decide⟩ touched (by simp [refusingFirst]) (by simp [refusingFirst]) served
  obtain ⟨now, found, text_eq, -, offset_eq⟩ := kept undisturbed
  rw [moved] at found offset_eq
  have start_eq : now.start = 13 := by
    simp only at offset_eq
    omega
  exact ⟨after, current, served, onwards, accepted, shown, now, found, text_eq, start_eq⟩

end Workbench
end PhpNames
