import PhpNames.Proofs.ImportRuns

/-!
The batches that a command hands to the editor in memory.

The calls of a command are in the record of the editor, and its documents afterwards are the ones
before with the accepted batches carried out. What a command is told is what the script says.
-/

namespace PhpNames

open Commands

def Event.call? : Event → Option Call
  | .edits uri batch isAccepted => some ⟨uri, batch, isAccepted⟩
  | _ => none

def Call.carryOut (documents : List (Text × Document)) (call : Call) : List (Text × Document) :=
  match call.isAccepted, documents.lookup call.uri with
  | true, some document => Entries.set call.uri (document.replaceAll call.batch) documents
  | _, _ => documents

namespace Workbench

def calls (bench : Workbench) : List Call :=
  bench.events.filterMap Event.call?

def AcceptsAll (bench : Workbench) : Prop :=
  ∀ isAccepted ∈ bench.accept, isAccepted = true

instance (bench : Workbench) : Decidable bench.AcceptsAll :=
  List.decidableBAll (· = true) bench.accept

/-- An editor in memory to which some batches have been handed. -/
structure Makes (bench : Workbench) (made : List Call) (after : Workbench) : Prop where
  reached : Reaches bench after
  calls : after.calls = bench.calls ++ made
  documents : after.documents = made.foldl Call.carryOut bench.documents
  willing : bench.AcceptsAll → ∀ call ∈ made, call.isAccepted = true

variable {bench between after : Workbench} {made more : List Call}

theorem Makes.refl (bench : Workbench) : bench.Makes [] bench where
  reached := .refl
  calls := (List.append_nil _).symm
  documents := rfl
  willing _ := by simp

theorem Makes.accepts_all (makes : bench.Makes made after) (accepts : bench.AcceptsAll) :
    after.AcceptsAll :=
  fun isAccepted scripted =>
    accepts isAccepted ((reached_continues makes.reached).accept.subset scripted)

theorem Makes.trans (first : bench.Makes made between) (second : between.Makes more after) :
    bench.Makes (made ++ more) after where
  reached := first.reached.trans second.reached
  calls := by rw [second.calls, first.calls, List.append_assoc]
  documents := by rw [second.documents, first.documents, List.foldl_append]
  willing accepts call member := by
    rcases List.mem_append.mp member with early | late
    · exact first.willing accepts call early
    · exact second.willing (first.accepts_all accepts) call late

theorem Makes.quietly (first : bench.Makes made between) (second : between.Makes [] after) :
    bench.Makes made after :=
  List.append_nil made ▸ first.trans second

theorem Makes.settings (makes : bench.Makes made after) : after.settings = bench.settings :=
  settings_reached makes.reached

theorem Makes.document? (makes : bench.Makes [] after) (uri : Text) :
    after.document? uri = bench.document? uri := by
  rw [Workbench.document?, makes.documents]
  rfl

theorem Makes.answers (makes : bench.Makes made after) : after.answers ⊆ bench.answers :=
  (reached_continues makes.reached).answers.subset

theorem makes_note (event : Event) (noCall : event.call? = none)
    (reached : Reaches bench after) (documents : after.documents = bench.documents)
    (events : after.events = bench.events ++ [event]) : bench.Makes [] after where
  reached := reached
  calls := by simp [Workbench.calls, events, noCall]
  documents := documents
  willing _ := by simp

theorem makes_request {α : Type} (request : Request α) (quiet : request.isQuiet = true)
    (bench : Workbench) : bench.Makes [] ((request.perform : StateM Workbench α).run bench).2 := by
  have reached : Reaches bench ((request.perform : StateM Workbench α).run bench).2 :=
    .step .refl request
  cases request with
  | settings => exact .refl bench
  | workspaceRoot => exact .refl bench
  | documentLines uri => exact .refl bench
  | patience => exact .refl bench
  | candidateFiles name => cases quiet
  | openFile path => exact makes_note (.openFile path) rfl reached rfl rfl
  | chooseName options => exact makes_note (.choose options) rfl reached rfl rfl
  | askText placeholder => exact makes_note (.ask placeholder) rfl reached rfl rfl
  | applyEdits uri edits => cases quiet
  | notify message isError => exact makes_note (.notify message isError) rfl reached rfl rfl
  | showStatus message => exact makes_note (.status message) rfl reached rfl rfl

theorem edit_documents (bench : Workbench) (uri : Text) (batch : List Edit) :
    (bench.edit uri batch).documents = Call.carryOut bench.documents ⟨uri, batch, true⟩ := by
  unfold edit
  cases found : bench.document? uri with
  | none =>
      simp only [document?] at found
      simp [Call.carryOut, found]
  | some document =>
      simp only [document?] at found
      simp [Call.carryOut, found, put]

theorem edit_note (bench : Workbench) (uri : Text) (batch : List Edit) :
    (bench.edit uri batch).events = bench.events := by
  unfold edit
  split
  · rfl
  · rfl

theorem makes_submit (bench : Workbench) (uri : Text) (batch : List Edit) :
    bench.Makes [⟨uri, batch, (bench.submit uri batch).1⟩] (bench.submit uri batch).2 where
  reached := .step .refl (.applyEdits uri batch)
  calls := by
    unfold submit
    split
    · simp [Workbench.calls, decided, note, Event.call?]
    · simp [Workbench.calls, edit_note, decided, note, Event.call?]
  documents := by
    unfold submit
    split
    · rfl
    · exact edit_documents _ _ _
  willing accepts := by
    have accepted : (bench.submit uri batch).1 = true := accepts_reached uri accepts .refl batch
    simpa using accepted

theorem makes_of_trace {uri : Text} {looked : Text → Prop}
    (trace : Trace uri looked bench made after) : bench.Makes made after := by
  induction trace with
  | refl => exact .refl bench
  | ask _ request quiet induction => exact induction.quietly (makes_request request quiet _)
  | @search _ between _ name allowed induction =>
      have searched : between.Makes [] _ :=
        makes_note (.find name) rfl (.step .refl (.candidateFiles name)) rfl rfl
      exact induction.quietly searched
  | submit _ batch induction => exact induction.trans (makes_submit _ uri batch)

theorem document?_of_trace {looked : Text → Prop} (trace : Trace uri looked bench made after)
    (opened : bench.document? uri = some document) :
    after.document? uri = some (made.foldl Call.write document) := by
  have present : ((faithful uri).desk bench).document = some document := opened
  exact trace.document_eq present

theorem makes_of_questions (asked : Questions bench after) : bench.Makes [] after :=
  makes_of_trace (Trace.of_questions asked : Trace [] (fun _ => False) bench [] after)

/-! ### What the script says -/

open FaithfulEditor Job

variable {uri : Text} {document : Document}

theorem told_eq {settings : Settings} (told : Told bench settings) :
    settings = bench.settings := by
  obtain ⟨asked, reached, rfl⟩ := told
  exact settings_reached reached

theorem mem_answers_of_types {otherName : Text} (types : Types bench otherName) :
    some otherName ∈ bench.answers := by
  obtain ⟨asked, reached, typed⟩ := types
  have next : some otherName ∈ asked.answers :=
    List.mem_of_mem_head? (Option.join_eq_some_iff.mp typed)
  exact (reached_continues reached).answers.subset next

theorem hands_of_follows {result : Except ResolveError Unit}
    (follows : Follows bench uri document result made) :
    Hands uri (document.followUp? bench.settings) result made := by
  obtain ⟨settings, told, hands⟩ := follows
  rwa [told_eq told] at hands

theorem ends_auto_sort (opened : bench.document? uri = some document) :
    ends (autoSort uri : Job Workbench Unit) bench =
      ends (handOver uri (document.followUp? bench.settings)) bench := by
  have present : ((faithful uri).desk bench).document = some document := opened
  have stays : (if (settingsAt bench).autoSort then askedSettings (askedSettings bench)
      else askedSettings bench) = bench := ite_self bench
  rw [FaithfulEditor.ends_auto_sort present, stays]
  rfl

end Workbench
end PhpNames
