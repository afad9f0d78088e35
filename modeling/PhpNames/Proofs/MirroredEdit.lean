import Mathlib.Logic.Relation
import PhpNames.Server.Script

/-!
A batch of edits that the client accepts, and the server's copy of the document.

While the server waits for the answer, changes of the client may arrive, in the order in which it
made them: those of the user, and in their midst what came of the batch. The server carries out the
batch in its copy only if no change has arrived. So the copy lacks the batch exactly if the user was
faster, and what came of the batch is still on its way.
-/

namespace PhpNames

/-! ### Changes as they are sent -/

namespace Json.Number

theorem value_of_to_digits (value : Nat) : valueOf (Nat.toDigits 10 value) = value := by
  have same : valueOf (Nat.toDigits 10 value) = Nat.ofDigitChars 10 (Nat.toDigits 10 value) 0 := by
    simp only [valueOf, Nat.ofDigitChars, Nat.mul_comm 10]
  rw [same, Nat.ofDigitChars_ten_toDigits]

theorem int?_of_int (value : Int) : (ofInt value).int? = some value := by
  have read := value_of_to_digits value.natAbs
  have plain : (ofInt value).int? =
      if decide (value < 0) then
        if value.natAbs = 0 then none else some (-(value.natAbs : Int))
      else some (value.natAbs : Int) := by
    rw [int?, ofInt, read]
    rfl
  rw [plain]
  by_cases negative : value < 0
  · have back : -(value.natAbs : Int) = value := by omega
    rw [if_pos (decide_eq_true negative), if_neg (by omega), back]
  · have back : (value.natAbs : Int) = value := by omega
    rw [if_neg (by simpa using negative), back]

end Json.Number

namespace Server

theorem required?_eq {Value : Type} {fields : Fields} {name : String} {item : Json}
    (found : fields name = some item) (read? : Json → Option Value) :
    required? fields name read? = read? item := by
  rw [required?, found, Option.bind_some]

def documentVersion (uri : Text) (revision : OpenDocument) : Json :=
  .record [("uri", .text uri), ("version", .ofInt revision.version)]

def fullChangeParams (uri : Text) (revision : OpenDocument) : Json :=
  .record [("textDocument", documentVersion uri revision),
    ("contentChanges", .array [.record [("text", .text revision.document.text)]])]

def FitsVersion (version : Int) : Prop :=
  -2147483648 ≤ version ∧ version ≤ 2147483647

instance (version : Int) : Decidable (FitsVersion version) :=
  inferInstanceAs (Decidable (_ ∧ _))

def fullChange (uri : Text) (revision : OpenDocument) : Message where
  method := "textDocument/didChange".toList
  params := some (fullChangeParams uri revision)

theorem changed_document?_full_change {uri : Text} {revision : OpenDocument}
    (isUri : Uri.isUri uri = true) (fits : FitsVersion revision.version) :
    changedDocument? (fullChangeParams uri revision) =
      some ⟨uri, revision.version, [⟨none, revision.document.text⟩]⟩ := by
  have readUri : uri? (.text uri) = some uri := Option.filter_eq_some_iff.mpr ⟨rfl, isUri⟩
  have readVersion : version? (.ofInt revision.version) = some revision.version :=
    Option.filter_eq_some_iff.mpr
      ⟨Json.Number.int?_of_int revision.version, by simpa [FitsVersion] using fits⟩
  have readChanges : list? contentChange?
      (.array [.record [("text", .text revision.document.text)]]) =
        some [⟨none, revision.document.text⟩] := rfl
  -- the parameters, and in them the document that they are about
  have params : recordFields? ["textDocument", "contentChanges"] 2 (fullChangeParams uri revision) =
      some (fullChangeParams uri revision).get? := rfl
  have document : (fullChangeParams uri revision).get? "textDocument" =
      some (documentVersion uri revision) := rfl
  have changes : (fullChangeParams uri revision).get? "contentChanges" =
      some (.array [.record [("text", .text revision.document.text)]]) := rfl
  have fields : recordFields? ["uri", "version"] 2 (documentVersion uri revision) =
      some (documentVersion uri revision).get? := rfl
  have identifier : (documentVersion uri revision).get? "uri" = some (.text uri) := rfl
  have version : (documentVersion uri revision).get? "version" =
      some (.ofInt revision.version) := rfl
  rw [changedDocument?, params]
  simp only [Option.bind_eq_bind, Option.bind_some, Option.pure_def, required?_eq document,
    required?_eq changes, fields, required?_eq identifier, required?_eq version, readUri,
    readVersion, readChanges]

/-! ### A copy of a document -/

theorem document?_put (server : Server) (other uri : Text) (document : OpenDocument) :
    (server.put other document).document? uri =
      if other = uri then some document else server.document? uri :=
  Entries.lookup_set other uri document server.documents

structure Holds (server : Server) (uri : Text) (copy : OpenDocument) : Prop where
  ready : server.phase = .ready
  copied : server.document? uri = some copy

variable {server : Server} {uri : Text} {copy revision : OpenDocument} {edits : List Edit}

theorem notified_did_change {changed : ChangedDocument} {params : Json} (server : Server)
    (read : changedDocument? params = some changed) :
    server.notified "textDocument/didChange" params = (server.change changed, []) := by
  simp only [notified, read]

theorem Holds.receive (holds : server.Holds uri copy) (isUri : Uri.isUri uri = true)
    (fits : FitsVersion revision.version) :
    (server.receive (fullChange uri revision)).1.Holds uri revision := by
  have noticed : (server.receive (fullChange uri revision)).1 = server.put uri revision := by
    have read := changed_document?_full_change isUri fits
    have named : String.ofList (fullChange uri revision).method = "textDocument/didChange" :=
      String.ofList_toList
    have given : (fullChange uri revision).params.getD .null = fullChangeParams uri revision := rfl
    rw [Server.receive, if_pos holds.ready, named, given, notified_did_change server read,
      Server.change, holds.copied]
    rfl
  rw [noticed]
  exact ⟨holds.ready, (document?_put server uri uri revision).trans (if_pos rfl)⟩

/-- The batch is carried out in the copy exactly if the copy is still of the same version. -/
theorem Holds.follow (holds : server.Holds uri copy) (before : Int) (edits : List Edit) :
    (server.follow uri (some before) edits).Holds uri
      (if copy.version = before then { copy with document := copy.document.replaceAll edits }
        else copy) := by
  rw [Server.follow, holds.copied]
  by_cases same : copy.version = before
  · simp only [same, if_true]
    exact ⟨holds.ready, (document?_put server uri uri _).trans (if_pos rfl)⟩
  · simp only [Option.some.injEq, same, if_false]
    exact holds

namespace Script

variable {script : Script}

theorem holds_deliver (holds : script.server.Holds uri copy) (isUri : Uri.isUri uri = true)
    (revisions : List OpenDocument) (fit : ∀ revision ∈ revisions, FitsVersion revision.version) :
    ((revisions.map (fullChange uri)).foldl deliver script).server.Holds uri
      (revisions.getLast?.getD copy) := by
  induction revisions generalizing script copy with
  | nil => exact holds
  | cons first rest induction =>
      obtain ⟨firstFits, restFit⟩ := List.forall_mem_cons.mp fit
      have delivered : (script.deliver (fullChange uri first)).server.Holds uri first :=
        holds.receive isUri firstFits
      rw [List.map_cons, List.foldl_cons, List.getLast?_cons, Option.getD_some]
      exact induction delivered restFit

theorem answer_cons {reply : Reply} {sent : Sent} (meant : reply.method = sent.method.toList) :
    { script with replies := reply :: script.replies }.answer sent =
      (reply.result, reply.before.foldl deliver (script.note [sent])) := by
  simp [answer, meant, note]

def accepting (script : Script) (uri : Text) (changes : List OpenDocument) : Script :=
  let reply : Reply :=
    { method := "workspace/applyEdit".toList
      before := changes.map (fullChange uri)
      result := some (.record [("applied", .bool true)]) }
  { script with replies := reply :: script.replies }

theorem submit_edits_accepted {answer : Json} {next : Script} (isUri : Uri.isUri uri = true)
    (answered : script.answer (applyEditRequest uri edits) = (some answer, next))
    (accepted : applied? answer = some true) :
    (submitEdits uri edits : StateM Script Bool).run script =
      (true, { next with
        server :=
          next.server.follow uri ((script.server.document? uri).map (·.version)) edits }) := by
  have known : (getThe Server : StateM Script Server).run script =
      pure (script.server, script) := rfl
  have asked : (MonadClient.call (applyEditRequest uri edits) : StateM Script (Option Json)).run
      script = pure (some answer, next) := answered
  simp only [submitEdits, isUri, if_true, StateT.run_bind, known, pure_bind, asked,
    Option.bind_some, accepted, Option.getD_some]
  rfl

/-- An accepted batch comes into the copy exactly if no change of the version has arrived. -/
theorem submit_edits_accepting (holds : script.server.Holds uri copy) (isUri : Uri.isUri uri = true)
    (changes : List OpenDocument) (fit : ∀ revision ∈ changes, FitsVersion revision.version)
    (edits : List Edit) :
    ∃ after, (submitEdits uri edits : StateM Script Bool).run (script.accepting uri changes) =
        (true, after) ∧
      after.server.Holds uri
        (if (changes.getLast?.getD copy).version = copy.version then
          { changes.getLast?.getD copy with
            document := (changes.getLast?.getD copy).document.replaceAll edits }
        else changes.getLast?.getD copy) := by
  have asked : (script.note [applyEditRequest uri edits]).server.Holds uri copy := holds
  have answered : (script.accepting uri changes).answer (applyEditRequest uri edits) =
      (some (.record [("applied", .bool true)]),
        (changes.map (fullChange uri)).foldl deliver (script.note [applyEditRequest uri edits])) :=
    answer_cons rfl
  have heard := holds_deliver asked isUri changes fit
  have before : ((script.accepting uri changes).server.document? uri).map (·.version) =
      some copy.version := by
    rw [accepting, holds.copied, Option.map_some]
  refine ⟨_, submit_edits_accepted isUri answered rfl, ?_⟩
  rw [before]
  exact heard.follow copy.version edits

end Script

/-! ### A client that carries out a batch -/

/-- A client from when the server submits a batch until its answer arrives. -/
structure Exchange where
  /-- The document as the client has it. -/
  client : OpenDocument
  /-- Changes that have been sent and have not arrived. -/
  underWay : List OpenDocument
  arrived : List OpenDocument := []
  /-- What came of the batch, once the client has carried it out. -/
  edited : Option OpenDocument := none

namespace Exchange

def changes (exchange : Exchange) : List OpenDocument :=
  exchange.arrived ++ exchange.underWay

def send (exchange : Exchange) (revision : OpenDocument) : Exchange :=
  { exchange with client := revision, underWay := exchange.underWay ++ [revision] }

/-- What can happen meanwhile: the user changes the document, the client carries out the batch in
what it has, or the next change arrives. -/
inductive Step (edits : List Edit) : Exchange → Exchange → Prop
  | change {exchange : Exchange} (revision : OpenDocument)
      (newer : exchange.client.version < revision.version) (fits : FitsVersion revision.version) :
      Step edits exchange (exchange.send revision)
  | carryOut {exchange : Exchange} (version : Int) (pending : exchange.edited = none)
      (newer : exchange.client.version < version) (fits : FitsVersion version) :
      Step edits exchange
        { exchange.send ⟨exchange.client.document.replaceAll edits, version⟩ with
          edited := some ⟨exchange.client.document.replaceAll edits, version⟩ }
  | arrive {exchange : Exchange} {first : OpenDocument} {rest : List OpenDocument}
      (next : exchange.underWay = first :: rest) :
      Step edits exchange { exchange with underWay := rest, arrived := exchange.arrived ++ [first] }

structure Since (old : OpenDocument) (exchange : Exchange) : Prop where
  ordered : (old :: exchange.changes).Pairwise fun earlier later => earlier.version < later.version
  latest : (old :: exchange.changes).getLast? = some exchange.client
  fit : ∀ revision ∈ exchange.changes, FitsVersion revision.version
  sent : ∀ revision ∈ exchange.edited, revision ∈ exchange.changes

variable {old revision : OpenDocument} {exchange next : Exchange} {edits : List Edit}

theorem changes_send (exchange : Exchange) (revision : OpenDocument) :
    (exchange.send revision).changes = exchange.changes ++ [revision] := by
  simp [changes, send]

theorem version_le_latest {revisions : List OpenDocument} {latest : OpenDocument}
    (ordered : revisions.Pairwise fun earlier later => earlier.version < later.version)
    (last : revisions.getLast? = some latest) (member : revision ∈ revisions) :
    revision.version ≤ latest.version := by
  obtain ⟨front, rfl⟩ := List.getLast?_eq_some_iff.mp last
  rw [List.pairwise_append] at ordered
  rcases List.mem_append.mp member with earlier | same
  · exact Int.le_of_lt (ordered.2.2 revision earlier latest (List.mem_singleton.mpr rfl))
  · exact Int.le_of_eq (congrArg (·.version) (List.mem_singleton.mp same))

theorem Since.send (since : exchange.Since old)
    (newer : exchange.client.version < revision.version) (fits : FitsVersion revision.version) :
    (exchange.send revision).Since old where
  ordered := by
    rw [changes_send, ← List.cons_append, List.pairwise_append]
    refine ⟨since.ordered, List.pairwise_singleton _ _, ?_⟩
    intro earlier member later inLast
    rw [List.mem_singleton.mp inLast]
    exact Int.lt_of_le_of_lt (version_le_latest since.ordered since.latest member) newer
  latest := by
    rw [changes_send, ← List.cons_append, List.getLast?_concat]
    rfl
  fit := by
    rw [changes_send]
    exact List.forall_mem_append.mpr ⟨since.fit, List.forall_mem_singleton.mpr fits⟩
  sent other isEdited := by
    rw [changes_send]
    exact List.mem_append_left _ (since.sent other isEdited)

theorem Since.step (since : exchange.Since old) (step : Step edits exchange next) :
    next.Since old := by
  cases step with
  | change revision newer fits => exact since.send newer fits
  | carryOut version pending newer fits =>
      have sent : (exchange.send ⟨exchange.client.document.replaceAll edits, version⟩).Since old :=
        since.send newer fits
      refine ⟨sent.ordered, sent.latest, sent.fit, ?_⟩
      intro revision isEdited
      obtain rfl := Option.some.inj isEdited
      change _ ∈ (exchange.send _).changes
      rw [changes_send]
      exact List.mem_append_right _ (List.mem_singleton.mpr rfl)
  | @arrive first rest next =>
      have same : exchange.changes =
          changes { exchange with underWay := rest, arrived := exchange.arrived ++ [first] } := by
        simp [changes, next]
      exact ⟨same ▸ since.ordered, same ▸ since.latest, same ▸ since.fit, same ▸ since.sent⟩

theorem Since.run {start : Exchange} (since : start.Since old)
    (run : Relation.ReflTransGen (Step edits) start exchange) : exchange.Since old := by
  induction run with
  | refl => exact since
  | tail _ step induction => exact induction.step step

/-- Whether a copy has the batch that became `edited`: it is the old copy with the batch carried
out, or what the client had then or later. -/
def HasEdit (exchange : Exchange) (old : OpenDocument) (edits : List Edit)
    (edited copy : OpenDocument) : Prop :=
  copy = { old with document := old.document.replaceAll edits } ∨
    copy ∈ exchange.changes ∧ edited.version ≤ copy.version

/-- The copy of a server that has heard of all that arrived, and has the batch if nothing did. -/
def copyAfter (exchange : Exchange) (old : OpenDocument) (edits : List Edit) : OpenDocument :=
  exchange.arrived.getLast?.getD { old with document := old.document.replaceAll edits }

theorem Since.newer_of_mem_arrived (since : exchange.Since old)
    (member : revision ∈ exchange.arrived) : old.version < revision.version :=
  (List.pairwise_cons.mp since.ordered).1 revision (List.mem_append_left _ member)

theorem Since.has_edit_copy_after_iff (since : exchange.Since old) {edited : OpenDocument}
    (isEdited : exchange.edited = some edited) :
    exchange.HasEdit old edits edited (exchange.copyAfter old edits) ↔
      exchange.arrived = [] ∨ edited ∈ exchange.arrived := by
  have ordered := (List.pairwise_cons.mp since.ordered).2
  cases last : exchange.arrived.getLast? with
  | none =>
      have nothing := List.getLast?_eq_none_iff.mp last
      apply iff_of_true _ (Or.inl nothing)
      rw [copyAfter, last]
      exact Or.inl rfl
  | some latest =>
      have arrived : latest ∈ exchange.arrived := List.mem_of_getLast? last
      rw [copyAfter, last, Option.getD_some]
      rw [changes, List.pairwise_append] at ordered
      constructor
      · rintro (mirrored | ⟨-, notBefore⟩)
        · -- the mirrored copy would still have the old version
          have newer := since.newer_of_mem_arrived arrived
          rw [mirrored] at newer
          exact absurd newer (Int.lt_irrefl _)
        · right
          rcases List.mem_append.mp (since.sent edited isEdited) with here | underWay
          · exact here
          · -- what is under way is newer than all that has arrived
            have behind := ordered.2.2 latest arrived edited underWay
            omega
      · rintro (nothing | here)
        · exact absurd nothing (List.ne_nil_of_mem arrived)
        · exact Or.inr ⟨List.mem_append_left _ arrived, version_le_latest ordered.1 last here⟩

end Exchange

open Exchange

/-- When a server goes on after an accepted batch, its copy has the batch exactly if nothing has
arrived meanwhile, or what came of the batch has. -/
theorem submit_edits_has_edit_iff (script : Script) (uri : Text) (edits : List Edit)
    (old client edited : OpenDocument) (underWay : List OpenDocument) (exchange : Exchange)
    (holds : script.server.Holds uri old) (isUri : Uri.isUri uri = true)
    (since : Since old { client, underWay })
    (run : Relation.ReflTransGen (Step edits) { client, underWay } exchange)
    (isEdited : exchange.edited = some edited) :
    ∃ after copy, (submitEdits uri edits : StateM Script Bool).run
        (script.accepting uri exchange.arrived) = (true, after) ∧
      after.server.document? uri = some copy ∧ copy = exchange.copyAfter old edits ∧
      (exchange.HasEdit old edits edited copy ↔
        exchange.arrived = [] ∨ edited ∈ exchange.arrived) := by
  have now := since.run run
  have fit : ∀ revision ∈ exchange.arrived, FitsVersion revision.version :=
    fun revision member => now.fit revision (List.mem_append_left _ member)
  obtain ⟨after, ran, known⟩ := Script.submit_edits_accepting holds isUri exchange.arrived fit edits
  refine ⟨after, exchange.copyAfter old edits, ran, ?_, rfl, now.has_edit_copy_after_iff isEdited⟩
  rw [known.copied, copyAfter]
  cases last : exchange.arrived.getLast? with
  | none => simp
  | some latest =>
      have newer := now.newer_of_mem_arrived (List.mem_of_getLast? last)
      rw [Option.getD_some, Option.getD_some, if_neg (by omega)]

/-! ### A user who types while a batch is on its way -/

def typedUri : Text := "file:///a.php".toList

def beforeTyping : OpenDocument := ⟨⟨"<?php\nnew Closure;".toList⟩, 1⟩

def afterTyping : OpenDocument := ⟨⟨"<?php\nnew Closure;\n// typed".toList⟩, 2⟩

def typedBatch : List Edit := [Edit.insert ⟨1, 0⟩ "use Closure;\n".toList]

def typedAndEdited : OpenDocument := ⟨afterTyping.document.replaceAll typedBatch, 3⟩

def untyped : Script :=
  { server := { phase := .ready, documents := [(typedUri, beforeTyping)] } }

theorem holds_untyped : untyped.server.Holds typedUri beforeTyping :=
  ⟨rfl, List.lookup_cons_self⟩

theorem since_before_typing : Since beforeTyping { client := beforeTyping, underWay := [] } where
  ordered := List.pairwise_singleton _ _
  latest := rfl
  fit := by simp [changes]
  sent := by simp

/-- The user types, the client carries out the batch, and the first of the two changes arrives. -/
theorem run_typing : Relation.ReflTransGen (Step typedBatch)
    { client := beforeTyping, underWay := [] }
    { client := typedAndEdited, underWay := [typedAndEdited], arrived := [afterTyping],
      edited := some typedAndEdited } := by
  have typed : Step typedBatch { client := beforeTyping, underWay := [] }
      { client := afterTyping, underWay := [afterTyping] } :=
    .change afterTyping (by decide) (by decide)
  have carriedOut : Step typedBatch { client := afterTyping, underWay := [afterTyping] }
      { client := typedAndEdited, underWay := [afterTyping, typedAndEdited],
        edited := some typedAndEdited } :=
    .carryOut 3 rfl (by decide) (by decide)
  exact ((Relation.ReflTransGen.single typed).tail carriedOut).tail (.arrive rfl)

theorem submit_edits_has_edit_iff_both_arrived :
    ∃ after copy, (submitEdits typedUri typedBatch : StateM Script Bool).run
        (untyped.accepting typedUri [afterTyping, typedAndEdited]) = (true, after) ∧
      after.server.document? typedUri = some copy ∧
      HasEdit ⟨typedAndEdited, [], [afterTyping, typedAndEdited], some typedAndEdited⟩
        beforeTyping typedBatch typedAndEdited copy := by
  obtain ⟨after, copy, ran, known, -, has⟩ := submit_edits_has_edit_iff untyped typedUri typedBatch
    beforeTyping beforeTyping typedAndEdited []
    ⟨typedAndEdited, [], [afterTyping, typedAndEdited], some typedAndEdited⟩ holds_untyped
    (by decide) since_before_typing (run_typing.tail (.arrive rfl)) rfl
  exact ⟨after, copy, ran, known, has.mpr (Or.inr (by simp))⟩

/-- With the typing in the copy and the batch still on its way, the batch is missing. -/
theorem submit_edits_misses_edit_after_typing :
    Relation.ReflTransGen (Step typedBatch) { client := beforeTyping, underWay := [] }
        ⟨typedAndEdited, [typedAndEdited], [afterTyping], some typedAndEdited⟩ ∧
      ∃ after, (submitEdits typedUri typedBatch : StateM Script Bool).run
          (untyped.accepting typedUri [afterTyping]) = (true, after) ∧
        after.server.document? typedUri = some afterTyping ∧
        ¬ HasEdit ⟨typedAndEdited, [typedAndEdited], [afterTyping], some typedAndEdited⟩
          beforeTyping typedBatch typedAndEdited afterTyping := by
  have now := since_before_typing.run run_typing
  obtain ⟨after, ran, known⟩ := Script.submit_edits_accepting holds_untyped (by decide)
    [afterTyping] (by decide) typedBatch
  refine ⟨run_typing, after, ran, known.copied, ?_⟩
  intro has
  rcases (now.has_edit_copy_after_iff rfl).mp has with nothing | arrived
  · cases nothing
  · revert arrived
    decide

end Server
end PhpNames
