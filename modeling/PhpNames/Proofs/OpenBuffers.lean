import PhpNames.Proofs.MirroredEdit
import PhpNames.Proofs.UriRoundTrip

/-!
Which document a command reads at a path.

The server knows its documents by the URIs that the client uses. A command looks for the document at
a path by the URI that the server itself gives that path. So it reads the copy of an open document
exactly if the client uses the same spelling, and the file otherwise.
-/

namespace PhpNames
namespace Server

/-! ### The history of a document -/

def receiveAll (server : Server) (messages : List Message) : Server :=
  messages.foldl (fun server message => (server.receive message).1) server

/-- What a notification makes of the copy of one document, if there is one. -/
def Message.revise (message : Message) (uri : Text) (copy : Option OpenDocument) :
    Option OpenDocument :=
  let params := message.params.getD .null
  match String.ofList message.method with
  | "textDocument/didOpen" =>
      match openedDocument? params with
      | some opened => if opened.uri = uri then some ⟨⟨opened.text⟩, opened.version⟩ else copy
      | none => copy
  | "textDocument/didChange" =>
      match changedDocument? params with
      | some changed =>
          if changed.uri = uri then
            copy.map fun known =>
              ⟨changed.changes.foldl ContentChange.apply known.document, changed.version⟩
          else copy
      | none => copy
  | "textDocument/didClose" =>
      match closedDocument? params with
      | some closed => if closed = uri then none else copy
      | none => copy
  | _ => copy

/-- The copy of a document that the client's notifications about it leave. -/
def history (uri : Text) (messages : List Message) : Option OpenDocument :=
  messages.foldl (fun copy message => message.revise uri copy) none

theorem document?_remove (server : Server) (closed uri : Text) :
    (server.remove closed).document? uri =
      if closed = uri then none else server.document? uri := by
  rw [document?, document?, remove]
  induction server.documents with
  | nil => simp
  | cons entry rest induction =>
      obtain ⟨known, document⟩ := entry
      by_cases same : known = closed
      · rw [List.filter_cons_of_neg (by simp [same]), induction, Entries.lookup_cons, same]
        split <;> rfl
      · rw [List.filter_cons_of_pos (by simp [same]), Entries.lookup_cons, Entries.lookup_cons,
          induction]
        split
        · rename_i isUri
          rw [if_neg fun isClosed => same (isUri.trans isClosed.symm)]
        · rfl

theorem document?_change (server : Server) (changed : ChangedDocument) (uri : Text) :
    (server.change changed).document? uri =
      if changed.uri = uri then
        (server.document? uri).map fun known =>
          ⟨changed.changes.foldl ContentChange.apply known.document, changed.version⟩
      else server.document? uri := by
  by_cases same : changed.uri = uri
  · rw [if_pos same, ← same, change]
    cases known : server.document? changed.uri with
    | none => exact known
    | some copy => exact (document?_put server changed.uri changed.uri _).trans (if_pos rfl)
  · rw [if_neg same, change]
    split
    · rw [document?_put, if_neg same]
    · rfl

/-- A notification concerns the document that it names, and no other. -/
theorem document?_receive {server : Server} (ready : server.phase = .ready) (message : Message)
    (uri : Text) :
    (server.receive message).1.document? uri = message.revise uri (server.document? uri) := by
  rw [receive, if_pos ready, Message.revise]
  generalize message.params.getD .null = params
  generalize String.ofList message.method = method
  unfold notified
  split
  · split <;> rfl
  · cases openedDocument? params with
    | none => rfl
    | some opened => exact document?_put server opened.uri uri _
  · cases changedDocument? params with
    | none => rfl
    | some changed => exact document?_change server changed uri
  · cases closedDocument? params with
    | none => rfl
    | some closed => exact document?_remove server closed uri
  · cases changedConfiguration? params with
    | none => rfl
    | some configuration => rfl
  · rfl
  · rename_i notOpened notChanged notClosed _ _
    split
    · exact absurd rfl notOpened
    · exact absurd rfl notChanged
    · exact absurd rfl notClosed
    · rfl

theorem ready_of_receive {server : Server} {message : Message}
    (ready : (server.receive message).1.phase = .ready) : server.phase = .ready := by
  by_contra waiting
  rw [receive, if_neg waiting] at ready
  exact waiting ready

theorem document?_foldl_receive {server : Server} {messages : List Message}
    (ready : (server.receiveAll messages).phase = .ready) (uri : Text) :
    server.phase = .ready ∧ (server.receiveAll messages).document? uri =
      messages.foldl (fun copy message => message.revise uri copy) (server.document? uri) := by
  induction messages generalizing server with
  | nil => exact ⟨ready, rfl⟩
  | cons message rest induction =>
      obtain ⟨later, known⟩ := induction ready
      have now := ready_of_receive later
      refine ⟨now, ?_⟩
      rw [List.foldl_cons, ← document?_receive now]
      exact known

/-- The copies of a server are those that the histories of the documents leave. -/
theorem document?_receive_all {server : Server} {messages : List Message}
    (ready : (server.receiveAll messages).phase = .ready) (fresh : server.documents = [])
    (uri : Text) : (server.receiveAll messages).document? uri = history uri messages := by
  have nothing : server.document? uri = none := by
    rw [document?, fresh]
    rfl
  rw [(document?_foldl_receive ready uri).2, nothing]
  rfl

/-! ### What a command reads -/

def linesAt (script : Script) (context : CommandContext) (path : Path) : Option (List Text) :=
  (((MonadEditor.openFile path : ReaderT CommandContext (StateM Script) _).run context).run
    script).1

def linesOnDisk (files : FileTree) (path : Path) : Option (List Text) :=
  (files.read? path).map fun text => Document.lines ⟨text⟩

theorem lines_on_disk_empty (path : Path) : linesOnDisk {} path = none := by
  rw [linesOnDisk, FileTree.read?]
  cases FileTree.locate? {} path with
  | none => rfl
  | some place => rfl

theorem lines_at_eq (script : Script) (context : CommandContext) (path : Path) :
    linesAt script context path =
      (script.server.openLines? path).or (linesOnDisk script.files path) := by
  have asked : ((getThe Server : ReaderT CommandContext (StateM Script) Server).run context).run
      script = pure (script.server, script) := rfl
  simp only [linesAt, MonadEditor.openFile, ReaderT.run_bind, StateT.run_bind, asked, pure_bind]
  cases script.server.openLines? path with
  | none => rfl
  | some lines => rfl

/-- Which copy a command reads at the path of an open document: the one under the URI that the
server gives that path, and it reads a copy only if there is that one. -/
theorem lines_at_reads_canonical_copy (start : Server) (messages : List Message)
    (fresh : start.documents = []) (ready : (start.receiveAll messages).phase = .ready)
    (uri : Text) (copy : OpenDocument) (path : Path) (isOpen : history uri messages = some copy)
    (names : Uri.toPath? uri = some path) :
    ∃ canonical, Uri.ofPath? path = some canonical ∧
      (Path.Component.parent ∉ path.components →
        ∃ named, Uri.toPath? canonical = some named ∧ named.same path = true) ∧
      (∀ script context, script.server = start.receiveAll messages →
        linesAt script context path =
          ((history canonical messages).map (·.document.lines)).or
            (linesOnDisk script.files path)) ∧
      ((∃ lines, ∀ script context, script.server = start.receiveAll messages →
          linesAt script context path = some lines) ↔
        (history canonical messages).isSome) ∧
      (uri = canonical → ∀ script context, script.server = start.receiveAll messages →
        linesAt script context path = some copy.document.lines) := by
  obtain ⟨rest, absolute⟩ := Uri.absolute_of_to_path? names
  obtain ⟨canonical, given⟩ := Uri.exists_of_path? absolute
  have reads : ∀ script context, script.server = start.receiveAll messages →
      linesAt script context path =
        ((history canonical messages).map (·.document.lines)).or
          (linesOnDisk script.files path) := by
    intro script context known
    rw [lines_at_eq, openLines?, given, Option.bind_some, lines?, known,
      document?_receive_all ready fresh]
  refine ⟨canonical, given, Uri.exists_to_path?_of_path? absolute given, reads, ?_, ?_⟩
  · constructor
    · rintro ⟨lines, always⟩
      -- on an empty disk there is nothing else to read
      have emptyDisk := always { server := start.receiveAll messages } ⟨{}, none⟩ rfl
      rw [reads _ _ rfl] at emptyDisk
      cases found : history canonical messages with
      | some known => rfl
      | none =>
          rw [found, lines_on_disk_empty] at emptyDisk
          cases emptyDisk
    · intro found
      obtain ⟨known, found⟩ := Option.isSome_iff_exists.mp found
      refine ⟨known.document.lines, fun script context same => ?_⟩
      rw [reads script context same, found]
      rfl
  · rintro rfl script context same
    rw [reads script context same, isOpen]
    rfl

/-! ### Two spellings of one path -/

def opening (uri text : Text) : Message where
  method := "textDocument/didOpen".toList
  params := some (.record [("textDocument",
    .record [("uri", .text uri), ("languageId", .text "php".toList), ("version", .ofNat 1),
      ("text", .text text)])])

def escapedUri : Text := "file:///%61".toList

def plainUri : Text := "file:///a".toList

def lettered : Path := Path.ofText "/a".toList

def olderFiles : FileTree := ⟨[([Text.utf8 "a".toList], Text.utf8 "old".toList)]⟩

theorem lines_at_reads_canonical_copy_both_spellings :
    linesAt
        { server := receiveAll { phase := .ready }
            [opening escapedUri "escaped".toList, opening plainUri "plain".toList]
          files := olderFiles }
        ⟨{}, none⟩ lettered = some ["plain".toList] := by
  have names : Uri.toPath? escapedUri = some lettered := by decide +kernel
  have isOpen : history escapedUri
      [opening escapedUri "escaped".toList, opening plainUri "plain".toList] =
        some ⟨⟨"escaped".toList⟩, 1⟩ := by decide +kernel
  have alsoOpen : history plainUri
      [opening escapedUri "escaped".toList, opening plainUri "plain".toList] =
        some ⟨⟨"plain".toList⟩, 1⟩ := by decide +kernel
  have given : Uri.ofPath? lettered = some plainUri := by decide +kernel
  obtain ⟨canonical, same, -, reads, -, -⟩ := lines_at_reads_canonical_copy { phase := .ready }
    [opening escapedUri "escaped".toList, opening plainUri "plain".toList] rfl (by decide +kernel)
    escapedUri _ lettered isOpen names
  obtain rfl := Option.some.inj (given.symm.trans same)
  rw [reads _ _ rfl, alsoOpen]
  rfl

/-- A document that is open under an escaped URI only is read off the disk. -/
theorem lines_at_misses_escaped_copy :
    history escapedUri [opening escapedUri "new".toList] = some ⟨⟨"new".toList⟩, 1⟩ ∧
      Uri.toPath? escapedUri = some lettered ∧
      linesAt
          { server := receiveAll { phase := .ready } [opening escapedUri "new".toList]
            files := olderFiles }
          ⟨{}, none⟩ lettered = some ["old".toList] := by
  decide +kernel

end Server
end PhpNames
