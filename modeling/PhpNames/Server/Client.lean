import PhpNames.Editor
import PhpNames.FileTree
import PhpNames.Server.Basic

/-!
The client as the server sees it, and the editor that it offers to commands.
-/

namespace PhpNames
namespace Server

/-- What the server can ask of the world around it. -/
class MonadClient (m : Type → Type) where
  /-- Sends a request and waits for the answer, which is absent when the request fails.
  Notifications may arrive while it waits. -/
  call (sent : Sent) : m (Option Json)
  send (sent : Sent) : m Unit
  readFile (path : Path) : m (Option Text)
  /-- The files at a path or below it, with their part below. -/
  filesBelow (root : Path) : m (List (Path × Text.Bytes))
  /-- A bound on the number of questions for a text that the client will still answer. -/
  patience : m Nat

/-- What a command knows of the server: settings and root are those of its start. -/
structure CommandContext where
  settings : Settings
  root : Option Path

def messageType (isError : Bool) : Json :=
  .ofNat (if isError then 1 else 3)

def applyEditRequest (uri : Text) (edits : List Edit) : Sent :=
  ⟨"workspace/applyEdit",
    .record [("edit",
      .record [("changes", .object [(some uri, .array (edits.map editJson))])])]⟩

def chooseRequest (options : List Text) : Sent :=
  ⟨"window/showMessageRequest",
    .record [("type", messageType false), ("message", .text "Select a class to use".toList),
      ("actions", .array (options.map fun option => .record [("title", .text option)]))]⟩

def askRequest (placeholder : Text) : Sent :=
  ⟨"phpNamespaceResolver/inputBox", .record [("placeholder", .text placeholder)]⟩

def notification (message : Text) (isError : Bool) : Sent :=
  ⟨"window/showMessage", .record [("type", messageType isError), ("message", .text message)]⟩

/-- How long a status message stays, in milliseconds. -/
def statusTimeout : Nat := 3000

def statusNotification (message : Text) : Sent :=
  ⟨"phpNamespaceResolver/statusMessage",
    .record [("message", .text message), ("timeout", .ofNat statusTimeout)]⟩

/-- Carries out a batch in the server's copy of a document, unless the client has sent a newer
version since version `before`. -/
def follow (server : Server) (uri : Text) (before : Option Int) (edits : List Edit) : Server :=
  match server.document? uri with
  | some known =>
      if some known.version = before then
        server.put uri { known with document := known.document.replaceAll edits }
      else server
  | none => server

def lines? (server : Server) (uri : Text) : Option (List Text) :=
  (server.document? uri).map (·.document.lines)

def openLines? (server : Server) (path : Path) : Option (List Text) :=
  (Uri.ofPath? path).bind server.lines?

variable {m : Type → Type} [Monad m] [MonadStateOf Server m] [MonadClient m]

def submitEdits (uri : Text) (edits : List Edit) : m Bool := do
  if Uri.isUri uri then
    let before := ((← getThe Server).document? uri).map (·.version)
    let answer ← MonadClient.call (applyEditRequest uri edits)
    let accepted := (answer.bind applied?).getD false
    if accepted then modifyThe Server (·.follow uri before edits)
    return accepted
  else return false

instance : MonadEditor (ReaderT CommandContext m) where
  settings := do return (← read).settings
  workspaceRoot := do return (← read).root
  documentLines uri := do return (← getThe Server).lines? uri
  candidateFiles name := do
    let context ← read
    match context.root with
    | none => return []
    | some root =>
        let files ← (MonadClient.filesBelow root : m _)
        return FileTree.named (name ++ ".php".toList)
          (Glob.exclusion? context.settings.exclude) files
  openFile path := do
    match (← getThe Server).openLines? path with
    | some lines => return some lines
    | none =>
        let text ← (MonadClient.readFile path : m _)
        return text.map fun text => (Document.mk text).lines
  chooseName options := do
    let answer ← (MonadClient.call (chooseRequest options) : m _)
    return (answer.bind picked?).join
  askText placeholder := do
    let answer ← (MonadClient.call (askRequest placeholder) : m _)
    return (answer.bind typed?).join
  patience := (MonadClient.patience : m Nat)
  applyEdits uri edits := (submitEdits uri edits : m Bool)
  notify message isError := (MonadClient.send (notification message isError) : m Unit)
  showStatus message := (MonadClient.send (statusNotification message) : m Unit)

end Server
end PhpNames
