import PhpNames.Commands
import PhpNames.Server.Client

/-!
Answers to the messages of a client.
-/

namespace PhpNames
namespace Server

inductive RpcError where
  | notInitialized
  | invalidRequest
  | unknownMethod
  | invalidParams
  /-- A command that cannot be started, and why. -/
  | command (reason : Text)
  deriving DecidableEq, Repr

def RpcError.code : RpcError → Int
  | .notInitialized => -32002
  | .invalidRequest => -32600
  | .unknownMethod => -32601
  | .invalidParams => -32602
  | .command _ => -32602

def RpcError.message : RpcError → Text
  | .notInitialized => "Server not initialized".toList
  | .invalidRequest => "Invalid request".toList
  | .unknownMethod => "Method not found".toList
  | .invalidParams => "Invalid params".toList
  | .command reason => reason

inductive Answer where
  | nothing
  | exited
  | result (value : Json)
  | failure (error : RpcError)

/-! ### Commands -/

inductive Command where
  | importClass
  | importAll
  | expand
  | sort
  | generateNamespace
  deriving DecidableEq, Repr

namespace Command

def all : List Command :=
  [.importClass, .importAll, .expand, .sort, .generateNamespace]

def name : Command → String
  | .importClass => "namespaceResolver.import"
  | .importAll => "namespaceResolver.importAll"
  | .expand => "namespaceResolver.expand"
  | .sort => "namespaceResolver.sort"
  | .generateNamespace => "namespaceResolver.generateNamespace"

def ofName? (name : Text) : Option Command :=
  all.find? (·.name.toList == name)

def run {m : Type → Type} [Monad m] [MonadEditor m] (command : Command) (uri : Text)
    (positions : List Position) : m Unit :=
  match command with
  | .importClass => Commands.importSelections uri positions
  | .importAll => Commands.importAll uri
  | .expand => Commands.expandSelections uri positions
  | .sort => Commands.sortCommand uri
  | .generateNamespace => Commands.generateNamespaceCommand uri

end Command

def requestedCommand (name : Text) (arguments : List Json) :
    Except RpcError (Command × Text × List Position) :=
  match Command.ofName? name with
  | none => .error (.command ("Unknown command: ".toList ++ name))
  | some command =>
      match arguments.head? with
      | none => .error (.command "Missing command arguments".toList)
      | some argument =>
          match commandArguments? argument with
          | some (uri, positions) => .ok (command, uri, positions)
          | none => .error (.command "Invalid command arguments".toList)

/-! ### Code actions -/

def codeAction (title kind : String) (command : Command) (arguments : Json) : Json :=
  .record [("title", .text title.toList), ("kind", .text kind.toList),
    ("command",
      .record [("title", .text title.toList), ("command", .text command.name.toList),
        ("arguments", .array [arguments])])]

def codeActions (uri : Text) (position : Position) (onWord : Bool) : Json :=
  let arguments : Json :=
    .record [("uri", .text uri), ("positions", .array [positionJson position])]
  let ofWord :=
    if onWord then
      [codeAction "Import class" "refactor" .importClass arguments,
        codeAction "Expand class" "refactor" .expand arguments]
    else []
  .array (ofWord ++
    [codeAction "Import all classes" "source" .importAll arguments,
      codeAction "Sort imports" "source" .sort arguments,
      codeAction "Generate namespace for this file" "source" .generateNamespace arguments])

def codeActionsAt (server : Server) (uri : Text) (position : Position) : Json :=
  match server.document? uri with
  | some known => codeActions uri position (known.document.wordAt? position).isSome
  | none => .null

/-! ### Start -/

def capabilities : Json :=
  .record [("capabilities",
      .record [
        ("textDocumentSync", .record [("openClose", .bool true), ("change", .ofNat 1)]),
        ("codeActionProvider", .bool true),
        ("executeCommandProvider",
          .record [("commands",
            .array (Command.all.map fun command => .text command.name.toList))])]),
    ("serverInfo",
      .record [("name", .text "php-nsr".toList), ("version", .text "0.1.0".toList)])]

def started (server : Server) (params : InitializeParams) : Server :=
  let rooted := { server with phase := .ready, root := params.root?.or server.root }
  match params.options with
  | some options => rooted.configure options
  | none => rooted

/-! ### Messages -/

/-- Why a server that is not ready refuses a request. -/
def refusal (phase : Phase) : RpcError :=
  if phase = .starting then .notInitialized else .invalidRequest

variable {m : Type → Type} [Monad m] [MonadStateOf Server m] [MonadClient m]

def answerInitialize (params : Option Json) : m Answer := do
  if (← getThe Server).phase ≠ .starting then return .failure .invalidRequest
  match params.bind initializeParams? with
  | some params =>
      modifyThe Server (·.started params)
      return .result capabilities
  | none => return .failure .invalidParams

def answerShutdown (params : Option Json) : m Answer := do
  modifyThe Server ({ · with phase := .shutDown })
  return if params.isSome then .failure .invalidParams else .result .null

def answerExecute (params : Option Json) : m Answer := do
  match params.bind executeParams? with
  | none => return .failure .invalidParams
  | some (name, arguments) =>
      match requestedCommand name arguments with
      | .error error => return .failure error
      | .ok (command, uri, positions) =>
          let server ← getThe Server
          let context : CommandContext := ⟨server.settings, server.root⟩
          (command.run uri positions : ReaderT CommandContext m Unit).run context
          return .result .null

def answerCodeAction (params : Option Json) : m Answer := do
  match params.bind codeActionParams? with
  | none => return .failure .invalidParams
  | some (uri, position) => return .result ((← getThe Server).codeActionsAt uri position)

def answerReady (method : String) (params : Option Json) : m Answer :=
  match method with
  | "shutdown" => answerShutdown params
  | "workspace/executeCommand" => answerExecute params
  | "textDocument/codeAction" => answerCodeAction params
  | _ =>
      match unserved.lookup method with
      | some accepts =>
          return .failure (if params.any accepts then .unknownMethod else .invalidParams)
      | none => return .nothing

def isKnown (method : String) : Bool :=
  ["shutdown", "workspace/executeCommand", "textDocument/codeAction"].contains method ||
    notifications.contains method || (unserved.lookup method).isSome

def answerRequest (method : String) (params : Option Json) : m Answer := do
  if method = "initialize" then answerInitialize params
  else if isKnown method then
    let phase := (← getThe Server).phase
    if phase = .ready then answerReady method params else return .failure (refusal phase)
  else if method.startsWith "$/" then return .nothing
  else return .failure .unknownMethod

def takeNotification (message : Message) : m Unit := do
  let (server, sent) := (← getThe Server).receive message
  set server
  sent.forM MonadClient.send

def handle (message : Message) : m Answer := do
  if (← getThe Server).phase = .exited then return .exited
  let method := String.ofList message.method
  if method = "exit" then
    modifyThe Server ({ · with phase := .exited })
    return .nothing
  else if message.isRequest then answerRequest method message.params
  else
    takeNotification message
    return .nothing

end Server
end PhpNames
