import PhpNames.Path
import PhpNames.Server.Reading
import PhpNames.Uri.FilePath

/-!
The parameters of the messages that the server understands, and the shapes of those that it only
checks.
-/

namespace PhpNames
namespace Server

structure InitializeParams where
  folders : Option (List Text)
  rootUri : Option Text
  rootPath : Option Text
  options : Option Json

def folder? (value : Json) : Option Text := do
  let fields ← recordFields? ["uri", "name"] 2 value
  let uri ← required? fields "uri" uri?
  let _ ← required? fields "name" Json.text?
  return uri

def clientInfo? (value : Json) : Option Unit := do
  let fields ← recordFields? ["name", "version"] 2 value
  let _ ← required? fields "name" Json.text?
  let _ ← optional? fields "version" Json.text?

def trace? (value : Json) : Option Text :=
  value.text?.filter fun text => ["off", "messages", "verbose"].any (·.toList == text)

def capabilities? (value : Json) : Option Unit := do
  let fields ← objectFields? value
  for group in ["workspace", "textDocument", "notebookDocument", "window", "general"] do
    let _ ← optional? fields group object?

def initializeParams? (value : Json) : Option InitializeParams := do
  let fields ← objectFields? value
  required? fields "capabilities" capabilities?
  let _ ← optional? fields "processId" count?
  let _ ← optional? fields "trace" trace?
  let _ ← optional? fields "clientInfo" clientInfo?
  let _ ← optional? fields "locale" Json.text?
  let _ ← optional? fields "workDoneToken" progressToken?
  return {
    folders := ← optional? fields "workspaceFolders" (list? folder?)
    rootUri := ← optional? fields "rootUri" uri?
    rootPath := ← optional? fields "rootPath" Json.text?
    options := ← optional? fields "initializationOptions" some }

/-- The workspace root: the first folder, else the root URI, else the root path. -/
def InitializeParams.root? (params : InitializeParams) : Option Path :=
  ((params.folders.bind List.head?).bind Uri.toPath?).or
    ((params.rootUri.bind Uri.toPath?).or (params.rootPath.map Path.ofText))

structure OpenedDocument where
  uri : Text
  version : Int
  text : Text

def openedDocument? (value : Json) : Option OpenedDocument := do
  let params ← recordFields? ["textDocument"] 1 value
  required? params "textDocument" fun item => do
    let fields ← recordFields? ["uri", "languageId", "version", "text"] 4 item
    let _ ← required? fields "languageId" Json.text?
    return {
      uri := ← required? fields "uri" uri?
      version := ← required? fields "version" version?
      text := ← required? fields "text" Json.text? }

/-- A change of a document: of a range, or of the whole if there is none. -/
structure ContentChange where
  range : Option Range
  text : Text

def contentChange? (value : Json) : Option ContentChange := do
  let fields ← recordFields? ["range", "rangeLength", "text"] 3 value
  let _ ← optional? fields "rangeLength" count?
  return {
    range := ← optional? fields "range" range?
    text := ← required? fields "text" Json.text? }

structure ChangedDocument where
  uri : Text
  version : Int
  changes : List ContentChange

def changedDocument? (value : Json) : Option ChangedDocument := do
  let params ← recordFields? ["textDocument", "contentChanges"] 2 value
  let (uri, version) ← required? params "textDocument" fun item => do
    let fields ← recordFields? ["uri", "version"] 2 item
    return (← required? fields "uri" uri?, ← required? fields "version" version?)
  return { uri, version, changes := ← required? params "contentChanges" (list? contentChange?) }

def closedDocument? (value : Json) : Option Text := do
  required? (← recordFields? ["textDocument"] 1 value) "textDocument" identifier?

def changedConfiguration? (value : Json) : Option Json := do
  required? (← recordFields? ["settings"] 1 value) "settings" some

def tokens? (fields : Fields) : Option Unit := do
  let _ ← optional? fields "workDoneToken" progressToken?
  let _ ← optional? fields "partialResultToken" progressToken?

def diagnostic? (value : Json) : Option Unit := do
  let fields ← objectFields? value
  let _ ← required? fields "range" range?
  let _ ← required? fields "message" Json.text?

def actionContext? (value : Json) : Option Unit := do
  let fields ← objectFields? value
  let _ ← required? fields "diagnostics" (list? diagnostic?)
  let _ ← optional? fields "only" (list? Json.text?)
  let _ ← optional? fields "triggerKind" version?

/-- The document of a request for code actions, and where its range starts. -/
def codeActionParams? (value : Json) : Option (Text × Position) := do
  let fields ← objectFields? value
  let uri ← required? fields "textDocument" identifier?
  let range ← required? fields "range" range?
  required? fields "context" actionContext?
  tokens? fields
  return (uri, range.start)

def executeParams? (value : Json) : Option (Text × List Json) := do
  let fields ← objectFields? value
  let _ ← optional? fields "workDoneToken" progressToken?
  return (← required? fields "command" Json.text?,
    ← defaulted? fields "arguments" Json.items? [])

/-- The first argument of every command: the document and the cursors. -/
def commandArguments? (value : Json) : Option (Text × List Position) := do
  let fields ← recordFields? ["uri", "positions"] 1 value
  return (← required? fields "uri" Json.text?,
    ← defaulted? fields "positions" (list? position?) [])

def applied? (value : Json) : Option Bool := do
  let fields ← recordFields? ["applied", "failureReason", "failedChange"] 3 value
  let applied ← required? fields "applied" Json.bool?
  let _ ← optional? fields "failureReason" Json.text?
  let _ ← optional? fields "failedChange" count?
  return applied

def picked? (value : Json) : Option (Option Text) :=
  match value with
  | .null => some none
  | _ => do
      let fields ← objectFields? value
      return some (← required? fields "title" Json.text?)

def typed? (value : Json) : Option (Option Text) :=
  match value with
  | .null => some none
  | _ => value.text?.map some

/-! ### Requests that are known but not served -/

def ofDocument? (value : Json) : Option Fields := do
  let fields ← objectFields? value
  let _ ← required? fields "textDocument" identifier?
  return fields

def ofPosition? (value : Json) : Option Fields := do
  let fields ← ofDocument? value
  let _ ← required? fields "position" position?
  return fields

def ofRange? (value : Json) : Option Fields := do
  let fields ← ofDocument? value
  let _ ← required? fields "range" range?
  return fields

def formatOptions? (value : Json) : Option Unit := do
  let fields ← objectFields? value
  let _ ← required? fields "tabSize" count?
  let _ ← required? fields "insertSpaces" Json.bool?

def fits {Value : Type} (read? : Json → Option Value) (value : Json) : Bool :=
  (read? value).isSome

def fitsWith {Value : Type} (read? : Json → Option Fields) (name : String)
    (field? : Json → Option Value) (value : Json) : Bool :=
  (read? value).any fun fields => (required? fields name field?).isSome

/-- The known requests that are not served, and whether parameters fit them. -/
def unserved : List (String × (Json → Bool)) :=
  let position := fits ofPosition?
  let document := fits ofDocument?
  let range := fits ofRange?
  let item := fitsWith objectFields? "item" object?
  let files := fitsWith objectFields? "files" Json.items?
  [("textDocument/hover", position), ("textDocument/completion", position),
    ("textDocument/signatureHelp", position), ("textDocument/declaration", position),
    ("textDocument/definition", position), ("textDocument/typeDefinition", position),
    ("textDocument/implementation", position), ("textDocument/documentHighlight", position),
    ("textDocument/prepareRename", position), ("textDocument/moniker", position),
    ("textDocument/linkedEditingRange", position), ("textDocument/inlineCompletion", position),
    ("textDocument/prepareCallHierarchy", position),
    ("textDocument/prepareTypeHierarchy", position),
    ("textDocument/references", fitsWith ofPosition? "context" object?),
    ("textDocument/rename", fitsWith ofPosition? "newName" Json.text?),
    ("textDocument/onTypeFormatting", fun value =>
      fitsWith ofPosition? "ch" Json.text? value &&
        fitsWith ofPosition? "options" formatOptions? value),
    ("textDocument/documentSymbol", document), ("textDocument/codeLens", document),
    ("textDocument/documentLink", document), ("textDocument/documentColor", document),
    ("textDocument/foldingRange", document), ("textDocument/diagnostic", document),
    ("textDocument/semanticTokens/full", document),
    ("textDocument/willSaveWaitUntil", fitsWith ofDocument? "reason" count?),
    ("textDocument/semanticTokens/full/delta",
      fitsWith ofDocument? "previousResultId" Json.text?),
    ("textDocument/formatting", fitsWith ofDocument? "options" formatOptions?),
    ("textDocument/rangeFormatting", fitsWith ofRange? "options" formatOptions?),
    ("textDocument/selectionRange", fitsWith ofDocument? "positions" (list? position?)),
    ("textDocument/semanticTokens/range", range), ("textDocument/inlayHint", range),
    ("textDocument/inlineValue", fitsWith ofRange? "context" object?),
    ("textDocument/colorPresentation", fitsWith ofRange? "color" object?),
    ("workspace/symbol", fitsWith objectFields? "query" Json.text?),
    ("workspace/diagnostic", fitsWith objectFields? "previousResultIds" Json.items?),
    ("workspace/willCreateFiles", files), ("workspace/willRenameFiles", files),
    ("workspace/willDeleteFiles", files),
    ("completionItem/resolve", fitsWith objectFields? "label" Json.text?),
    ("codeAction/resolve", fitsWith objectFields? "title" Json.text?),
    ("codeLens/resolve", fitsWith objectFields? "range" range?),
    ("documentLink/resolve", fitsWith objectFields? "range" range?),
    ("inlayHint/resolve", fitsWith objectFields? "position" position?),
    ("workspaceSymbol/resolve", fitsWith objectFields? "name" Json.text?),
    ("callHierarchy/incomingCalls", item), ("callHierarchy/outgoingCalls", item),
    ("typeHierarchy/supertypes", item), ("typeHierarchy/subtypes", item)]

def notifications : List String :=
  ["initialized", "textDocument/didOpen", "textDocument/didChange", "textDocument/didClose",
    "textDocument/willSave", "textDocument/didSave", "notebookDocument/didOpen",
    "notebookDocument/didChange", "notebookDocument/didSave", "notebookDocument/didClose",
    "workspace/didChangeConfiguration", "workspace/didChangeWorkspaceFolders",
    "workspace/didChangeWatchedFiles", "workspace/didCreateFiles", "workspace/didRenameFiles",
    "workspace/didDeleteFiles", "window/workDoneProgress/cancel"]

end Server
end PhpNames
