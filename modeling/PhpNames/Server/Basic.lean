import PhpNames.Configuration
import PhpNames.Document
import PhpNames.Entries
import PhpNames.Server.Params

/-!
The state of the server, and what notifications do to it.

The server keeps a copy of every open document, with the version that the client gave it last.
-/

namespace PhpNames

structure OpenDocument where
  document : Document
  version : Int
  deriving DecidableEq, Repr

inductive Phase where
  | starting
  | ready
  | shutDown
  | exited
  deriving DecidableEq, Repr

structure Server where
  phase : Phase := .starting
  documents : List (Text × OpenDocument) := []
  root : Option Path := none
  settings : Settings := {}
  deriving Repr

namespace Server

structure Sent where
  method : String
  params : Json

structure Message where
  method : Text
  params : Option Json := none
  isRequest : Bool := false

def document? (server : Server) (uri : Text) : Option OpenDocument :=
  server.documents.lookup uri

def put (server : Server) (uri : Text) (document : OpenDocument) : Server :=
  { server with documents := Entries.set uri document server.documents }

def remove (server : Server) (uri : Text) : Server :=
  { server with documents := server.documents.filter (·.1 != uri) }

def configure (server : Server) (configuration : Json) : Server :=
  { server with settings := (Settings.ofConfiguration? configuration).getD server.settings }

def ContentChange.apply (document : Document) (change : ContentChange) : Document :=
  match change.range with
  | some range => document.replace ⟨range, change.text⟩
  | none => ⟨change.text⟩

/-- The changes of a document that is open; others are ignored. -/
def change (server : Server) (changed : ChangedDocument) : Server :=
  match server.document? changed.uri with
  | some known =>
      server.put changed.uri
        ⟨changed.changes.foldl ContentChange.apply known.document, changed.version⟩
  | none => server

def logMessage (message : String) : Sent :=
  ⟨"window/logMessage", .record [("type", .ofNat 3), ("message", .text message.toList)]⟩

/-- The state after a notification while the server is ready, and what it sends. Parameters that do
not fit make it ignore the notification. -/
def notified (server : Server) (method : String) (params : Json) : Server × List Sent :=
  match method with
  | "initialized" =>
      if (recordFields? [] 0 params).isSome then
        (server, [logMessage "php-nsr server initialized"])
      else (server, [])
  | "textDocument/didOpen" =>
      match openedDocument? params with
      | some opened => (server.put opened.uri ⟨⟨opened.text⟩, opened.version⟩, [])
      | none => (server, [])
  | "textDocument/didChange" =>
      match changedDocument? params with
      | some changed => (server.change changed, [])
      | none => (server, [])
  | "textDocument/didClose" =>
      match closedDocument? params with
      | some uri => (server.remove uri, [])
      | none => (server, [])
  | "workspace/didChangeConfiguration" =>
      match changedConfiguration? params with
      | some configuration => (server.configure configuration, [])
      | none => (server, [])
  | "shutdown" => ({ server with phase := .shutDown }, [])
  | _ => (server, [])

/-- The state after a notification, and what the server sends. Only a server that is ready
listens. -/
def receive (server : Server) (message : Message) : Server × List Sent :=
  if server.phase = .ready then
    server.notified (String.ofList message.method) (message.params.getD .null)
  else (server, [])

end Server
end PhpNames
