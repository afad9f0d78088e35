import PhpNames.Server.Requests

/-!
A server with a scripted client: files held in memory, replies in a queue, and a record of what the
server sent.
-/

namespace PhpNames
namespace Server

/-- How the client answers the next request of a method. The notifications `before` reach the server
before the answer does. -/
structure Reply where
  method : Text
  before : List Message := []
  /-- The answer; it is absent when the request fails. -/
  result : Option Json := some .null

structure Script where
  server : Server := {}
  files : FileTree := {}
  replies : List Reply := []
  sent : List Sent := []

namespace Script

def note (script : Script) (sent : List Sent) : Script :=
  { script with sent := script.sent ++ sent }

def deliver (script : Script) (message : Message) : Script :=
  let (server, sent) := script.server.receive message
  { script with server }.note sent

/-- The answer to a request for which there is no reply in the queue. -/
def defaultResult (method : String) : Json :=
  if method = "workspace/applyEdit" then .record [("applied", .bool true)] else .null

def answer (script : Script) (sent : Sent) : Option Json × Script :=
  let noted := script.note [sent]
  let isFor := fun reply : Reply => reply.method == sent.method.toList
  match script.replies.find? isFor with
  | some reply =>
      (reply.result,
        reply.before.foldl deliver { noted with replies := script.replies.eraseP isFor })
  | none => (some (defaultResult sent.method), noted)

instance : MonadStateOf Server (StateM Script) where
  get := do return (← getThe Script).server
  set server := modifyThe Script ({ · with server })
  modifyGet change := modifyGetThe Script fun script =>
    let (value, server) := change script.server
    (value, { script with server })

instance : MonadClient (StateM Script) where
  call sent := modifyGetThe Script (·.answer sent)
  send sent := modifyThe Script (·.note [sent])
  readFile path := do return (← getThe Script).files.read? path
  filesBelow root := do return (← getThe Script).files.below root
  patience := do return (← getThe Script).replies.length + 1

/-- One message of the client, after its replies have joined the queue. Gives the answer and what
the server sent. -/
def perform (script : Script) (message : Message) (replies : List Reply) :
    (Answer × List Sent) × Script :=
  let (answer, next) :=
    (handle message : StateM Script Answer).run
      { script with replies := script.replies ++ replies, sent := [] }
  ((answer, next.sent), next)

end Script
end Server
end PhpNames
