import PhpNames.Server.Wire

/-!
The server on standard input and output.

Files are read by their names. Directories are not listed: a search for the file of a class sees the
documents that the client has opened.
-/

namespace PhpNames
namespace Server

/-- A server at work: its state, how many requests it has sent, and the messages that came while it
waited for an answer. -/
structure Station where
  server : Server := {}
  requests : Nat := 0
  waiting : List Incoming := []

abbrev Serving := StateT Station IO

namespace Serving

/-- The length that the header lines up to the empty line give. Absent at the end of the input. -/
partial def readHeader (input : IO.FS.Stream) (length : Nat) : IO (Option Nat) := do
  let line ← input.getLine
  if line.isEmpty then return none
  let content := Text.trim line.toList
  if content.isEmpty then return some length
  readHeader input ((lengthIn? content).getD length)

partial def readBytes (input : IO.FS.Stream) (length : Nat) (bytes : ByteArray) :
    IO ByteArray := do
  if bytes.size < length then
    let more ← input.read (USize.ofNat (length - bytes.size))
    if more.isEmpty then return bytes
    readBytes input length (bytes ++ more)
  else return bytes

/-- The next message that can be read. Absent at the end of the input. -/
partial def nextMessage : IO (Option Incoming) := do
  let input ← IO.getStdin
  match ← readHeader input 0 with
  | none => return none
  | some length =>
      let bytes ← readBytes input length ByteArray.empty
      match (Text.ofUtf8? bytes.toList).bind fun text =>
          (Json.parse? text).bind Incoming.ofJson? with
      | some message => return some message
      | none => nextMessage

def write (value : Json) : IO Unit := do
  let output ← IO.getStdout
  output.write (ByteArray.mk (frame value).toArray)
  output.flush

def takeMeanwhile (message : Message) : Serving Unit := do
  let (server, sent) := (← get).server.receive message
  modify ({ · with server })
  sent.forM fun sent => write (notificationJson sent)

/-- Waits for the answer to a request. -/
partial def await (number : Nat) : Serving (Option Json) := do
  match ← nextMessage with
  | none => return none
  | some (.response answered result) =>
      if answered = number then return result else await number
  | some (.notification message) =>
      takeMeanwhile message
      await number
  | some request =>
      modify fun station => { station with waiting := station.waiting ++ [request] }
      await number

def readText (path : Path) : IO (Option Text) := do
  match Text.ofUtf8? path.bytes with
  | none => return none
  | some name =>
      try
        return Text.ofUtf8? (← IO.FS.readBinFile (String.ofList name)).toList
      catch _ => return none

instance : MonadStateOf Server Serving where
  get := do return (← getThe Station).server
  set server := modifyThe Station ({ · with server })
  modifyGet change := modifyGetThe Station fun station =>
    let (value, server) := change station.server
    (value, { station with server })

instance : MonadClient Serving where
  call sent := do
    let number := (← getThe Station).requests
    modifyThe Station ({ · with requests := number + 1 })
    write (requestJson number sent)
    await number
  send sent := write (notificationJson sent)
  readFile path := readText path
  filesBelow root := do return (← getThe Station).server.documentsBelow root
  patience := return 4294967296

def respond : Incoming → Serving Unit
  | .request id message => do
      match responseJson? id (← (handle message : Serving Answer)) with
      | some response => write response
      | none => return ()
  | .notification message => do
      let _ ← (handle message : Serving Answer)
  | .response _ _ => return ()

def next : Serving (Option Incoming) := do
  match (← getThe Station).waiting with
  | message :: rest =>
      modifyThe Station ({ · with waiting := rest })
      return some message
  | [] => nextMessage

/-- Answers messages until the client says goodbye or the input ends. -/
partial def serve : Serving Unit := do
  if (← getThe Station).server.phase ≠ .exited then
    match ← next with
    | some message =>
        respond message
        serve
    | none => return ()

end Serving
end Server
end PhpNames

def main : IO Unit := do
  let _ ← StateT.run PhpNames.Server.Serving.serve {}
