import PhpNames.Server.Requests

/-!
Messages on the wire: JSON objects in frames. A frame starts with header lines, one of which gives
the length of the object in bytes, and an empty line.
-/

namespace PhpNames
namespace Server

open Text (Bytes)

inductive Incoming where
  | request (id : Json) (message : Message)
  | notification (message : Message)
  /-- The answer to the request with a number; it is absent when the request failed. -/
  | response (number : Nat) (result : Option Json)

/-- The parameters of a message; null counts as none. -/
def paramsOf (value : Json) : Option Json :=
  (value.get? "params").filter (!·.isNull)

namespace Incoming

/-- Reads a message: one with a method is a request if it has an id and a notification otherwise,
and one without a method is a response. -/
def ofJson? (value : Json) : Option Incoming := do
  match value.get? "method" with
  | some method =>
      let message : Message := { method := ← method.text?, params := paramsOf value }
      match value.get? "id" with
      | some id => return .request id { message with isRequest := true }
      | none => return .notification message
  | none =>
      let number ← (← value.get? "id").natUpTo? Json.Number.significandLimit
      return .response number (value.get? "result")

end Incoming

def requestJson (number : Nat) (sent : Sent) : Json :=
  .record [("jsonrpc", .text "2.0".toList), ("id", .ofNat number),
    ("method", .text sent.method.toList), ("params", sent.params)]

def notificationJson (sent : Sent) : Json :=
  .record [("jsonrpc", .text "2.0".toList), ("method", .text sent.method.toList),
    ("params", sent.params)]

def responseJson? (id : Json) : Answer → Option Json
  | .nothing => none
  | .exited => none
  | .result value => some (.record [("jsonrpc", .text "2.0".toList), ("id", id), ("result", value)])
  | .failure error =>
      some (.record [("jsonrpc", .text "2.0".toList), ("id", id),
        ("error", .record [("code", .ofInt error.code), ("message", .text error.message)])])

def lengthHeading : Text := "content-length".toList

def lengthIn? (line : Text) : Option Nat := do
  let (heading, value) ← Text.cutAt? ':' line
  let digits := Text.trim value
  if (Text.trim heading).map Char.toLower = lengthHeading && !digits.isEmpty &&
      digits.all Char.isDigit then
    some (Json.Number.valueOf digits)
  else none

def frame (value : Json) : Bytes :=
  let body := Text.utf8 value.render
  Text.utf8 ("Content-Length: ".toList ++ Nat.toDigits 10 body.length ++ "\r\n\r\n".toList) ++ body

/-- The open documents at a path or below it: the path of each, and its part below. -/
def documentsBelow (server : Server) (root : Path) : List (Path × Bytes) :=
  server.documents.filterMap fun (uri, _) => do
    let file ← Uri.toPath? uri
    let steps ← root.components.isPrefixOf? file.components
    return (file, List.intercalate [Path.slash] (steps.map (·.bytes)))

end Server
end PhpNames
