import LiveCanvas.Json.Reader
import LiveCanvas.Text.Cut
import LiveCanvas.Value.Shown

/-!
# The service behind the assistant

A request goes out as named arguments, and a message comes back with text and tool calls.  The
arguments of a call are usually the text of a JSON object; a text that is none is kept as it is.
-/

namespace LiveCanvas

/-- What the service says in one turn. -/
structure Reply where
  text : Text := ""
  calls : List Value := []

/-- Who is asked, and with which further arguments. -/
structure Service where
  model : Text
  /-- Where the service is reached; an empty address leaves that to the service. -/
  address : Text := ""
  options : Fields Value := []

namespace Service

/-- A service with further arguments.  The model and the address are given on their own, so no
argument may give them again. -/
def withOptions (model address : Text) (options : Fields Value) : Except Misuse Service :=
  if options.has "model" || options.has "api_base" then .error .wrongKind
  else .ok { model, address, options }

/-- A message to the service. -/
def message (role content : Text) : Value :=
  .object [("role", .text role), ("content", .text content)]

/-- The arguments of a request.  Options win over what is sent anyway. -/
def request (service : Service) (system prompt : Text) (tools : List Value) (key : Text) :
    Fields Value :=
  let basic : Fields Value := [("model", .text service.model),
    ("messages", .list [message "system" system, message "user" prompt]), ("api_key", .text key)]
  let withOptions := service.options.foldl (fun fields option => fields.set option.1 option.2) basic
  let withTools := if tools.isEmpty then withOptions else withOptions.set "tools" (.list tools)
  if service.address = "" then withTools else withTools.set "api_base" (.text service.address)

end Service

namespace Reply

/-- The arguments of a call: an object, or else a text. -/
def arguments (raw : Value) : Except Misuse Value :=
  match raw with
  | .object fields => .ok (.object fields)
  | .text s =>
    if s = "" then .ok (.object [])
    else match Json.read s with
      | .ok (.object fields) => .ok (.object fields)
      | .ok _ => .ok raw
      | .error .malformed => .ok raw
      | .error .tooManyDigits => .error .unreadable
  | _ => .ok (if raw.isTrue then .text raw.asText else .object [])

/-- A call with its arguments read. -/
def callOf (name raw : Value) : Except Misuse Value := do
  let args ← arguments raw
  return .object [("name", name), ("args", args)]

end Reply
end LiveCanvas
