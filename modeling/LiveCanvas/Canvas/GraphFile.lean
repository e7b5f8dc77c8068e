import LiveCanvas.Canvas.GraphWire
import LiveCanvas.Json.Reader
import LiveCanvas.Json.Writer

/-!
# Graph files

A graph file is a JSON object, either the graph itself or an object whose `state` is the text of
one.
-/

namespace LiveCanvas
namespace GraphFile

/-- The value of a JSON file; `path` is how messages call it. -/
def readValue (path text : Text) : Except LoadError Value :=
  match Json.read text with
  | .ok v => .ok v
  | .error .malformed => .error (.invalidJson path)
  | .error .tooManyDigits => .error (.misuse .unreadable)

/-- The graph object that a file holds or wraps. -/
def unwrap (path : Text) : Value → Except LoadError Value
  | .object fields =>
    match Fields.get? fields "state" with
    | some (.text state) =>
      match Json.read state with
      | .ok v => .ok v
      | .error .malformed => .error (.invalidEmbedded path)
      | .error .tooManyDigits => .error (.misuse .unreadable)
    | _ => .ok (.object fields)
  | _ => .error (.notAnObject path)

/-- The graph of a file. -/
def load (path text : Text) : Except LoadError Graph := do
  let v ← readValue path text
  let v ← unwrap path v
  Graph.ofValue v

/-- The text of a graph file. -/
def save (g : Graph) : Text :=
  Json.writeLines 0 g.toValue ++ "\n"

end GraphFile
end LiveCanvas
