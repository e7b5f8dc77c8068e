import LiveCanvas.Canvas.Id
import LiveCanvas.Value.Shown

/-!
# Why data is no graph

Every way in which a node, a connection, a snapshot or a graph file can be refused, and the text
that a reader sees.
-/

namespace LiveCanvas

/-- Why data from outside is refused. -/
inductive LoadError
  /-- A node lacks a field. -/
  | missingNodeField (field : Text)
  /-- A connection lacks a field. -/
  | missingConnectionField (field : Text)
  /-- A node has a type that is not one of the kinds. -/
  | unknownKind (given : Value)
  /-- A chat message has a role that is not one of the roles. -/
  | unknownRole (given : Value)
  /-- A field of a node holds a value of the wrong kind. -/
  | malformedField (node : NodeId)
  /-- A snapshot has this many faults. -/
  | invalidSnapshot (faults : Nat)
  /-- A file is not JSON. -/
  | invalidJson (path : Text)
  /-- A file is JSON but not an object. -/
  | notAnObject (path : Text)
  /-- The text that a file wraps is not JSON. -/
  | invalidEmbedded (path : Text)
  /-- A value could not be used, and nothing describes the place. -/
  | misuse (cause : Misuse)

namespace LoadError

/-- What a reader sees; a bare misuse has no text of its own. -/
def message : LoadError → Text
  | missingNodeField field => "Node is missing field " ++ Text.quoted field
  | missingConnectionField field => "Connection is missing field " ++ Text.quoted field
  | unknownKind given => "Unknown node type " ++ given.shown
  | unknownRole given => "Unknown chat role " ++ given.shown
  | malformedField node => "Node " ++ Text.quoted node ++ " has a malformed field"
  | invalidSnapshot faults =>
    "Invalid snapshot: " ++ Text.ofChars (Nat.toDigits 10 faults) ++ " errors"
  | invalidJson path => path ++ ": invalid JSON"
  | notAnObject path => path ++ ": expected a JSON object"
  | invalidEmbedded path => path ++ ": invalid embedded state"
  | misuse _ => ""

/-- The refusal says what is wrong with the data; only a bare misuse does not. -/
def isDescribed : LoadError → Bool
  | misuse _ => false
  | _ => true

end LoadError
end LiveCanvas
