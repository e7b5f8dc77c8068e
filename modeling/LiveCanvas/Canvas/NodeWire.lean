import LiveCanvas.Canvas.LoadError
import LiveCanvas.Canvas.Node

/-!
# Nodes in files and payloads

A node is written as an object that leaves out the marks it does not carry.  It is read from any
object with a known type and an id: missing fields take their defaults, and fields of another kind
are converted where that is possible.
-/

namespace LiveCanvas

/-- A place as an object. -/
def Position.toValue (p : Position) : Value :=
  .object [("x", .real p.x), ("y", .real p.y)]

/-- A size as an object. -/
def Size.toValue (s : Size) : Value :=
  .object [("width", .number s.width), ("height", .number s.height)]

/-- A place from the fields of an object. -/
def Position.ofFields (fields : Fields Value) : Except Misuse Position := do
  let x ← Value.realField fields "x" 0
  let y ← Value.realField fields "y" 0
  return ⟨x, y⟩

/-- A size from the fields of an object. -/
def Size.ofFields (fields : Fields Value) : Except Misuse Size := do
  let width ← Value.realField fields "width" 0
  let height ← Value.realField fields "height" 0
  return ⟨.real width, .real height⟩

/-- A message as an object. -/
def Message.toValue (m : Message) : Value :=
  .object [("role", .text m.speaker.wire), ("text", .text m.text)]

/-- The speaker that a value names. -/
def Speaker.ofValue? : Value → Option Speaker
  | .text name => Speaker.ofWire? name
  | _ => none

/-- The kind that a value names. -/
def Kind.ofValue? : Value → Option Kind
  | .text name => Kind.ofWire? name
  | _ => none

namespace Node

/-- A field that is written only when it holds something. -/
def writtenIf (present : Bool) (name : Text) (value : Value) : List (Text × Value) :=
  if present then [(name, value)] else []

/-- A field that is written only when there is a value. -/
def writtenSome (name : Text) (value : Option Value) : List (Text × Value) :=
  match value with
  | some v => [(name, v)]
  | none => []

/-- The fields of a node in the order in which they are written. -/
def toFields (n : Node) : Fields Value :=
  ([("id", .text n.id), ("type", .text n.kind.wire), ("title", .text n.title),
    ("content", .text n.content), ("position", n.position.toValue), ("size", n.size.toValue)] :
      Fields Value) ++
  writtenIf n.autoHeight "autoHeight" (.bool true) ++
  writtenIf n.isMinimized "isMinimized" (.bool true) ++
  writtenSome "expandedSize" (n.expandedSize.map Size.toValue) ++
  writtenIf n.isLoading "isLoading" (.bool true) ++
  writtenSome "lockedBy" (n.lock.bind Value.present?) ++
  writtenIf (!n.messages.isEmpty) "messages" (.list (n.messages.map Message.toValue)) ++
  writtenIf (!n.contextIds.isEmpty) "contextNodeIds" (.texts n.contextIds) ++
  writtenSome "sharedState" n.sharedState.present?

/-- A node as an object. -/
def toValue (n : Node) : Value :=
  .object n.toFields

/-- A misuse inside a node makes one of its fields malformed; a whole number beyond every double is
reported as it is. -/
def inField {α : Type} (id : NodeId) : Except Misuse α → Except LoadError α
  | .ok a => .ok a
  | .error .tooLarge => .error (.misuse .tooLarge)
  | .error _ => .error (.malformedField id)

/-- A message of the node with this id. -/
def readMessage (id : NodeId) (v : Value) : Except LoadError Message := do
  let fields ← inField id v.toFields
  let role := (fields.get? "role").getD (.text "model")
  match Speaker.ofValue? role with
  | none => throw (.unknownRole role)
  | some speaker => return ⟨speaker, (fields.get? "text").elim (.ofString "") Value.asText⟩

/-- The size before minimizing, if the value is an object. -/
def readExpanded : Value → Except Misuse (Option Size)
  | .object fields => (Size.ofFields fields).map some
  | _ => .ok none

/-- A node of a known kind and id from the other fields of its object. -/
def ofFields (kind : Kind) (id : NodeId) (fields : Fields Value) : Except LoadError Node := do
  -- fields are read in the order in which a fault is told
  let title := (fields.get? "title").elim (.ofString "") Value.asText
  let given := Value.field fields "content"
  let content := if given.isTrue then given.asText else ""
  let place ← inField id (Value.field fields "position").toFieldsIfTrue
  let position ← inField id (Position.ofFields place)
  let extent ← inField id (Value.field fields "size").toFieldsIfTrue
  let size ← inField id (Size.ofFields extent)
  let expandedSize ← inField id (readExpanded (Value.field fields "expandedSize"))
  let spoken ← inField id (Value.field fields "messages").elementsIfTrue
  let messages ← spoken.mapM (readMessage id)
  let picked ← inField id (Value.field fields "contextNodeIds").elementsIfTrue
  return {
    id, kind, title, content, position, size, expandedSize, messages
    autoHeight := (Value.field fields "autoHeight").isTrue
    isMinimized := (Value.field fields "isMinimized").isTrue
    isLoading := (Value.field fields "isLoading").isTrue
    lock := (Value.field fields "lockedBy").present?
    contextIds := picked.map Value.asText
    sharedState := Value.field fields "sharedState" }

/-- A node from a value.  The type is looked at before the id, and both before everything else. -/
def ofValue : Value → Except LoadError Node
  | .object fields =>
    match Fields.get? fields "type" with
    | none => .error (.missingNodeField "type")
    | some type =>
      match Kind.ofValue? type with
      | none => .error (.unknownKind type)
      | some kind =>
        match Fields.get? fields "id" with
        | none => .error (.missingNodeField "id")
        | some id => ofFields kind id.asText fields
  | _ => .error (.misuse .wrongKind)

end Node
end LiveCanvas
