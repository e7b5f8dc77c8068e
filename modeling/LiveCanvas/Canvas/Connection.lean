import LiveCanvas.Canvas.LoadError
import LiveCanvas.Canvas.Port

/-!
# Connections

A connection leads from an output of one node to an input of another.  Lying in a folder, importing
a file and feeding a preview are all connections, told apart by the role of the target port.  A new
connection is refused when the same edge is there already or when the target takes only one
connection and has it.
-/

namespace LiveCanvas

/-- A connection between two nodes. -/
structure Connection where
  id : Text
  source : NodeId
  sourcePort : Text
  target : NodeId
  targetPort : Text
deriving DecidableEq, Repr

namespace Connection

/-- The edge, whatever its id. -/
def key (c : Connection) : Text × Text × Text × Text :=
  (c.source, c.sourcePort, c.target, c.targetPort)

/-- The node is one of the two ends. -/
def touches (c : Connection) (node : NodeId) : Bool :=
  c.source == node || c.target == node

/-- The name is the id of the connection or of one of its ports. -/
def isNamed (c : Connection) (name : Text) : Bool :=
  name == c.id || name == c.sourcePort || name == c.targetPort

/-- The edge is among the connections. -/
def isListed (connections : List Connection) (c : Connection) : Bool :=
  connections.any fun other => other.key == c.key

/-- The target takes one connection only and has it. -/
def isBlocked (connections : List Connection) (c : Connection) : Bool :=
  Port.isSingularInput c.targetPort &&
    connections.any fun other => other.targetPort == c.targetPort

/-- The connections accept another one. -/
def admits (connections : List Connection) (c : Connection) : Bool :=
  !isListed connections c && !isBlocked connections c

/-- The connections that are not named so. -/
def without (connections : List Connection) (name : Text) : List Connection :=
  connections.filter fun c => !c.isNamed name

/-- A connection as an object. -/
def toValue (c : Connection) : Value :=
  .object [("id", .text c.id), ("sourceNodeId", .text c.source),
    ("sourcePortId", .text c.sourcePort), ("targetNodeId", .text c.target),
    ("targetPortId", .text c.targetPort)]

/-- A field that a connection must have, as a text. -/
def readField (fields : Fields Value) (name : Text) : Except LoadError Text :=
  match fields.get? name with
  | some v => .ok v.asText
  | none => .error (.missingConnectionField name)

/-- A connection from a value. -/
def ofValue : Value → Except LoadError Connection
  | .object fields => do
    let id ← readField fields "id"
    let source ← readField fields "sourceNodeId"
    let sourcePort ← readField fields "sourcePortId"
    let target ← readField fields "targetNodeId"
    let targetPort ← readField fields "targetPortId"
    return ⟨id, source, sourcePort, target, targetPort⟩
  | _ => .error (.misuse .wrongKind)

/-- The stem of a generated connection id. -/
def idStem : Text := "conn"

theorem isListed_iff {connections : List Connection} {c : Connection} :
    isListed connections c = true ↔ ∃ other ∈ connections, other.key = c.key := by
  simp [isListed]

theorem isBlocked_iff {connections : List Connection} {c : Connection} :
    isBlocked connections c = true ↔
      Port.isSingularInput c.targetPort = true ∧
        ∃ other ∈ connections, other.targetPort = c.targetPort := by
  simp [isBlocked]

theorem mem_without {connections : List Connection} {name : Text} {c : Connection} :
    c ∈ without connections name ↔ c ∈ connections ∧ c.isNamed name = false := by
  simp [without]

end Connection
end LiveCanvas
