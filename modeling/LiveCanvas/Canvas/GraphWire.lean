import LiveCanvas.Canvas.Graph
import LiveCanvas.Canvas.NodeWire

/-!
# Graphs in files and payloads

A graph is written with its nodes, connections, running previews, pan and zoom.  Reading adds the
nodes and then the connections one after the other, so a connection that the rules refuse is left
out, and so is a running preview without a node.
-/

namespace LiveCanvas
namespace Graph

/-- A graph as an object. -/
def toValue (g : Graph) : Value :=
  .object [("nodes", .list (g.nodes.map Node.toValue)),
    ("connections", .list (g.connections.map Connection.toValue)),
    ("runningPreviewIds", .texts g.running), ("pan", g.pan.toValue), ("zoom", .number g.zoom)]

/-- A misuse outside every node. -/
def bare {α : Type} : Except Misuse α → Except LoadError α
  | .ok a => .ok a
  | .error e => .error (.misuse e)

/-- A graph from the fields of its object. -/
def ofFields (fields : Fields Value) : Except LoadError Graph := do
  let givenNodes ← bare (Value.field fields "nodes").elementsIfTrue
  let nodes ← givenNodes.mapM Node.ofValue
  let givenConnections ← bare (Value.field fields "connections").elementsIfTrue
  let connections ← givenConnections.mapM Connection.ofValue
  let g := build nodes connections
  let running ← bare (Value.field fields "runningPreviewIds").elementsIfTrue
  let place ← bare (Value.field fields "pan").toFieldsIfTrue
  let pan ← bare (Position.ofFields place)
  let zoom ← bare (Value.realField fields "zoom" 1)
  return { g with
    running := (running.map Value.asText).filter g.hasNode
    pan, zoom := .real zoom }

/-- A graph from a value. -/
def ofValue (v : Value) : Except LoadError Graph := do
  let fields ← bare v.toFields
  ofFields fields

end Graph
end LiveCanvas
