import LiveCanvas.Canvas.Graph
import LiveCanvas.Digest.Sha256
import LiveCanvas.Json.Writer

/-!
# What previews watch

The part of a graph that documents are made from: ids, kinds, titles and contents of the nodes, the
edges, and which previews run.  Its digest changes when a document may have to change.
-/

namespace LiveCanvas
namespace Watch

/-- A node as previews see it. -/
def node (n : Node) : Value :=
  .texts [n.id, n.kind.wire, n.title, n.content]

/-- A connection as previews see it. -/
def edge (c : Connection) : Value :=
  .texts [c.source, c.sourcePort, c.target, c.targetPort]

/-- The graph as previews see it. -/
def view (g : Graph) : Value :=
  .object [("connections", .list (g.connections.map edge)),
    ("nodes", .list (g.nodes.map node)), ("running", .texts g.running)]

/-- The text whose digest is compared. -/
def text (g : Graph) : Text :=
  Json.write Json.tight (view g)

/-- The digest of what previews watch. -/
def fingerprint (g : Graph) : Text :=
  Sha256.hex (text g)

end Watch
end LiveCanvas
