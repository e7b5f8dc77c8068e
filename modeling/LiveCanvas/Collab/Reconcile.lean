import LiveCanvas.Canvas.Permission
import LiveCanvas.Collab.Snapshot

/-!
# Reconciling with a snapshot

What another session wrote wins, field by field, except where a gesture is in progress here: a node
that is dragged keeps its place and one that is edited keeps its content and title.  The payload is
read completely before anything changes, so a bad one changes nothing.
-/

namespace LiveCanvas

/-- What a snapshot changed. -/
structure MergeReport where
  /-- Nodes that were not here. -/
  added : List NodeId := []
  /-- Nodes that are no longer here. -/
  dropped : List NodeId := []
  /-- Nodes that kept something of theirs. -/
  kept : List NodeId := []
deriving DecidableEq, Repr

namespace Graph

/-- A node of a snapshot with what a gesture in progress protects. -/
def mergeNode (g : Graph) (n : Node) : Node :=
  match g.node? n.id with
  | none => n
  | some here =>
    match g.gesture? n.id with
    | some .drag => { n with position := here.position }
    | some .edit => { n with content := here.content, title := here.title }
    | none => n

/-- A node of a snapshot keeps something of the node that is here. -/
def protects (g : Graph) (id : NodeId) : Bool :=
  g.hasNode id && (g.gesture? id).isSome

/-- What the nodes of a snapshot change. -/
def reportNodes (g : Graph) (nodes : List Node) : MergeReport :=
  let ids := nodes.map (·.id)
  { added := ids.filter fun id => !g.hasNode id
    dropped := (g.nodes.map (·.id)).filter fun id => !ids.contains id
    kept := ids.filter g.protects }

/-- Takes over the nodes of a snapshot.  What hangs off a node that is gone goes with it. -/
def mergeNodes (g : Graph) (nodes : List Node) : Graph :=
  -- what is dropped is told by the nodes that were here before
  let dropped := (g.reportNodes nodes).dropped
  let merged := g.replaceNodes (nodes.map g.mergeNode)
  { merged with
    logs := dropped.foldl Fields.erase merged.logs
    gestures := dropped.foldl Fields.erase merged.gestures }

/-- Takes over the connections of a snapshot; without that section those with a missing end go. -/
def mergeConnections (g : Graph) : Option (List Connection) → Graph
  | some connections => connections.foldl connect { g with connections := [] }
  | none => { g with connections := g.connections.filter g.hasEnds }

/-- Takes over a snapshot. -/
def merge (g : Graph) (s : Incoming) : Graph :=
  let g := match s.nodes with
    | some nodes => g.mergeNodes nodes
    | none => g
  let g := g.mergeConnections s.connections
  { g with
    running := (s.running.getD g.running).filter g.hasNode
    pan := s.pan.getD g.pan
    zoom := (s.zoom.map Number.real).getD g.zoom }

/-- What a snapshot changes. -/
def mergeReport (g : Graph) (s : Incoming) : MergeReport :=
  match s.nodes with
  | some nodes => g.reportNodes nodes
  | none => {}

/-- Takes over the snapshot that a payload holds. -/
def reconcile (g : Graph) (payload : Value) : Except LoadError (Graph × MergeReport) := do
  let s ← Incoming.ofValue payload
  return (g.merge s, g.mergeReport s)

end Graph
end LiveCanvas
