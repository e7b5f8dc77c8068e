import LiveCanvas.Collab.Reconcile

/-!
# Reconciling in place

The graph that a snapshot is applied to is shared with everything else that works on the canvas, so
it is changed where it is, one part after the other.  Work that stops half way leaves behind what
it changed until then.  All reading therefore comes first, and what follows cannot stop.
-/

namespace LiveCanvas

/-- Work on a graph: it comes to something or stops with an error, and leaves the graph as far as it
changed it. -/
abbrev GraphWork (α : Type) := EStateM LoadError Graph α

namespace GraphWork

/-- What reading comes to; the graph is not touched. -/
def reading {α : Type} (r : Except LoadError α) : GraphWork α := MonadExcept.ofExcept r

/-- Drops what hangs off a node that is gone. -/
def forgetNode (id : NodeId) : GraphWork Unit := do
  modify fun g => { g with logs := g.logs.erase id }
  modify fun g => { g with gestures := g.gestures.erase id }

/-- Takes over the nodes of a snapshot and tells what that changes. -/
def takeNodes : Option (List Node) → GraphWork MergeReport
  | none => return {}
  | some nodes => do
    let before ← get
    let report := before.reportNodes nodes
    modify fun g => g.replaceNodes (nodes.map before.mergeNode)
    report.dropped.forM forgetNode
    return report

/-- Takes over the connections of a snapshot, one after the other; without that section those with a
missing end go. -/
def takeConnections : Option (List Connection) → GraphWork Unit
  | none => modify fun g => { g with connections := g.connections.filter g.hasEnds }
  | some connections => do
    modify fun g => { g with connections := [] }
    connections.forM fun c => modify fun g => g.connect c

/-- Takes over the running previews; those without a node are left out. -/
def takeRunning (running : Option (List NodeId)) : GraphWork Unit :=
  modify fun g => { g with running := (running.getD g.running).filter g.hasNode }

/-- Takes over what part of the canvas is shown. -/
def takeView (pan : Option Position) (zoom : Option Float) : GraphWork Unit := do
  modify fun g => { g with pan := pan.getD g.pan }
  modify fun g => { g with zoom := (zoom.map Number.real).getD g.zoom }

/-- Reads a payload completely: its shape, then its nodes, then its connections. -/
def readPayload (payload : Value) : GraphWork Incoming := do
  let s ← reading (Snapshot.ofValue payload)
  let nodes ← reading (Incoming.readAll Node.ofValue s.nodes)
  let connections ← reading (Incoming.readAll Connection.ofValue s.connections)
  return { nodes, connections, running := s.running, pan := s.pan, zoom := s.zoom }

/-- Takes over what was read, part by part. -/
def take (s : Incoming) : GraphWork MergeReport := do
  let report ← takeNodes s.nodes
  takeConnections s.connections
  takeRunning s.running
  takeView s.pan s.zoom
  return report

/-- Takes over the snapshot that a payload holds. -/
def reconcile (payload : Value) : GraphWork MergeReport := do
  let s ← readPayload payload
  take s

end GraphWork
end LiveCanvas
