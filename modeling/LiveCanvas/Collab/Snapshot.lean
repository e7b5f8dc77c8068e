import LiveCanvas.Canvas.GraphWire
import LiveCanvas.Payload.Checked

/-!
# Snapshots

A snapshot is what another session says the canvas looks like, in full or in part: a section that is
missing or null leaves that part of the canvas alone.  It is read in two steps, first its shape and
then the nodes and connections in it.
-/

namespace LiveCanvas

/-- A snapshot whose shape fits. -/
structure Snapshot where
  nodes : Option (List (Fields Value)) := none
  connections : Option (List (Fields Value)) := none
  running : Option (List NodeId) := none
  pan : Option Position := none
  zoom : Option Float := none

/-- A place, each coordinate zero if it is missing. -/
def Position.ofPayload (v : Value) : Checked Position :=
  match v with
  | .object fields =>
    Position.mk <$> Checked.optional ["x"] 0 Checked.real fields
      <*> Checked.optional ["y"] 0 Checked.real fields
  | _ => Checked.misfit

namespace Snapshot

/-- The names of the section that tells the running previews; the first one present counts. -/
def runningNames : List Text := ["runningIds", "runningPreviewIds", "running_ids"]

/-- A section that may be missing or null. -/
def section? {α : Type} (names : List Text) (check : Value → Checked α)
    (fields : Fields Value) : Checked (Option α) :=
  Checked.optional names none (Checked.nullable check) fields

/-- The shape of a payload. -/
def shape (v : Value) : Checked Snapshot :=
  match v with
  | .object fields =>
    Snapshot.mk <$> section? ["nodes"] (Checked.list Checked.object) fields
      <*> section? ["connections"] (Checked.list Checked.object) fields
      <*> section? runningNames (Checked.list Checked.text) fields
      <*> section? ["pan"] Position.ofPayload fields
      <*> section? ["zoom"] Checked.real fields
  | _ => Checked.misfit

/-- A snapshot from a payload. -/
def ofValue (v : Value) : Except LoadError Snapshot :=
  match shape v with
  | .fits s => .ok s
  | .faulty places => .error (.invalidSnapshot places.length)

end Snapshot

/-- A snapshot with its nodes and connections read. -/
structure Incoming where
  nodes : Option (List Node) := none
  connections : Option (List Connection) := none
  running : Option (List NodeId) := none
  pan : Option Position := none
  zoom : Option Float := none

namespace Incoming

/-- Reads every object of a section that is there. -/
def readAll {α : Type} (read : Value → Except LoadError α) :
    Option (List (Fields Value)) → Except LoadError (Option (List α))
  | none => .ok none
  | some objects => do
    let items ← objects.mapM fun fields => read (.object fields)
    return some items

/-- The nodes and connections of a snapshot; all of them or none. -/
def ofSnapshot (s : Snapshot) : Except LoadError Incoming := do
  let nodes ← readAll Node.ofValue s.nodes
  let connections ← readAll Connection.ofValue s.connections
  return { nodes, connections, running := s.running, pan := s.pan, zoom := s.zoom }

/-- The nodes and connections of a payload. -/
def ofValue (v : Value) : Except LoadError Incoming := do
  let s ← Snapshot.ofValue v
  ofSnapshot s

end Incoming
end LiveCanvas
