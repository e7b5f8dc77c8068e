import LiveCanvas.Canvas.Permission
import LiveCanvas.Collab.Snapshot

/-!
# Presence of other sessions

Every session tells what it drags or edits.  A node that another active session works on is locked
by that session; a session that has been silent for too long holds nothing.
-/

namespace LiveCanvas

/-- What a session tells about itself. -/
structure Collaborator where
  id : Text
  x : Float := 0
  y : Float := 0
  color : Text := ""
  /-- When it was last heard of, in milliseconds. -/
  lastActive : Float
  dragging : Option NodeId := none
  dragPosition : Option Position := none
  editing : Option NodeId := none

namespace Collaborator

/-- A session from a payload. -/
def ofValue (v : Value) : Checked Collaborator :=
  match v with
  | .object fields =>
    Collaborator.mk <$> Checked.required ["id"] Checked.text fields
      <*> Checked.optional ["x"] 0 Checked.real fields
      <*> Checked.optional ["y"] 0 Checked.real fields
      <*> Checked.optional ["color"] "" Checked.text fields
      <*> Checked.required ["lastActive", "last_active"] Checked.real fields
      <*> Checked.optional ["draggingNodeId", "dragging_node_id"] none
        (Checked.nullable Checked.text) fields
      <*> Checked.optional ["draggingPosition", "dragging_position"] none
        (Checked.nullable Position.ofPayload) fields
      <*> Checked.optional ["editingNodeId", "editing_node_id"] none
        (Checked.nullable Checked.text) fields
  | _ => Checked.misfit

/-- The nodes that a session works on; the empty id is none. -/
def nodes (c : Collaborator) : List NodeId :=
  (c.editing.toList ++ c.dragging.toList).filter (· != "")

end Collaborator

/-- Whose presence counts. -/
structure Presence where
  collaborators : List Collaborator
  /-- The session here. -/
  session : Text
  /-- In milliseconds. -/
  now : Float
  /-- In seconds. -/
  timeout : Float := 30

namespace Presence

/-- The other sessions that were heard of in time. -/
def active (p : Presence) : List Collaborator :=
  p.collaborators.filter fun c =>
    c.id != p.session && decide (p.now - c.lastActive < p.timeout * 1000)

/-- Which session holds which node of a graph; the first to claim a node holds it. -/
def holders (p : Presence) (g : Graph) : Fields Text :=
  (p.active.flatMap fun c => (c.nodes.filter g.hasNode).map (·, c.id)).foldl
    (fun held claim => held.setDefault claim.1 claim.2) []

/-- Where other sessions drag nodes to. -/
def drags (p : Presence) : Fields Position :=
  (p.active.filterMap fun c => do
    let id ← c.dragging.filter (· != .ofString "")
    let position ← c.dragPosition
    return (id, position)).foldl (fun found drag => found.setDefault drag.1 drag.2) []

/-- The lock that a node has while the sessions hold what they hold. -/
def lockOf (p : Presence) (held : Fields Text) (n : Node) : Option Value :=
  match held.get? n.id with
  | some holder => some (.text holder)
  | none => n.lock.filter (·.isText p.session)

/-- Locks what others work on and releases what they no longer hold. -/
def applyLocks (p : Presence) (g : Graph) : Graph :=
  let held := p.holders g
  { g with nodes := g.nodes.map fun n => { n with lock := p.lockOf held n } }

end Presence
end LiveCanvas
