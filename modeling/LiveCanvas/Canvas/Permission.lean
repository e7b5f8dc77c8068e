import LiveCanvas.Canvas.Graph

/-!
# Locks, gestures and permission

A node is locked or not, and idle, dragged or edited.  The lock travels with the node; the gesture
belongs to whoever works on this graph.  Locks are advice: whoever changes a node asks first
whether it may.
-/

namespace LiveCanvas

/-- A gesture was to start on a node that has another one in progress. -/
structure GestureConflict where
  node : NodeId
  current : Gesture
deriving DecidableEq, Repr

/-- What a reader sees. -/
def GestureConflict.message (c : GestureConflict) : Text :=
  "Node " ++ c.node ++ " is already in " ++ c.current.wire ++ " state"

namespace Graph

/-- The gesture in progress on a node. -/
def gesture? (g : Graph) (id : NodeId) : Option Gesture :=
  g.gestures.get? id

/-- Starts a gesture.  One that is in progress may be started again, and no other. -/
def beginGesture (g : Graph) (id : NodeId) (gesture : Gesture) : Except GestureConflict Graph :=
  match g.gesture? id with
  | some current =>
    if current = gesture then .ok { g with gestures := g.gestures.set id gesture }
    else .error ⟨id, current⟩
  | none => .ok { g with gestures := g.gestures.set id gesture }

/-- Ends whatever gesture is in progress on a node. -/
def endGesture (g : Graph) (id : NodeId) : Graph :=
  { g with gestures := g.gestures.erase id }

/-- A name may take the lock of a node: it is there, and nobody else holds its lock. -/
def canLock (g : Graph) (id : NodeId) (identity : Text) : Bool :=
  match g.node? id with
  | some n => n.lock.isNone || n.isLockedBy identity
  | none => false

/-- Takes the lock of a node if that is possible. -/
def lock (g : Graph) (id : NodeId) (identity : Text) : Graph :=
  if g.canLock id identity then g.modifyNode id fun n => { n with lock := some (.text identity) }
  else g

/-- The lock of a node can be released: somebody holds it, and if a name is given it is that one. -/
def canUnlock (g : Graph) (id : NodeId) (identity : Option Text) : Bool :=
  match g.node? id with
  | some n => n.lock.isSome && identity.all n.isLockedBy
  | none => false

/-- Releases the lock of a node if that is possible. -/
def unlock (g : Graph) (id : NodeId) (identity : Option Text) : Graph :=
  if g.canUnlock id identity then g.modifyNode id fun n => { n with lock := none } else g

/-- A node may be changed by a name: the node is there, and unlocked or locked by that name. -/
def permits (g : Graph) (identity : Option Text) (id : NodeId) : Bool :=
  match g.node? id with
  | some n => n.lock.isNone || identity.any n.isLockedBy
  | none => false

end Graph
end LiveCanvas
