import LiveCanvas.Canvas.Traversal

/-!
# Depth-first walks

What a node depends on is found by a walk that goes down before it goes on.  The walk is told here
in two ways.  One is a loop: it keeps a stack with what is still to be looked at on each level.  The
other is a recursion: everything below a new node is explored before the rest of its level, and what
was visited is handed on from one node to the next.  What one step of the walk is stands apart from
both.
-/

namespace LiveCanvas
namespace Traversal

/-- A node depends directly on another: it imports it, or it imports a folder in which it lies. -/
inductive DependsOn (nodes : List Node) (connections : List Connection) : NodeId → NodeId → Prop
  | imported {id : NodeId} {c : Connection} {n : Node} (edge : c ∈ connections)
      (into : feeds c id Role.imports = true) (source : nodeWithId? nodes c.source = some n)
      (file : n.kind ≠ .folder) : DependsOn nodes connections id n.id
  | filed {id : NodeId} {c e : Connection} {folder n : Node} (edge : c ∈ connections)
      (into : feeds c id Role.imports = true) (source : nodeWithId? nodes c.source = some folder)
      (isFolder : folder.kind = .folder) (filing : e ∈ connections)
      (within : feeds e folder.id Role.files = true)
      (member : nodeWithId? nodes e.source = some n) :
      DependsOn nodes connections id n.id

/-- A walk in progress. -/
structure Walk where
  visited : List NodeId
  found : List Node := []
  /-- What is left of each level, the deepest first. -/
  stack : List (List Node)

namespace Walk

/-- A walk from a node that has not gone anywhere. -/
def start (expand : Node → List Node) (root : Node) : Walk :=
  { visited := [root.id], stack := [expand root] }

/-- One turn of the loop.  With nothing left on the stack the walk has ended. -/
def step (expand : Node → List Node) (w : Walk) : Walk :=
  match w.stack with
  | [] => w
  | [] :: above => { w with stack := above }
  | (n :: rest) :: above =>
    if w.visited.contains n.id then { w with stack := rest :: above }
    else ⟨n.id :: w.visited, w.found ++ [n], expand n :: rest :: above⟩

end Walk

/-- The recursive walk over one level: with some ids visited before, it finds these nodes in this
order, and leaves these ids visited. -/
inductive Explores (expand : Node → List Node) :
    List NodeId → List Node → List Node → List NodeId → Prop
  | done (visited : List NodeId) : Explores expand visited [] [] visited
  | pass {visited after : List NodeId} {n : Node} {work found : List Node}
      (old : n.id ∈ visited) (later : Explores expand visited work found after) :
      Explores expand visited (n :: work) found after
  /-- A new node comes before what is below it, and that before the rest of the level. -/
  | enter {visited between after : List NodeId} {n : Node} {work below found : List Node}
      (new : n.id ∉ visited) (down : Explores expand (n.id :: visited) (expand n) below between)
      (later : Explores expand between work found after) :
      Explores expand visited (n :: work) (n :: below ++ found) after

end Traversal
end LiveCanvas
