import LiveCanvas.Canvas.Traversal

/-!
# Breadth-first searches

What hangs together with an id is found by a search that looks at what is near before it looks at
what is far.  The search is told here as a loop: ids wait in a queue, in which an id may stand more
than once, and an id is visited when it leaves the queue for the first time.  Ids without a node are
passed through like any other.
-/

namespace LiveCanvas
namespace Traversal

/-- The nodes of some ids, of one kind if a kind is given. -/
def nodesOf (nodes : List Node) (kind : Option Kind) (ids : List NodeId) : List Node :=
  (ids.filterMap (nodeWithId? nodes)).filter fun n => kind.all (· == n.kind)

/-- A search in progress. -/
structure Search where
  /-- The ids that have left the queue, the last one first. -/
  visited : List NodeId := []
  queue : List NodeId
  found : List Node := []

namespace Search

/-- A search from an id that has not looked anywhere. -/
def start (id : NodeId) : Search :=
  { queue := [id] }

/-- One turn of the loop.  With nothing in the queue the search has ended. -/
def step (nodes : List Node) (connections : List Connection) (kind : Option Kind) (s : Search) :
    Search :=
  match s.queue with
  | [] => s
  | id :: rest =>
    if s.visited.contains id then { s with queue := rest }
    else
      let visited := id :: s.visited
      { visited
        -- an id that waits already may come to wait once more
        queue := rest ++ (neighbours connections id).filter fun other => !visited.contains other
        found := s.found ++ nodesOf nodes kind [id] }

end Search

end Traversal
end LiveCanvas
