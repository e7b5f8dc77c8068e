import LiveCanvas.Canvas.Connection

/-!
# Walks over nodes and connections

Who feeds a port, which files a file depends on, and which nodes hang together.  The walks take
plain lists: connections may have missing ends, ids may repeat, and cycles are harmless because no
node is visited twice.
-/

namespace LiveCanvas
namespace Traversal

/-- The connection reaches a port of the node with this role. -/
def feeds (c : Connection) (node : NodeId) (role : Role) : Bool :=
  c.target == node && Port.matchesRole c.targetPort role

/-- The source of the first connection that feeds a role of a node. -/
def singleSource (node : NodeId) (role : Role) (nodes : List Node)
    (connections : List Connection) : Option Node :=
  (connections.find? fun c => feeds c node role).bind fun c => nodeWithId? nodes c.source

/-- The sources of every connection that feeds a role of a node, in the order of connections. -/
def allSources (node : NodeId) (role : Role) (nodes : List Node)
    (connections : List Connection) : List Node :=
  (connections.filter fun c => feeds c node role).filterMap fun c => nodeWithId? nodes c.source

/-- What a node imports directly; a folder stands for the files in it. -/
def dependencies (nodes : List Node) (connections : List Connection) (n : Node) : List Node :=
  (allSources n.id Role.imports nodes connections).flatMap fun source =>
    if source.kind = .folder then allSources source.id Role.files nodes connections else [source]

/-- The nodes of a work list and what they depend on, in the order of discovery.  Each visit takes
one step of fuel; `visited` nodes are passed over. -/
def discover (expand : Node → List Node) : Nat → List NodeId → List Node → List Node
  | 0, _, _ => []
  | fuel + 1, visited, work =>
    match work.dropWhile fun n => visited.contains n.id with
    | [] => []
    | n :: rest => n :: discover expand fuel (n.id :: visited) (expand n ++ rest)

/-- Everything that a node depends on, depth first, without the node itself.  No id is visited
twice, so there are no more visits than nodes. -/
def closure (root : Node) (nodes : List Node) (connections : List Connection) : List Node :=
  let expand := dependencies nodes connections
  discover expand nodes.length [root.id] (expand root)

/-- The other ends of a node's connections, in the order of connections. -/
def neighbours (connections : List Connection) (node : NodeId) : List NodeId :=
  connections.flatMap fun c =>
    (if c.source = node then [c.target] else []) ++ (if c.target = node then [c.source] else [])

/-- The ids of a queue and what is connected to them, nearest first. -/
def spread (connections : List Connection) : Nat → List NodeId → List NodeId → List NodeId
  | 0, _, _ => []
  | fuel + 1, visited, queue =>
    match queue.dropWhile visited.contains with
    | [] => []
    | id :: rest =>
      id :: spread connections fuel (id :: visited) (rest ++ neighbours connections id)

/-- The ids that hang together with one, nearest first.  There are at most two new ids for each
connection. -/
def component (start : NodeId) (connections : List Connection) : List NodeId :=
  spread connections (2 * connections.length + 1) [] [start]

/-- The nodes that hang together with an id, nearest first, of one kind if a kind is given. -/
def related (start : NodeId) (nodes : List Node) (connections : List Connection)
    (kind : Option Kind) : List Node :=
  ((component start connections).filterMap (nodeWithId? nodes)).filter fun n =>
    kind.all (· == n.kind)

/-- The nodes that a node feeds, each once. -/
def consumers (node : NodeId) (connections : List Connection) : List NodeId :=
  ((connections.filter fun c => c.source == node).map (·.target)).eraseDups

end Traversal
end LiveCanvas
