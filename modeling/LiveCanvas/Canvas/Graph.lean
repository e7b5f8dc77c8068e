import LiveCanvas.Canvas.Connection

/-!
# The graph of a canvas

A graph holds the nodes in the order in which they were added, the connections between them, and
what hangs off the nodes: console lines of previews, the previews that run, the nodes being picked
as context, and the gestures in progress.  Every connection leads between nodes of the graph:
removing a node removes whatever names it, and a connection with a missing end is refused.
-/

namespace LiveCanvas

/-- What a console line is. -/
inductive LogChannel
  | log
  | warn
  | error
  | info
deriving DecidableEq, Repr

/-- The name of a channel in payloads. -/
def LogChannel.wire : LogChannel → Text
  | log => "log"
  | warn => "warn"
  | error => "error"
  | info => "info"

/-- The channel with a name. -/
def LogChannel.ofWire? (name : Text) : Option LogChannel :=
  [log, warn, error, info].find? fun channel => channel.wire == name

/-- One console line of a running preview. -/
structure LogEntry where
  channel : LogChannel
  text : Text
  /-- When it was written, in milliseconds. -/
  timestamp : Number

/-- A chat node picking its context on the canvas. -/
structure Selection where
  active : Bool := false
  requester : NodeId := ""
  picked : List NodeId := []
deriving DecidableEq, Repr

/-- What a user is doing to a node right now. -/
inductive Gesture
  | drag
  | edit
deriving DecidableEq, Repr

/-- The name of a gesture in payloads. -/
def Gesture.wire : Gesture → Text
  | drag => "drag"
  | edit => "edit"

/-- The graph of a canvas. -/
structure Graph where
  nodes : List Node := []
  connections : List Connection := []
  pan : Position := {}
  zoom : Number := .real 1
  logs : Fields (List LogEntry) := []
  running : List NodeId := []
  selection : Selection := {}
  /-- The gestures in progress; a node without an entry is idle. -/
  gestures : Fields Gesture := []

namespace Graph

/-- The node with an id. -/
def node? (g : Graph) (id : NodeId) : Option Node :=
  g.nodes.find? fun n => n.id == id

/-- The graph has a node with this id. -/
def hasNode (g : Graph) (id : NodeId) : Bool :=
  g.nodes.any fun n => n.id == id

/-- The nodes of a kind in order. -/
def nodesOfKind (g : Graph) (kind : Kind) : List Node :=
  g.nodes.filter fun n => n.kind == kind

/-- Puts a node in the place of the one with its id, or at the end. -/
def placeNode (nodes : List Node) (n : Node) : List Node :=
  match nodes with
  | [] => [n]
  | first :: rest => if first.id = n.id then n :: rest else first :: placeNode rest n

/-- Adds a node; one with the same id is replaced in its place. -/
def addNode (g : Graph) (n : Node) : Graph :=
  { g with nodes := placeNode g.nodes n }

/-- Replaces all nodes.  Where an id repeats the last node counts, in the place of the first. -/
def replaceNodes (g : Graph) (nodes : List Node) : Graph :=
  { g with nodes := nodes.foldl placeNode [] }

/-- Changes the node with an id, if there is one. -/
def modifyNode (g : Graph) (id : NodeId) (change : Node → Node) : Graph :=
  { g with nodes := g.nodes.map fun n => if n.id = id then change n else n }

/-- The selection without a node; it ends when the node asked for it. -/
def forgetInSelection (s : Selection) (id : NodeId) : Selection :=
  if s.requester = id then {} else { s with picked := s.picked.erase id }

/-- The node without another one in its context. -/
def forgetInContext (id : NodeId) (n : Node) : Node :=
  { n with contextIds := n.contextIds.filter (· != id) }

/-- Removes a node and whatever names it: connections, console lines, its place among the running
previews, its gesture, and its places in the selection and in chat contexts. -/
def removeNode (g : Graph) (id : NodeId) : Graph :=
  if g.hasNode id then
    { g with
      nodes := (g.nodes.filter fun n => n.id != id).map (forgetInContext id)
      connections := g.connections.filter fun c => !c.touches id
      logs := g.logs.erase id
      running := g.running.filter (· != id)
      selection := forgetInSelection g.selection id
      gestures := g.gestures.erase id }
  else g

/-- Both ends of the connection are nodes of the graph. -/
def hasEnds (g : Graph) (c : Connection) : Bool :=
  g.hasNode c.source && g.hasNode c.target

/-- The graph takes this connection. -/
def admits (g : Graph) (c : Connection) : Bool :=
  g.hasEnds c && Connection.admits g.connections c

/-- Adds a connection if the graph takes it. -/
def connect (g : Graph) (c : Connection) : Graph :=
  if g.admits c then { g with connections := g.connections ++ [c] } else g

/-- Removes the connections that a name names. -/
def disconnect (g : Graph) (name : Text) : Graph :=
  { g with connections := Connection.without g.connections name }

/-- The connections that leave a node. -/
def connectionsFrom (g : Graph) (id : NodeId) : List Connection :=
  g.connections.filter fun c => c.source == id

/-- The connections that reach a node. -/
def connectionsTo (g : Graph) (id : NodeId) : List Connection :=
  g.connections.filter fun c => c.target == id

/-- A graph from nodes and connections, added one after the other. -/
def build (nodes : List Node) (connections : List Connection) : Graph :=
  connections.foldl connect (nodes.foldl addNode {})

/-- Gives a node new content. -/
def setContent (g : Graph) (id : NodeId) (content : Text) : Graph :=
  g.modifyNode id fun n => { n with content }

/-- Gives a node a new title. -/
def setTitle (g : Graph) (id : NodeId) (title : Text) : Graph :=
  g.modifyNode id fun n => { n with title }

/-- Moves a node. -/
def setPosition (g : Graph) (id : NodeId) (position : Position) : Graph :=
  g.modifyNode id fun n => { n with position }

/-- Resizes a node by hand, which ends its automatic height. -/
def setSize (g : Graph) (id : NodeId) (size : Size) : Graph :=
  g.modifyNode id fun n => { n with size, autoHeight := false }

/-- Marks a node as loading or not. -/
def setLoading (g : Graph) (id : NodeId) (isLoading : Bool) : Graph :=
  g.modifyNode id fun n => { n with isLoading }

/-- Marks several nodes as loading or not. -/
def setLoadingAll (g : Graph) (ids : List NodeId) (isLoading : Bool) : Graph :=
  ids.foldl (fun g id => g.setLoading id isLoading) g

/-- Adds a message to a conversation. -/
def addMessage (g : Graph) (id : NodeId) (message : Message) : Graph :=
  g.modifyNode id fun n => { n with messages := n.messages ++ [message] }

/-- Gives the last message of a list a new text. -/
def retell (messages : List Message) (text : Text) : List Message :=
  match messages.getLast? with
  | some last => messages.dropLast ++ [{ last with text }]
  | none => []

/-- Gives the last message of a conversation a new text. -/
def setLastMessage (g : Graph) (id : NodeId) (text : Text) : Graph :=
  g.modifyNode id fun n => { n with messages := retell n.messages text }

/-- Picks the context of a chat node; ids without a node are left out. -/
def setContext (g : Graph) (id : NodeId) (ids : List NodeId) : Graph :=
  g.modifyNode id fun n => { n with contextIds := ids.filter g.hasNode }

/-- Sets the state shared by whoever runs a node. -/
def setSharedState (g : Graph) (id : NodeId) (sharedState : Value) : Graph :=
  g.modifyNode id fun n => { n with sharedState }

/-- The width of a title bar: it grows with the title between two bounds. -/
def titleBarWidth (title : Text) : Nat :=
  min 400 (max 160 (title.length * 9 + 120))

/-- Shrinks a node to its title bar, or gives it back the size it had.  A minimized node that does
not know its size takes that of a new code file and grows with its content. -/
def toggleNode (n : Node) : Node :=
  if n.isMinimized then
    match n.expandedSize with
    | some size => { n with size, expandedSize := none, isMinimized := false }
    | none =>
      { n with size := Kind.code.defaultSize, autoHeight := true, isMinimized := false }
  else
    { n with
      expandedSize := some n.size
      size := ⟨.whole (titleBarWidth n.title), .whole 40⟩
      isMinimized := true }

/-- Minimizes a node or gives it back its size. -/
def toggleMinimized (g : Graph) (id : NodeId) : Graph :=
  g.modifyNode id toggleNode

/-- Adds a console line. -/
def addLog (g : Graph) (id : NodeId) (entry : LogEntry) : Graph :=
  { g with logs := g.logs.set id ((g.logs.get? id).getD [] ++ [entry]) }

/-- Leaves a node without console lines. -/
def clearLogs (g : Graph) (id : NodeId) : Graph :=
  { g with logs := g.logs.set id [] }

/-- Starts or stops a preview. -/
def setRunning (g : Graph) (id : NodeId) (isRunning : Bool) : Graph :=
  if isRunning then
    if g.running.contains id then g else { g with running := g.running ++ [id] }
  else { g with running := g.running.filter (· != id) }

end Graph
end LiveCanvas
