import LiveCanvas.Canvas.Kind
import LiveCanvas.Canvas.Id
import LiveCanvas.Value.Basic

/-!
# Nodes

A node has a place and a size on the canvas, a title, content that its kind gives a meaning, and
marks that come and go: minimized, loading, locked.  Chat nodes also keep a conversation and the
nodes picked as its context.
-/

namespace LiveCanvas

/-- A place on the canvas. -/
structure Position where
  x : Float := 0
  y : Float := 0

/-- The place at a distance. -/
def Position.offset (p : Position) (dx dy : Float) : Position :=
  ⟨p.x + dx, p.y + dy⟩

/-- The size of a node. -/
structure Size where
  width : Number
  height : Number

/-- Who speaks in a conversation. -/
inductive Speaker
  | user
  | model
deriving DecidableEq, Repr

/-- The name of a speaker in files and payloads. -/
def Speaker.wire : Speaker → Text
  | user => "user"
  | model => "model"

/-- The speaker with a name. -/
def Speaker.ofWire? (name : Text) : Option Speaker :=
  [user, model].find? fun speaker => speaker.wire == name

/-- One entry of a conversation. -/
structure Message where
  speaker : Speaker
  text : Text
deriving DecidableEq, Repr

/-- A node on the canvas. -/
structure Node where
  id : NodeId
  kind : Kind
  title : Text
  content : Text := ""
  position : Position := {}
  size : Size := ⟨.real 0, .real 0⟩
  autoHeight : Bool := false
  isMinimized : Bool := false
  /-- The size before the node was minimized. -/
  expandedSize : Option Size := none
  isLoading : Bool := false
  /-- Who holds the lock.  A lock taken here is held by a name; data from outside may put any value
  in its place. -/
  lock : Option Value := none
  messages : List Message := []
  contextIds : List NodeId := []
  /-- State shared by whoever runs the node; null when there is none. -/
  sharedState : Value := .null

namespace Node

/-- The node can lie in a folder. -/
def isFile (n : Node) : Bool := n.kind.isFile

/-- The lock is held by this name. -/
def isLockedBy (n : Node) (identity : Text) : Bool :=
  n.lock.any (·.isText identity)

end Node

/-- What a new node of a kind looks like. -/
structure NodeDefaults where
  width : Nat
  height : Nat
  title : Text
  content : Text := ""

/-- The defaults of each kind. -/
def Kind.defaults : Kind → NodeDefaults
  | code => { width := 450, height := 300, title := "script.js",
              content := "// Write HTML, CSS, or JS here" }
  | preview => { width := 500, height := 400, title := "Preview Output" }
  | terminal => { width := 400, height := 200, title := "Terminal" }
  | chat => { width := 350, height := 450, title := "AI Assistant" }
  | packageSearch => { width := 300, height := 350, title := "NPM Packages" }
  | image => { width := 300, height := 300, title := "Image" }
  | note => { width := 300, height := 300, title := "Note.md",
              content := "# New Note\n\nDouble-click to edit this markdown note." }
  | folder => { width := 250, height := 300, title := "components" }

/-- The size of a new node of a kind. -/
def Kind.defaultSize (kind : Kind) : Size :=
  ⟨.whole kind.defaults.width, .whole kind.defaults.height⟩

/-- The stem of a generated node id. -/
def Kind.idStem : Kind → Text
  | folder => "folder"
  | _ => "node"

/-- How a new node differs from the defaults of its kind. -/
structure NodeRequest where
  kind : Kind
  title : Option Text := none
  content : Option Text := none
  position : Position := {}
  id : Option NodeId := none

/-- A node as asked for.  Without a given id, or with an empty one, a new id is taken. -/
def NodeRequest.create (request : NodeRequest) (ids : IdSource) : Node × IdSource :=
  let defaults := request.kind.defaults
  let (id, ids) := match request.id.filter (· != .ofString "") with
    | some id => (id, ids)
    | none => ids.fresh request.kind.idStem
  ({ id, kind := request.kind
     title := request.title.getD defaults.title
     content := request.content.getD defaults.content
     position := request.position
     size := request.kind.defaultSize }, ids)

/-- The last node with an id in a list in which ids may repeat. -/
def nodeWithId? (nodes : List Node) (id : NodeId) : Option Node :=
  nodes.reverse.find? fun n => n.id == id

end LiveCanvas
