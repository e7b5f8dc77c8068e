import LiveCanvas.Canvas.Path
import LiveCanvas.Canvas.Permission
import LiveCanvas.Edit.Annotation

/-!
# Batches of edits

A batch of edits is made one command after the other.  Files are looked up among the nodes as the
earlier commands left them, while decisions about wiring use the connections as they were before the
batch.  A command that cannot be carried out is refused with one line and changes nothing.
-/

namespace LiveCanvas

/-- Where new nodes are placed, relative to the node that the batch was asked from. -/
structure Placement where
  fileOffset : Position := ⟨50, 50⟩
  folderOffset : Position := ⟨-250, 0⟩
  moveFolderOffset : Position := ⟨-200, 0⟩
  /-- The place when the batch was asked from nowhere. -/
  fallback : Position := ⟨100, 100⟩

/-- What stays the same during a batch. -/
structure BatchContext where
  /-- The connections before the batch. -/
  before : List Connection
  /-- The node that the batch was asked from. -/
  anchor : Option NodeId := none
  /-- Whether a node may be changed. -/
  permits : Graph → NodeId → Bool := fun _ _ => true
  placement : Placement := {}

/-- A node as the batch knows it: one of the graph, or one whose place in the graph was taken by a
new node with the same id. -/
inductive KnownNode
  | live (id : NodeId)
  | replaced (n : Node)

/-- A batch in progress. -/
structure Batch where
  graph : Graph
  ids : IdSource
  known : List KnownNode
  report : BatchReport := {}

/-- What a command comes to. -/
inductive Action
  /-- Gives a file new content, and puts it into a folder unless it lies there. -/
  | overwrite (target : Node) (content : Text) (folder : Option Text)
  | create (title content : Text) (folder : Option Text)
  | move (target : Node) (folder : Option Text)
  | rename (target : Node) (oldTitle newTitle : Text)
  | delete (target : Node) (title : Text)
  | place (source folder : Node)
  | importInto (source target : Node)

namespace Batch

/-- A batch before its first command. -/
def start (g : Graph) (ids : IdSource) : Batch :=
  { graph := g, ids, known := g.nodes.map fun n => .live n.id }

/-- The nodes as the batch knows them. -/
def nodes (b : Batch) : List Node :=
  b.known.filterMap fun
    | .live id => b.graph.node? id
    | .replaced n => some n

/-- The first node with a title among some kinds. -/
def find? (b : Batch) (title : Text) (kinds : List Kind) : Option Node :=
  b.nodes.find? fun n => n.title == title && kinds.contains n.kind

/-- The node that the batch was asked from. -/
def anchor? (b : Batch) (c : BatchContext) : Option Node :=
  c.anchor.bind fun id => b.nodes.find? fun n => n.id == id

/-- The anchor, if code files can be wired to it. -/
def codeAnchor? (b : Batch) (c : BatchContext) : Option Node :=
  (b.anchor? c).filter fun n => n.kind == .code

/-- The place at a distance from the anchor. -/
def nearAnchor (b : Batch) (c : BatchContext) (offset : Position) : Position :=
  match b.anchor? c with
  | some n => n.position.offset offset.x offset.y
  | none => c.placement.fallback

/-- Changes the graph. -/
def onGraph (b : Batch) (change : Graph → Graph) : Batch :=
  { b with graph := change b.graph }

/-- Reports a line. -/
def note (b : Batch) (a : Annotation) : Batch :=
  { b with report := b.report.note a }

/-- Reports a line about a node that was changed. -/
def noteChange (b : Batch) (a : Annotation) (id : NodeId) : Batch :=
  { b with report := b.report.noteChange a id }

/-- A known node when a new node takes an id. -/
def KnownNode.afterTaking (g : Graph) (id : NodeId) : KnownNode → KnownNode
  | .live known =>
    if known = id then (g.node? known).elim (.live known) .replaced else .live known
  | .replaced n => .replaced n

/-- Adds a new node. -/
def add (b : Batch) (request : NodeRequest) : Node × Batch :=
  let (n, ids) := request.create b.ids
  (n, { b with
    graph := b.graph.addNode n
    ids
    known := b.known.map (KnownNode.afterTaking b.graph n.id) ++ [.live n.id] })

/-- Removes a node. -/
def remove (b : Batch) (id : NodeId) : Batch :=
  { b with
    graph := b.graph.removeNode id
    known := b.known.filter fun
      | .live known => known != id
      | .replaced n => n.id != id }

/-- The kind of the last known node with an id. -/
def kindOf? (b : Batch) (id : NodeId) : Option Kind :=
  (nodeWithId? b.nodes id).map (·.kind)

/-- The connection puts a file into a folder or feeds it to a code file. -/
def isStructural (b : Batch) (c : Connection) : Bool :=
  match b.kindOf? c.target with
  | some kind => kind == .folder || kind == .code
  | none => false

/-- The connections of a file before the batch that put it somewhere; previews and terminals that
it feeds are no such place. -/
def structural (b : Batch) (c : BatchContext) (id : NodeId) : List Connection :=
  c.before.filter fun edge => edge.source == id && b.isStructural edge

/-- Takes a file out of where it is. -/
def detach (b : Batch) (c : BatchContext) (id : NodeId) : Batch :=
  b.onGraph fun g => (b.structural c id).foldl (fun g edge => g.disconnect edge.id) g

/-- A new connection from the output of a node to an input of another. -/
def newConnection (source target : Node) (role : Role) (sourcePort id : Text) : Connection :=
  { id, source := source.id, sourcePort, target := target.id
    targetPort := Port.inputId target.id role }

/-- Wires a node to an input of another, if the graph takes the connection; tells whether it did. -/
def wire (b : Batch) (source target : Node) (role : Role) : Bool × Batch :=
  match source.outputPort? with
  | none => (false, b)
  | some sourcePort =>
    -- the id is taken whether or not the graph takes the connection
    let (id, ids) := b.ids.fresh Connection.idStem
    let edge := newConnection source target role sourcePort id
    (b.graph.admits edge, { b with graph := b.graph.connect edge, ids })

/-- The folder with a title, made at a place if there is none. -/
def ensureFolder (b : Batch) (title : Text) (position : Position) : Node × Batch :=
  match b.find? title [.folder] with
  | some folder => (folder, b)
  | none =>
    let (folder, b) := b.add { kind := .folder, title := some title, position }
    (folder, b.noteChange (.createdFolder title) folder.id)

/-- Puts a file into a folder. -/
def putInto (b : Batch) (c : BatchContext) (n folder : Node) : Batch :=
  ((b.detach c n.id).wire n folder Role.files).2

/-- The folder fed the node before the batch. -/
def wasLinked (c : BatchContext) (folder n : Node) : Bool :=
  c.before.any fun edge => edge.source == folder.id && edge.target == n.id

/-- Lets the anchor import a folder, unless it did so before the batch or is the file itself. -/
def linkAnchor (b : Batch) (c : BatchContext) (file folder : Node) : Batch :=
  match (b.codeAnchor? c).filter (·.id != file.id) with
  -- a link made earlier in the batch is refused by the graph, not here
  | some anchor => if wasLinked c folder anchor then b else (b.wire folder anchor Role.imports).2
  | none => b

/-- Puts a written file into the folder that its path names. -/
def file (b : Batch) (c : BatchContext) (n : Node) (folder : Text) : Batch :=
  let (folder, b) := b.ensureFolder folder (b.nearAnchor c c.placement.folderOffset)
  let b := (b.putInto c n folder).noteChange (.wired n.title folder.title) n.id
  b.linkAnchor c n folder

/-- Lets the anchor import a new file. -/
def feedAnchor (b : Batch) (c : BatchContext) (n : Node) : Batch :=
  match b.codeAnchor? c with
  | some anchor => (b.wire n anchor Role.imports).2
  | none => b

/-- The path of a known node begins with a folder. -/
def liesIn (b : Batch) (c : BatchContext) (n : Node) (folder : Text) : Bool :=
  (folder ++ "/").toList.isPrefixOf (Path.pathOf n b.nodes c.before).toList

/-- The file with a title, if it may be changed. -/
def editable (b : Batch) (c : BatchContext) (title : Text) (target : Option Node)
    (missing : Refusal) : Except Refusal Node :=
  match target with
  | none => .error missing
  | some n => if c.permits b.graph n.id then .ok n else .error (.locked title)

/-- What writing a file comes to. -/
def decideUpdate (b : Batch) (c : BatchContext) (path content : Text) : Except Refusal Action :=
  let (title, folder) := Path.split path
  let target := match Path.resolve path b.nodes c.before with
    | some n => some n
    -- nothing lies at the path, so a code file with the bare name is meant
    | none => b.find? title [.code]
  match target with
  | none => .ok (.create title content folder)
  | some n =>
    if c.permits b.graph n.id then
      .ok (.overwrite n content (folder.filter fun f => !b.liesIn c n f))
    else .error (.locked title)

/-- What connecting two nodes comes to. -/
def decideConnect (b : Batch) (c : BatchContext) (source target : Node) : Except Refusal Action :=
  if target.kind = .folder then
    if !source.isFile then .error (.notPlaceable source.title)
    else if c.permits b.graph source.id then .ok (.place source target)
    else .error (.locked source.title)
  else if target.kind = .code then
    if Kind.importable.contains source.kind then .ok (.importInto source target)
    else .error (.notImportable source.title target.title)
  else .error (.notConnectable source.title target.title)

/-- What a command comes to; it is not carried out yet. -/
def decide (b : Batch) (c : BatchContext) : Command → Except Refusal Action
  | .updateFile path content => b.decideUpdate c path content
  | .deleteFile title => do
    let n ← b.editable c title (b.find? title [.code]) (.notFound title)
    return .delete n title
  | .moveFile title folder => do
    let n ← b.editable c title (b.find? title [.code, .image, .note]) (.notFoundToMove title)
    return .move n (folder.filter (· != ""))
  | .renameFile oldTitle newTitle => do
    let n ← b.editable c oldTitle (b.find? oldTitle [.code]) (.notFound oldTitle)
    return .rename n oldTitle newTitle
  | .connectFiles sourceTitle targetTitle =>
    match b.find? sourceTitle Kind.all, b.find? targetTitle Kind.all with
    | none, _ => .error (.notFound sourceTitle)
    | some _, none => .error (.notFound targetTitle)
    | some source, some target => b.decideConnect c source target

/-- Carries out what a command comes to. -/
def perform (b : Batch) (c : BatchContext) : Action → Batch
  | .overwrite n content folder =>
    let b := (b.onGraph fun g => g.setContent n.id content).noteChange (.updated n.title) n.id
    match folder with
    | some folder => b.file c n folder
    | none => b
  | .create title content folder =>
    let position := b.nearAnchor c c.placement.fileOffset
    let (n, b) := b.add { kind := .code, title := some title, content := some content, position }
    let b := b.noteChange (.created title) n.id
    match folder with
    | some folder => b.file c n folder
    | none => b.feedAnchor c n
  | .move n none => (b.detach c n.id).noteChange (.moved n.title none) n.id
  | .move n (some title) =>
    -- only connections from before the batch are taken away
    let b := b.detach c n.id
    let offset := c.placement.moveFolderOffset
    let (folder, b) := b.ensureFolder title (n.position.offset offset.x offset.y)
    let b := (b.wire n folder Role.files).2
    b.noteChange (.moved n.title (some folder.title)) n.id
  | .rename n oldTitle newTitle =>
    (b.onGraph fun g => g.setTitle n.id newTitle).noteChange (.renamed oldTitle newTitle) n.id
  | .delete n title => (b.remove n.id).note (.deleted title)
  | .place source folder =>
    (b.putInto c source folder).noteChange (.wired source.title folder.title) source.id
  | .importInto source target =>
    let (isNew, b) := b.wire source target Role.imports
    if isNew then b.noteChange (.connected source.title target.title) target.id
    else b.note (.alreadyConnected source.title target.title)

/-- Carries out a command, or reports why not. -/
def apply (b : Batch) (c : BatchContext) (command : Command) : Batch :=
  match b.decide c command with
  | .ok action => b.perform c action
  | .error refusal => b.note (.refused refusal)

/-- Carries out what a call asks for, or reports why not. -/
def applyCall (b : Batch) (c : BatchContext) (call : Value) : Batch :=
  match Command.ofCall call with
  | .ok command => b.apply c command
  | .error e => b.note (.refused (.invalid e))

end Batch

/-- What a batch needs to know beside the graph. -/
structure BatchSetting where
  anchor : Option NodeId := none
  permits : Graph → NodeId → Bool := fun _ _ => true
  placement : Placement := {}

/-- Carries out a list of calls. -/
def runBatch (setting : BatchSetting) (g : Graph) (ids : IdSource) (calls : List Value) : Batch :=
  let c : BatchContext := ⟨g.connections, setting.anchor, setting.permits, setting.placement⟩
  calls.foldl (fun b call => b.applyCall c call) (.start g ids)

end LiveCanvas
