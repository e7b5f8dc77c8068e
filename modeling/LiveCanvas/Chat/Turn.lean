import LiveCanvas.Chat.Failover
import LiveCanvas.Chat.Prompt
import LiveCanvas.Chat.Service
import LiveCanvas.Edit.Batch
import LiveCanvas.Edit.Declaration

/-!
# Turns of the assistant

A turn begins by marking the nodes it works on as loading, asks the service, and ends by applying
what came back and clearing the marks.  Between beginning and end the graph may change, so the end
looks everything up again by id.
-/

namespace LiveCanvas

/-- What a turn is for. -/
inductive TurnKind
  /-- A message of a chat. -/
  | send (chat : NodeId)
  /-- A change of one code file. -/
  | generate (file : NodeId)
  /-- The repair of what an error message names. -/
  | fix

/-- A turn that has begun. -/
structure Turn where
  kind : TurnKind
  loading : List NodeId
  system : Text
  prompt : Text
  tools : List Tool

/-- Whose turns they are, and where new nodes are placed. -/
structure Assistant where
  identity : Option Text := none
  placement : Placement := {}

/-- How a turn ends. -/
structure TurnEnd where
  graph : Graph
  ids : IdSource
  result : Except ServiceError BatchReport

namespace Turn

/-- Marks the nodes of a turn as loading. -/
def mark (turn : Turn) (g : Graph) : Graph :=
  g.setLoadingAll turn.loading true

/-- Takes the marks away. -/
def unmark (turn : Turn) (g : Graph) : Graph :=
  g.setLoadingAll turn.loading false

/-- What a chat is about: what hangs together with it, what was picked as its context, and the chat
itself. -/
def scope (g : Graph) (chat : Node) : List Node :=
  let related := Traversal.related chat.id g.nodes g.connections none
  ((related.map (·.id) ++ chat.contextIds ++ [chat.id]).eraseDups).filterMap g.node?

/-- The nodes of a chat and the folders of its files. -/
def chatLoading (g : Graph) (scope files : List Node) : List NodeId :=
  scope.map (·.id) ++ files.filterMap fun n =>
    (Path.folderOf n g.nodes g.connections).map (·.id)

/-- Begins a chat turn; without the chat there is none. -/
def beginSend (g : Graph) (chat : NodeId) (text : Text) : Option (Turn × Graph) :=
  (g.node? chat).map fun n =>
    let scope := scope g n
    let files := scope.filter (·.kind == .code)
    -- the service sees the project as it was before the message and the marks
    let told := g.addMessage chat ⟨.user, text⟩
    let turn : Turn := {
      kind := .send chat
      loading := chatLoading g scope files
      system := Prompt.system g.nodes g.connections
      prompt := Prompt.chat text files g.nodes g.connections
      tools := Tool.all }
    (turn, turn.mark told)

/-- Begins a turn on one code file, if the file is there and may be changed. -/
def beginGenerate (a : Assistant) (g : Graph) (file : NodeId) (request : Option Text) :
    Option (Turn × Graph) :=
  ((g.node? file).filter fun n => n.kind == .code && g.permits a.identity file).map fun n =>
    let related := Traversal.related file g.nodes g.connections none
    let turn : Turn := {
      kind := .generate file
      loading := (related.filter fun m => m.kind == .code || m.kind == .folder).map (·.id)
      system := Prompt.system g.nodes g.connections
      prompt := Prompt.focus n request
      tools := Tool.all }
    (turn, turn.mark g)

/-- The code files that hang together with whatever feeds a preview, each once. -/
def filesBehind (g : Graph) (preview : NodeId) : List Node :=
  ((g.connectionsTo preview).flatMap fun c =>
    Traversal.related c.source g.nodes g.connections (some .code)).foldl
      (fun found n => if found.any (·.id == n.id) then found else found ++ [n]) []

/-- The preview that a terminal listens to. -/
def previewOf? (g : Graph) (terminal : NodeId) : Option Node :=
  ((g.node? terminal).filter (·.kind == .terminal)).bind fun _ =>
    Traversal.singleSource terminal Role.source g.nodes g.connections

/-- Begins the repair of an error that a terminal shows, if there is code behind it. -/
def beginFix (g : Graph) (terminal : NodeId) (error : Text) : Option (Turn × Graph) :=
  (previewOf? g terminal).bind fun preview =>
    match filesBehind g preview.id with
    | [] => none
    | files =>
      let turn : Turn := {
        kind := .fix
        loading := files.map (·.id)
        system := Prompt.fixInstructions
        prompt := Prompt.fix error files g.nodes g.connections
        tools := [.updateFile] }
      some (turn, turn.mark g)

/-- Applies the calls of a reply. -/
def applyCalls (a : Assistant) (anchor : Option NodeId) (g : Graph) (ids : IdSource)
    (calls : List Value) : Batch :=
  runBatch ⟨anchor, fun g => g.permits a.identity, a.placement⟩ g ids calls

/-- What a chat says after its edits: the text of the reply and the report, as far as there is
one. -/
def replyText (text transcript : Text) : Text :=
  Text.unlines ([text, transcript].filter (· != ""))

/-- Ends a chat turn with a reply. -/
def endSend (a : Assistant) (chat : NodeId) (g : Graph) (ids : IdSource) (reply : Reply) :
    TurnEnd :=
  let g := g.addMessage chat ⟨.model, reply.text⟩
  if reply.calls.isEmpty then ⟨g, ids, .ok {}⟩
  else
    let b := applyCalls a (some chat) g ids reply.calls
    -- every call leaves a line, so there is a report to tell
    ⟨b.graph.setLastMessage chat (replyText reply.text b.report.transcript), b.ids, .ok b.report⟩

/-- Ends a turn on one code file: a reply without calls is the new content of the file. -/
def endGenerate (a : Assistant) (file : NodeId) (g : Graph) (ids : IdSource) (reply : Reply) :
    TurnEnd :=
  if !reply.calls.isEmpty then
    let b := applyCalls a (some file) g ids reply.calls
    ⟨b.graph, b.ids, .ok b.report⟩
  else ⟨if reply.text = "" then g else g.setContent file (Prompt.codeOf reply.text), ids, .ok {}⟩

/-- The call asks for a file to be written. -/
def isUpdate : Value → Bool
  | .object fields => (Value.field fields "name").isText Tool.updateFile.name
  | _ => false

/-- Ends a repair: it may write files and nothing else. -/
def endFix (a : Assistant) (g : Graph) (ids : IdSource) (reply : Reply) : TurnEnd :=
  let b := applyCalls a none g ids (reply.calls.filter isUpdate)
  ⟨b.graph, b.ids, .ok b.report⟩

/-- Ends a turn without a reply; a chat says why. -/
def endFailed (kind : TurnKind) (g : Graph) (ids : IdSource) (e : ServiceError) : TurnEnd :=
  let g := match kind with
    | .send chat => g.addMessage chat ⟨.model, "Error: " ++ e.message⟩
    | _ => g
  ⟨g, ids, .error e⟩

/-- Applies what came back. -/
def apply (turn : Turn) (a : Assistant) (g : Graph) (ids : IdSource) :
    Except ServiceError Reply → TurnEnd
  | .error e => endFailed turn.kind g ids e
  | .ok reply =>
    match turn.kind with
    | .send chat => endSend a chat g ids reply
    | .generate file => endGenerate a file g ids reply
    | .fix => endFix a g ids reply

/-- Ends a turn, however it went. -/
def finish (turn : Turn) (a : Assistant) (g : Graph) (ids : IdSource)
    (answer : Except ServiceError Reply) : TurnEnd :=
  let ended := turn.apply a g ids answer
  { ended with graph := turn.unmark ended.graph }

/-- The nodes whose change is shown at the end of a turn. -/
def highlighted (turn : Turn) (answer : Except ServiceError Reply) (report : BatchReport) :
    List NodeId :=
  match turn.kind, answer with
  | .generate file, .ok reply =>
    if reply.calls.isEmpty && reply.text != "" then [file] else report.highlighted
  | _, _ => report.highlighted

end Turn
end LiveCanvas
