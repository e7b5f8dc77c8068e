import LiveCanvas.Proofs.Canvas.Sound
import LiveCanvas.Proofs.Edit.Kept

/-!
# Graphs that come about

A graph begins as nodes and connections that are added one after the other, or is read from a file.
From then on it is changed by the operations of the canvas, by snapshots of other sessions, and by
batches of edits.  Every graph that comes about in this way is sound, however long its history is.
-/

namespace LiveCanvas

/-- One change of a graph. -/
inductive Change
  | addNode (n : Node)
  | removeNode (id : NodeId)
  | connect (c : Connection)
  | disconnect (name : Text)
  | setContent (id : NodeId) (content : Text)
  | setTitle (id : NodeId) (title : Text)
  | setPosition (id : NodeId) (position : Position)
  | setSize (id : NodeId) (size : Size)
  | setLoading (id : NodeId) (isLoading : Bool)
  | addMessage (id : NodeId) (message : Message)
  | setLastMessage (id : NodeId) (text : Text)
  | setContext (id : NodeId) (ids : List NodeId)
  | setSharedState (id : NodeId) (sharedState : Value)
  | toggleMinimized (id : NodeId)
  | select (selection : Selection)
  | setPan (pan : Position)
  | setZoom (zoom : Number)
  | lock (id : NodeId) (identity : Text)
  | unlock (id : NodeId) (identity : Option Text)
  | beginGesture (id : NodeId) (gesture : Gesture)
  | endGesture (id : NodeId)
  | addLog (id : NodeId) (entry : LogEntry)
  | clearLogs (id : NodeId)
  | setRunning (id : NodeId) (isRunning : Bool)
  /-- A snapshot arrives; what it holds may be anything. -/
  | reconcile (payload : Value)
  /-- A batch of edits is made; the calls may be anything. -/
  | runBatch (setting : BatchSetting) (ids : IdSource) (calls : List Value)

/-- What a change makes of a graph.  A change that is refused makes nothing of it. -/
def Change.apply (g : Graph) : Change → Graph
  | addNode n => g.addNode n
  | removeNode id => g.removeNode id
  | connect c => g.connect c
  | disconnect name => g.disconnect name
  | setContent id content => g.setContent id content
  | setTitle id title => g.setTitle id title
  | setPosition id position => g.setPosition id position
  | setSize id size => g.setSize id size
  | setLoading id isLoading => g.setLoading id isLoading
  | addMessage id message => g.addMessage id message
  | setLastMessage id text => g.setLastMessage id text
  | setContext id ids => g.setContext id ids
  | setSharedState id sharedState => g.setSharedState id sharedState
  | toggleMinimized id => g.toggleMinimized id
  | select selection => { g with selection }
  | setPan pan => { g with pan }
  | setZoom zoom => { g with zoom }
  | lock id identity => g.lock id identity
  | unlock id identity => g.unlock id identity
  | beginGesture id gesture => (g.beginGesture id gesture).toOption.getD g
  | endGesture id => g.endGesture id
  | addLog id entry => g.addLog id entry
  | clearLogs id => g.clearLogs id
  | setRunning id isRunning => g.setRunning id isRunning
  | reconcile payload => ((g.reconcile payload).toOption.map (·.1)).getD g
  | runBatch setting ids calls => (LiveCanvas.runBatch setting g ids calls).graph

/-- The graphs that come about. -/
inductive Reached : Graph → Prop
  | built (nodes : List Node) (connections : List Connection) :
      Reached (Graph.build nodes connections)
  | loaded {v : Value} {g : Graph} : Graph.ofValue v = .ok g → Reached g
  | changed {g : Graph} (change : Change) : Reached g → Reached (change.apply g)

namespace Graph

/-- Minimizing keeps the id of a node. -/
theorem id_toggleNode (n : Node) : (toggleNode n).id = n.id := by
  unfold toggleNode
  split
  · split <;> rfl
  · rfl

theorem Sound.lock {g : Graph} (h : g.Sound) (id : NodeId) (identity : Text) :
    (g.lock id identity).Sound := by
  unfold Graph.lock
  split
  · exact h.modifyNode fun _ => rfl
  · exact h

theorem Sound.unlock {g : Graph} (h : g.Sound) (id : NodeId) (identity : Option Text) :
    (g.unlock id identity).Sound := by
  unfold Graph.unlock
  split
  · exact h.modifyNode fun _ => rfl
  · exact h

theorem Sound.beginGesture {g : Graph} (h : g.Sound) (id : NodeId) (gesture : Gesture) :
    ((g.beginGesture id gesture).toOption.getD g).Sound := by
  unfold Graph.beginGesture
  split
  · split
    · exact h.of_same rfl rfl
    · exact h
  · exact h.of_same rfl rfl

theorem Sound.setRunning {g : Graph} (h : g.Sound) (id : NodeId) (isRunning : Bool) :
    (g.setRunning id isRunning).Sound := by
  unfold Graph.setRunning
  split
  · split
    · exact h
    · exact h.of_same rfl rfl
  · exact h.of_same rfl rfl

/-- A snapshot that is refused changes nothing, and one that is taken over leaves a sound graph. -/
theorem Sound.reconcile {g : Graph} (h : g.Sound) (payload : Value) :
    (((g.reconcile payload).toOption.map (·.1)).getD g).Sound := by
  cases hread : Incoming.ofValue payload with
  | error e => simpa [Graph.reconcile, hread, bind, Except.bind, Except.toOption] using h
  | ok s =>
      simpa [Graph.reconcile, hread, bind, Except.bind, pure, Except.pure, Except.toOption]
        using h.merge s

/-- The elementary edits of a batch are operations of the canvas. -/
theorem keeps_sound : Batch.Keeps fun b => b.graph.Sound :=
  .ofGraph (fun _ n h => h.addNode n) (fun _ id h => h.removeNode id) (fun _ c h => h.connect c)
    (fun _ name h => h.disconnect name) (fun _ _ _ h => h.modifyNode fun _ => rfl)
    (fun _ _ _ h => h.modifyNode fun _ => rfl)

theorem Sound.runBatch {g : Graph} (h : g.Sound) (setting : BatchSetting) (ids : IdSource)
    (calls : List Value) : (LiveCanvas.runBatch setting g ids calls).graph.Sound :=
  keeps_sound.applyCalls h _ calls

/-- One change keeps a graph sound. -/
theorem Sound.apply {g : Graph} (h : g.Sound) (change : Change) : (change.apply g).Sound := by
  cases change with
  | addNode n => exact h.addNode n
  | removeNode id => exact h.removeNode id
  | connect c => exact h.connect c
  | disconnect name => exact h.disconnect name
  | setContent | setTitle | setPosition | setSize | setLoading | addMessage | setLastMessage
  | setContext | setSharedState => exact h.modifyNode fun _ => rfl
  | toggleMinimized => exact h.modifyNode id_toggleNode
  | select | setPan | setZoom | endGesture | addLog | clearLogs => exact h.of_same rfl rfl
  | lock id identity => exact h.lock id identity
  | unlock id identity => exact h.unlock id identity
  | beginGesture id gesture => exact h.beginGesture id gesture
  | setRunning id isRunning => exact h.setRunning id isRunning
  | reconcile payload => exact h.reconcile payload
  | runBatch setting ids calls => exact h.runBatch setting ids calls

end Graph

/-- One change after the other. -/
theorem Reached.changedAll {g : Graph} (h : Reached g) (changes : List Change) :
    Reached (changes.foldl Change.apply g) := by
  induction changes generalizing g with
  | nil => exact h
  | cons change changes ih => exact ih (h.changed change)

/-- Every graph that comes about is sound. -/
theorem sound_of_reached {g : Graph} (h : Reached g) : g.Sound := by
  induction h with
  | built nodes connections => exact Graph.sound_build nodes connections
  | loaded hload => exact Graph.sound_of_ofValue hload
  | changed change _ ih => exact ih.apply change

/-- In every graph that comes about connections lead between nodes of the graph, no edge is there
twice, and no input that takes one connection is the target of two. -/
theorem connections_regular_of_reached {g : Graph} (h : Reached g) :
    (∀ c ∈ g.connections, g.hasNode c.source = true ∧ g.hasNode c.target = true) ∧
    g.connections.Pairwise (fun c d => c.key ≠ d.key) ∧
    ∀ port, Port.isSingularInput port = true →
      (g.connections.filter fun c => c.targetPort == port).length ≤ 1 := by
  have hsound := sound_of_reached h
  refine ⟨?_, ?_, ?_⟩
  · intro c hc
    rw [Graph.hasNode_iff, Graph.hasNode_iff]
    exact hsound.ends_live c hc
  · exact List.pairwise_map.mp hsound.keys_nodup
  · intro port hport
    rw [← List.countP_eq_length_filter]
    exact hsound.singular_once port hport

/-- A page that feeds a preview is moved into a new folder by a batch, and then a snapshot of
another session leaves the folder out and brings a second page for the same preview. -/
theorem connections_regular_of_reached_snapshot_after_batch :
    let page : Node := { id := "a", kind := .code, title := "a.html" }
    let preview : Node := { id := "p", kind := .preview, title := "Preview" }
    let call : Value := .object [("name", .text "moveFile"), ("args", .object
      [("filename", .text "a.html"), ("targetFolderName", .text "lib")])]
    let edge (id source : Text) : Value := .object [("id", .text id),
      ("sourceNodeId", .text source), ("sourcePortId", .text (source ++ "-out-dom")),
      ("targetNodeId", .text "p"), ("targetPortId", .text "p-in-dom")]
    let node (id kind : Text) : Value := .object [("id", .text id), ("type", .text kind)]
    let snapshot : Value := .object
      [("nodes", .list [node "a" "CODE", node "p" "PREVIEW", node "b" "CODE"]),
        ("connections", .list [edge "e1" "a", edge "e2" "b", edge "e3" "gone"])]
    let g := Change.apply (Change.apply
      (Graph.build [page, preview] [⟨"e1", "a", "a-out-dom", "p", "p-in-dom"⟩])
      (.runBatch {} {} [call])) (.reconcile snapshot)
    Reached g ∧
      (∀ c ∈ g.connections, g.hasNode c.source = true ∧ g.hasNode c.target = true) ∧
      g.connections.Pairwise (fun c d => c.key ≠ d.key) ∧
      ∀ port, Port.isSingularInput port = true →
        (g.connections.filter fun c => c.targetPort == port).length ≤ 1 := by
  intro page preview call edge node snapshot g
  have hreached : Reached g := .changed _ (.changed _ (.built _ _))
  exact ⟨hreached, connections_regular_of_reached hreached⟩

end LiveCanvas
