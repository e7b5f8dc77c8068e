import LiveCanvas.Preview.Compile
import LiveCanvas.Preview.Watch
import LiveCanvas.Proofs.Canvas.Paths
import LiveCanvas.Proofs.Json.RoundTrip
import LiveCanvas.Proofs.Preview.Mentions

/-!
# What previews watch decides what they show

A document is made from ids, kinds, titles and contents of nodes and from the edges between them.
Everything else is wiped off here, function by function along the compile, and nothing changes.  The
watched text can be read back, with pairs of halves joined to characters.  So graphs with one text
have one bare graph, unless a text in them holds such a pair.
-/

namespace LiveCanvas
namespace Watch

/-- The node with nothing but what previews see of it. -/
def bareNode (n : Node) : Node :=
  { id := n.id, kind := n.kind, title := n.title, content := n.content }

/-- The connection with nothing but what previews see of it. -/
def bareEdge (c : Connection) : Connection :=
  { c with id := "" }

@[simp] theorem bareNode_id (n : Node) : (bareNode n).id = n.id := rfl

@[simp] theorem bareNode_kind (n : Node) : (bareNode n).kind = n.kind := rfl

@[simp] theorem bareNode_title (n : Node) : (bareNode n).title = n.title := rfl

@[simp] theorem bareNode_content (n : Node) : (bareNode n).content = n.content := rfl

@[simp] theorem bareEdge_source (c : Connection) : (bareEdge c).source = c.source := rfl

@[simp] theorem bareEdge_target (c : Connection) : (bareEdge c).target = c.target := rfl

@[simp] theorem bareEdge_targetPort (c : Connection) :
    (bareEdge c).targetPort = c.targetPort := rfl

theorem keepsNames_bareNode : KeepsNames bareNode := ⟨fun _ => rfl, fun _ => rfl, fun _ => rfl⟩

theorem keepsEnds_bareEdge : KeepsEnds bareEdge := ⟨fun _ => rfl, fun _ => rfl, fun _ => rfl⟩

/-! ## Walks -/

section Walks

variable (nodes : List Node) (connections : List Connection)

@[simp] theorem nodeWithId?_bare (id : NodeId) :
    nodeWithId? (nodes.map bareNode) id = (nodeWithId? nodes id).map bareNode :=
  nodeWithId?_map bareNode_id nodes id

@[simp] theorem feeds_bareEdge (c : Connection) (node : NodeId) (role : Role) :
    Traversal.feeds (bareEdge c) node role = Traversal.feeds c node role := rfl

theorem singleSource_bare (node : NodeId) (role : Role) :
    Traversal.singleSource node role (nodes.map bareNode) (connections.map bareEdge) =
      (Traversal.singleSource node role nodes connections).map bareNode := by
  simp only [Traversal.singleSource, List.find?_map, Function.comp_def, feeds_bareEdge]
  cases connections.find? fun c => Traversal.feeds c node role with
  | none => rfl
  | some c => simp

@[simp] theorem allSources_bare (node : NodeId) (role : Role) :
    Traversal.allSources node role (nodes.map bareNode) (connections.map bareEdge) =
      (Traversal.allSources node role nodes connections).map bareNode :=
  Traversal.allSources_map bareNode_id keepsEnds_bareEdge nodes connections node role

theorem dependencies_bare (n : Node) :
    Traversal.dependencies (nodes.map bareNode) (connections.map bareEdge) (bareNode n) =
      (Traversal.dependencies nodes connections n).map bareNode := by
  simp only [Traversal.dependencies, bareNode_id, allSources_bare, List.flatMap_map,
    List.map_flatMap]
  congr 1
  funext source
  by_cases h : source.kind = .folder
  · simp [h]
  · simp [h]

/-- A search that expands the images of nodes as it expands the nodes finds the images. -/
theorem discover_map {expand bare : Node → List Node} {f : Node → Node}
    (hid : ∀ n, (f n).id = n.id) (h : ∀ n, bare (f n) = (expand n).map f) (fuel : Nat)
    (visited : List NodeId) (work : List Node) :
    Traversal.discover bare fuel visited (work.map f) =
      (Traversal.discover expand fuel visited work).map f := by
  induction fuel generalizing visited work with
  | zero => rfl
  | succ fuel ih =>
      simp only [Traversal.discover, List.dropWhile_map, Function.comp_def, hid]
      cases work.dropWhile fun n => visited.contains n.id with
      | nil => rfl
      | cons n rest =>
          simp only [List.map_cons]
          rw [h, hid, ← List.map_append, ih]

theorem closure_bare (root : Node) :
    Traversal.closure (bareNode root) (nodes.map bareNode) (connections.map bareEdge) =
      (Traversal.closure root nodes connections).map bareNode := by
  simp only [Traversal.closure, dependencies_bare, bareNode_id, List.length_map]
  exact discover_map bareNode_id (dependencies_bare nodes connections) _ _ _

end Walks

/-! ## Names and sources -/

section Names

variable (nodes : List Node) (connections : List Connection) (n : Node)

@[simp] theorem pathOf_bare :
    Path.pathOf (bareNode n) (nodes.map bareNode) (connections.map bareEdge) =
      Path.pathOf n nodes connections :=
  Path.pathOf_map keepsNames_bareNode keepsEnds_bareEdge nodes connections n

@[simp] theorem fileRole?_bareNode : Naming.fileRole? (bareNode n) = Naming.fileRole? n := rfl

@[simp] theorem packageName_bareNode : Naming.packageName (bareNode n) = Naming.packageName n := rfl

theorem referenceKeys_bare :
    Naming.referenceKeys (bareNode n) (nodes.map bareNode) (connections.map bareEdge) =
      Naming.referenceKeys n nodes connections := by
  simp [Naming.referenceKeys]

theorem sourceOf_bare (packageBase : Text) :
    Imports.sourceOf packageBase (nodes.map bareNode) (connections.map bareEdge) (bareNode n) =
      Imports.sourceOf packageBase nodes connections n := by
  have hwired := Imports.wired_map keepsNames_bareNode keepsEnds_bareEdge packageBase nodes
    connections (fun _ _ _ => rfl) n
  have hmissing : Imports.unmentioned packageBase (nodes.map bareNode) (connections.map bareEdge)
      (bareNode n) = Imports.unmentioned packageBase nodes connections n := by
    simp only [Imports.unmentioned_eq_filter, hwired, bareNode_content]
  rw [Imports.sourceOf, hmissing]
  rfl

end Names

/-! ## Documents -/

section Documents

variable (runtime : Runtime) (transform : Transform) (nodes : List Node)
  (connections : List Connection)

theorem members_bare (root : Node) :
    Compile.members (bareNode root) (nodes.map bareNode) (connections.map bareEdge) =
      (Compile.members root nodes connections).map bareNode := by
  rw [Compile.members, closure_bare]
  rfl

theorem moduleOf_bare (packageBase : Text) (n : Node) :
    Compile.moduleOf packageBase transform (nodes.map bareNode) (connections.map bareEdge)
      (bareNode n) = Compile.moduleOf packageBase transform nodes connections n := by
  simp only [Compile.moduleOf, sourceOf_bare]
  rfl

theorem scripts_bare (members : List Node) :
    Compile.scripts (members.map bareNode) = (Compile.scripts members).map bareNode := by
  simp only [Compile.scripts, List.filter_map, Function.comp_def, fileRole?_bareNode]

theorem packageEntries_bare (packageBase : Text) (members : List Node) :
    Compile.packageEntries packageBase (members.map bareNode) =
      Compile.packageEntries packageBase members := by
  rw [Compile.packageEntries, List.filterMap_map]
  rfl

theorem moduleEntries_bare (n : Node) (m : Module) :
    Compile.moduleEntries (nodes.map bareNode) (connections.map bareEdge) (bareNode n) m =
      Compile.moduleEntries nodes connections n m := by
  rw [Compile.moduleEntries, referenceKeys_bare]
  rfl

theorem styles_bare (members : List Node) :
    Compile.styles (members.map bareNode) = Compile.styles members := by
  simp only [Compile.styles, List.filter_map, Function.comp_def, fileRole?_bareNode, List.map_map,
    bareNode_title, bareNode_content]

theorem modulesOf_bare (packageBase : Text) (members : List Node) :
    Compile.modulesOf packageBase transform (nodes.map bareNode) (connections.map bareEdge)
      (members.map bareNode) =
        Compile.modulesOf packageBase transform nodes connections members := by
  simp only [Compile.modulesOf, scripts_bare, List.map_map, Function.comp_def, moduleOf_bare]

theorem table_bare (members : List Node) (modules : List Module) :
    Compile.table runtime (nodes.map bareNode) (connections.map bareEdge) (members.map bareNode)
      modules = Compile.table runtime nodes connections members modules := by
  simp only [Compile.table, packageEntries_bare, scripts_bare, List.zip_map_left,
    List.flatMap_map, Prod.map_fst, Prod.map_snd, id, moduleEntries_bare]

theorem page_bare (preview : NodeId) (root : Node) (members : List Node) (modules : List Module)
    (table : Fields Text) :
    Compile.page runtime preview (bareNode root) (members.map bareNode) modules table =
      Compile.page runtime preview root members modules table := by
  simp only [Compile.page, styles_bare, bareNode_content, bareNode_id]
  rw [fileRole?_bareNode]

theorem withRoot_bare (preview : NodeId) (root : Node) (reload : Option Text) :
    Compile.withRoot runtime transform preview (bareNode root) (nodes.map bareNode)
      (connections.map bareEdge) reload =
        Compile.withRoot runtime transform preview root nodes connections reload := by
  simp only [Compile.withRoot, members_bare, modulesOf_bare, table_bare, page_bare, bareNode_id]

/-- A document is made from the bare graph. -/
theorem compile_bare (preview : NodeId) (reload : Option Text) :
    compile runtime transform preview (nodes.map bareNode) (connections.map bareEdge) reload =
      compile runtime transform preview nodes connections reload := by
  simp only [compile, singleSource_bare]
  cases Traversal.singleSource preview Role.dom nodes connections with
  | none => rfl
  | some root => exact withRoot_bare runtime transform nodes connections preview root reload

end Documents

/-! ## The watched text -/

/-- The node with the pairs of halves joined in what previews see of it. -/
def joinedNode (n : Node) : Node :=
  { n with id := n.id.joined, title := n.title.joined, content := n.content.joined }

/-- The connection with the pairs of halves joined in what previews see of it. -/
def joinedEdge (c : Connection) : Connection :=
  { c with
    source := c.source.joined, sourcePort := c.sourcePort.joined
    target := c.target.joined, targetPort := c.targetPort.joined }

/-- The graph with the pairs of halves joined in what previews see of it. -/
def joined (g : Graph) : Graph :=
  { g with
    nodes := g.nodes.map joinedNode
    connections := g.connections.map joinedEdge
    running := g.running.map Text.joined }

/-- Nothing that previews see of the graph holds the two halves of a character next to one
another. -/
structure IsUnsplit (g : Graph) : Prop where
  nodes : ∀ n ∈ g.nodes, n.id.IsUnsplit ∧ n.title.IsUnsplit ∧ n.content.IsUnsplit
  edges : ∀ c ∈ g.connections, (c.source.IsUnsplit ∧ c.sourcePort.IsUnsplit) ∧
    c.target.IsUnsplit ∧ c.targetPort.IsUnsplit
  running : ∀ id ∈ g.running, id.IsUnsplit

/-- There is nothing to join in such a graph. -/
theorem IsUnsplit.joined_eq {g : Graph} (h : IsUnsplit g) : joined g = g := by
  have hnodes : g.nodes.map joinedNode = g.nodes := by
    refine (List.map_congr_left fun n hn => ?_).trans (List.map_id _)
    obtain ⟨hid, htitle, hcontent⟩ := h.nodes n hn
    rw [id, joinedNode, Text.joined_eq_self_iff.2 hid, Text.joined_eq_self_iff.2 htitle,
      Text.joined_eq_self_iff.2 hcontent]
  have hedges : g.connections.map joinedEdge = g.connections := by
    refine (List.map_congr_left fun c hc => ?_).trans (List.map_id _)
    obtain ⟨⟨hsource, hsourcePort⟩, htarget, htargetPort⟩ := h.edges c hc
    rw [id, joinedEdge, Text.joined_eq_self_iff.2 hsource, Text.joined_eq_self_iff.2 hsourcePort,
      Text.joined_eq_self_iff.2 htarget, Text.joined_eq_self_iff.2 htargetPort]
  have hrunning : g.running.map Text.joined = g.running :=
    (List.map_congr_left fun id hid => Text.joined_eq_self_iff.2 (h.running id hid)).trans
      (List.map_id _)
  rw [joined, hnodes, hedges, hrunning]

theorem reread_node (n : Node) : (node n).reread = node (joinedNode n) := by
  have hkind : n.kind.wire.joined = n.kind.wire := by
    cases n.kind <;> exact Text.joined_ofString _
  rw [node, reread_texts, node]
  simp [joinedNode, hkind]

theorem reread_edge (c : Connection) : (edge c).reread = edge (joinedEdge c) := by
  rw [edge, reread_texts, edge]
  rfl

/-- What is read back of a graph is the graph with its pairs joined. -/
theorem reread_view (g : Graph) : (view g).reread = view (joined g) := by
  have hedges : (Value.list (g.connections.map edge)).reread =
      .list ((joined g).connections.map edge) := by
    simp only [Value.reread, rereadItems_eq_map, joined, List.map_map, Function.comp_def,
      reread_edge]
  have hnodes : (Value.list (g.nodes.map node)).reread = .list ((joined g).nodes.map node) := by
    simp only [Value.reread, rereadItems_eq_map, joined, List.map_map, Function.comp_def,
      reread_node]
  rw [view, Value.reread, rereadFields_eq_map]
  simp only [List.map_cons, List.map_nil, hedges, hnodes, reread_texts, Text.joined_ofString]
  rw [Fields.ofList_of_nodup (by simp [Fields.names])]
  rfl

theorem isTextual_view (g : Graph) : (view g).IsTextual := by
  have hedges : (Value.list (g.connections.map edge)).IsTextual := by
    rw [Value.IsTextual, itemsTextual_iff]
    intro v hv
    obtain ⟨c, -, rfl⟩ := List.mem_map.1 hv
    exact isTextual_texts _
  have hnodes : (Value.list (g.nodes.map node)).IsTextual := by
    rw [Value.IsTextual, itemsTextual_iff]
    intro v hv
    obtain ⟨n, -, rfl⟩ := List.mem_map.1 hv
    exact isTextual_texts _
  rw [view, Value.IsTextual]
  simp only [FieldsTextual]
  exact ⟨hedges, hnodes, isTextual_texts g.running, trivial⟩

/-- Joining pairs does not change the watched text. -/
theorem text_joined (g : Graph) : text (joined g) = text g := by
  have hedge : ∀ c, Json.write Json.tight (edge (joinedEdge c)) = Json.write Json.tight (edge c) :=
    fun c => by rw [← reread_edge, edge, Json.write_reread_texts]
  have hnode : ∀ n, Json.write Json.tight (node (joinedNode n)) = Json.write Json.tight (node n) :=
    fun n => by rw [← reread_node, node, Json.write_reread_texts]
  have hedges : ((joined g).connections.map edge).map (Json.write Json.tight) =
      (g.connections.map edge).map (Json.write Json.tight) := by
    simp only [joined, List.map_map, Function.comp_def, hedge]
  have hnodes : ((joined g).nodes.map node).map (Json.write Json.tight) =
      (g.nodes.map node).map (Json.write Json.tight) := by
    simp only [joined, List.map_map, Function.comp_def, hnode]
  have hrunning : Json.write Json.tight (.texts (joined g).running) =
      Json.write Json.tight (.texts g.running) := by
    rw [joined, ← reread_texts, Json.write_reread_texts]
  simp only [text, view, Json.write, Json.writeFields, Json.writeItems_eq_map, hedges, hnodes,
    hrunning]

/-- Graphs with one watched text look the same to previews once their pairs are joined. -/
theorem view_joined_eq_of_text_eq {g g' : Graph} (h : text g = text g') :
    view (joined g) = view (joined g') := by
  rw [← reread_view, ← reread_view]
  exact Json.reread_eq_of_write_eq Json.isReadable_tight (isTextual_view g) (isTextual_view g') h

/-- Where there is nothing to join, graphs with one watched text look the same to previews. -/
theorem view_eq_of_text_eq {g g' : Graph} (hg : IsUnsplit g) (hg' : IsUnsplit g')
    (h : text g = text g') : view g = view g' := by
  have hview := view_joined_eq_of_text_eq h
  rwa [hg.joined_eq, hg'.joined_eq] at hview

theorem texts_inj {items items' : List Text} (h : Value.texts items = Value.texts items') :
    items = items' :=
  (List.map_inj_right fun _ _ h => Value.text.inj h).1 (Value.list.inj h)

theorem wire_inj {kind kind' : Kind} (h : kind.wire = kind'.wire) : kind = kind' := by
  have hread := Kind.ofWire?_wire kind
  rw [h, Kind.ofWire?_wire] at hread
  exact (Option.some.inj hread).symm

theorem bareNode_eq_of_node_eq {n n' : Node} (h : node n = node n') : bareNode n = bareNode n' := by
  have hparts := texts_inj h
  simp only [List.cons.injEq, and_true] at hparts
  obtain ⟨hid, hkind, htitle, hcontent⟩ := hparts
  simp only [bareNode]
  rw [hid, wire_inj hkind, htitle, hcontent]

theorem bareEdge_eq_of_edge_eq {c c' : Connection} (h : edge c = edge c') :
    bareEdge c = bareEdge c' := by
  have hparts := texts_inj h
  simp only [List.cons.injEq, and_true] at hparts
  obtain ⟨hsource, hsourcePort, htarget, htargetPort⟩ := hparts
  simp only [bareEdge]
  rw [hsource, hsourcePort, htarget, htargetPort]

/-- When one function of an item decides another one, this holds for whole lists. -/
theorem map_eq_map_of_imp {α β γ : Type} {f : α → β} {f' : α → γ}
    (h : ∀ a b, f a = f b → f' a = f' b) {l l' : List α} (hl : l.map f = l'.map f) :
    l.map f' = l'.map f' := by
  induction l generalizing l' with
  | nil =>
      rw [List.map_nil, eq_comm, List.map_eq_nil_iff] at hl
      rw [hl]
  | cons a l ih =>
      cases l' with
      | nil => simp at hl
      | cons b l' =>
          rw [List.map_cons, List.map_cons, List.cons.injEq] at hl
          rw [List.map_cons, List.map_cons, h a b hl.1, ih hl.2]

/-- Graphs that look the same to previews are the same graph once bare, and run the same
previews. -/
theorem bare_eq_of_view_eq {g g' : Graph} (h : view g = view g') :
    g.nodes.map bareNode = g'.nodes.map bareNode ∧
      g.connections.map bareEdge = g'.connections.map bareEdge ∧ g.running = g'.running := by
  simp only [view, Value.object.injEq, List.cons.injEq, Prod.mk.injEq, true_and, and_true] at h
  obtain ⟨hedges, hnodes, hrunning⟩ := h
  refine ⟨?_, ?_, texts_inj hrunning⟩
  · exact map_eq_map_of_imp (fun _ _ => bareNode_eq_of_node_eq) (Value.list.inj hnodes)
  · exact map_eq_map_of_imp (fun _ _ => bareEdge_eq_of_edge_eq) (Value.list.inj hedges)

end Watch
end LiveCanvas
