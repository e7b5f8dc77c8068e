import LiveCanvas.Canvas.GraphWire
import LiveCanvas.Proofs.Canvas.NodeRoundTrip
import LiveCanvas.Proofs.Canvas.Sound

/-!
# Graphs are read back as they were written

Reading a graph adds its nodes and connections one after the other by the rules of the canvas.  A
sound graph passes through them: its ids are distinct, so no node replaces another, and none of its
connections is refused when those before it are there already.
-/

namespace LiveCanvas

theorem Connection.ofValue_toValue (c : Connection) : ofValue c.toValue = .ok c := rfl

namespace Graph

/-! ## Building a sound graph again -/

theorem foldl_addNode (nodes : List Node) (g : Graph) :
    nodes.foldl addNode g = { g with nodes := nodes.foldl placeNode g.nodes } := by
  induction nodes generalizing g with
  | nil => rfl
  | cons n nodes ih => exact ih (g.addNode n)

theorem foldl_placeNode_of_nodup {nodes : List Node} (h : (idsOf nodes).Nodup) :
    nodes.foldl placeNode [] = nodes := by
  induction nodes using List.reverseRecOn with
  | nil => rfl
  | append_singleton nodes n ih =>
      rw [idsOf_append, List.nodup_append] at h
      obtain ⟨hnodup, -, hdisjoint⟩ := h
      have hnew : n.id ∉ idsOf nodes := fun hmem => hdisjoint n.id hmem n.id (by simp) rfl
      rw [List.foldl_concat, ih hnodup, placeNode_of_notMem hnew]

/-- A connection of a sound graph is taken by the ones before it. -/
theorem Sound.admits {g : Graph} {before after : List Connection} {c : Connection}
    (h : g.Sound) (hsplit : g.connections = before ++ c :: after) :
    { g with connections := before }.admits c = true := by
  have hc : c ∈ g.connections := by simp [hsplit]
  have hends : g.hasEnds c = true := hasEnds_iff.mpr (h.ends_live c hc)
  have hlisted : ¬ Connection.isListed before c = true := by
    intro hlisted
    obtain ⟨other, hother, hkey⟩ := Connection.isListed_iff.mp hlisted
    have hkeys := h.keys_nodup
    rw [hsplit, List.map_append, List.map_cons, List.nodup_append] at hkeys
    exact hkeys.2.2 other.key (List.mem_map_of_mem hother) c.key List.mem_cons_self hkey
  have hblocked : ¬ Connection.isBlocked before c = true := by
    intro hblocked
    obtain ⟨hsingular, other, hother, hport⟩ := Connection.isBlocked_iff.mp hblocked
    have honce := h.singular_once c.targetPort hsingular
    have hother : 0 < before.countP (fun d => d.targetPort == c.targetPort) :=
      List.countP_pos_iff.mpr ⟨other, hother, by simp [hport]⟩
    rw [hsplit, List.countP_append, List.countP_cons_of_pos (by simp)] at honce
    omega
  rw [Graph.admits, Bool.and_eq_true, Connection.admits, Bool.and_eq_true, Bool.not_eq_true',
    Bool.not_eq_true', ← Bool.not_eq_true, ← Bool.not_eq_true]
  exact ⟨hends, hlisted, hblocked⟩

/-- The connections of a sound graph are all taken, one after the other. -/
theorem Sound.connectAll_eq {g : Graph} (h : g.Sound) (before after : List Connection)
    (hsplit : g.connections = before ++ after) :
    after.foldl Graph.connect { g with connections := before } = g := by
  induction after generalizing before with
  | nil =>
      rw [List.append_nil] at hsplit
      rw [List.foldl_nil, ← hsplit]
  | cons c after ih =>
      rw [List.foldl_cons, Graph.connect, if_pos (h.admits hsplit)]
      exact ih (before ++ [c]) (by simp [hsplit])

/-- A sound graph is built again from its nodes and connections. -/
theorem build_eq {g : Graph} (h : g.Sound) :
    build g.nodes g.connections = { nodes := g.nodes, connections := g.connections } := by
  have hnodes : g.nodes.foldl addNode ({} : Graph) = { nodes := g.nodes } := by
    rw [foldl_addNode, foldl_placeNode_of_nodup h.ids_nodup]
  have hsound : Sound { nodes := g.nodes, connections := g.connections } := h.of_same rfl rfl
  rw [build, hnodes]
  exact hsound.connectAll_eq [] g.connections rfl

/-! ## Graphs from files -/

/-- The numbers of a graph. -/
def numbers (g : Graph) : List Number :=
  [.real g.pan.x, .real g.pan.y, g.zoom] ++ g.nodes.flatMap Node.numbers

/-- The graph as it is read back. -/
def readBack (g : Graph) : Graph :=
  { nodes := g.nodes.map Node.readBack
    connections := g.connections
    pan := g.pan
    zoom := g.zoom.asReal
    running := g.running }

theorem idsOf_readBack (g : Graph) : idsOf g.readBack.nodes = idsOf g.nodes := by
  simp [readBack, idsOf, Function.comp_def]

theorem hasNode_readBack (g : Graph) (id : NodeId) : g.readBack.hasNode id = g.hasNode id := by
  rw [Bool.eq_iff_iff, hasNode_iff, hasNode_iff, idsOf_readBack]

theorem Sound.readBack {g : Graph} (h : g.Sound) : g.readBack.Sound :=
  h.of_same (idsOf_readBack g) rfl

section ReadBack

variable {g : Graph} (hdouble : ∀ n ∈ g.numbers, n.IsDouble)
include hdouble

theorem isDouble_zoom : g.zoom.IsDouble := hdouble g.zoom (by simp [numbers])

theorem isDouble_node {n : Node} (hn : n ∈ g.nodes) : ∀ x ∈ n.numbers, x.IsDouble := by
  intro x hx
  exact hdouble x (List.mem_append_right _ (List.mem_flatMap.mpr ⟨n, hn, hx⟩))

/-- What is read back is written as before, but for how its numbers are written. -/
theorem byValue_toValue_readBack : g.readBack.toValue.byValue = g.toValue.byValue := by
  have hnodes : (g.nodes.map Node.readBack).map (fun n => n.toValue.byValue) =
      g.nodes.map fun n => n.toValue.byValue := by
    rw [List.map_map]
    exact List.map_congr_left fun n hn => Node.byValue_toValue_readBack (isDouble_node hdouble hn)
  have hzoom := (isDouble_zoom hdouble).byValue_asReal
  simp only [List.map_map, Function.comp_def] at hnodes
  simp only [toValue, readBack, Value.byValue_object, List.map_cons, Value.byValue_list,
    Value.byValue_number, List.map_map, Function.comp_def, hzoom, hnodes]

/-- A graph file holds the graph. -/
theorem ofValue_toValue (hsound : g.Sound) (hrunning : ∀ id ∈ g.running, g.hasNode id = true) :
    ofValue g.toValue = .ok g.readBack := by
  have hnodes : (g.nodes.map Node.toValue).mapM Node.ofValue = .ok (g.nodes.map Node.readBack) :=
    mapM_map_eq_ok fun n hn => Node.ofValue_toValue (isDouble_node hdouble hn)
  have hconnections : (g.connections.map Connection.toValue).mapM Connection.ofValue =
      .ok g.connections :=
    mapM_map_eq_ok_self Connection.ofValue_toValue
  have hbuild : build (g.nodes.map Node.readBack) g.connections =
      { nodes := g.nodes.map Node.readBack, connections := g.connections } :=
    build_eq hsound.readBack
  -- the graph that was built has the nodes of the one that was written
  have hkept : g.running.filter
      (hasNode { nodes := g.nodes.map Node.readBack, connections := g.connections }) =
      g.running := by
    rw [List.filter_eq_self]
    intro id hid
    exact (hasNode_readBack g id).trans (hrunning id hid)
  have hplace : g.pan.toValue.toFieldsIfTrue =
      .ok [("x", .real g.pan.x), ("y", .real g.pan.y)] := rfl
  have hpan : Position.ofFields [("x", .real g.pan.x), ("y", .real g.pan.y)] = .ok g.pan := rfl
  obtain ⟨zoom, hreal, -⟩ := (isDouble_zoom hdouble).exists_toReal?
  have hzoom : (Value.number g.zoom).toReal = .ok zoom := by simp [Value.toReal, hreal]
  simp [ofValue, toValue, Value.toFields, bare, bind, Except.bind, pure, Except.pure, ofFields,
    Value.field, Value.realField, Fields.get?_cons, Value.elementsIfTrue_list, Value.texts,
    Function.comp_def, Value.asText, hnodes, hconnections, hbuild, hkept, hplace, hpan, hzoom,
    readBack, Number.asReal_of_toReal? hreal]

end ReadBack
end Graph
end LiveCanvas
