import LiveCanvas.Proofs.Canvas.Sound

/-!
# What a snapshot leaves of the nodes

A snapshot with nodes is the authority on which nodes there are.  Its ids follow each other as they
first occur, and under each id stands the last node that the snapshot has for it, with the fields
that a gesture in progress here protects.  Console lines and gestures go with the nodes that are
dropped and with no others.
-/

namespace LiveCanvas
namespace Graph

/-- A node `m` is what a merge makes of the node `n` of a snapshot: `n` itself, except that a node
which is dragged here keeps its place, and one which is edited here its content and title. -/
structure MergedFrom (g : Graph) (n m : Node) : Prop where
  absent : g.node? n.id = none → m = n
  idle : g.gesture? n.id = none → m = n
  dragged : ∀ here, g.node? n.id = some here → g.gesture? n.id = some .drag →
    m = { n with position := here.position }
  edited : ∀ here, g.node? n.id = some here → g.gesture? n.id = some .edit →
    m = { n with content := here.content, title := here.title }

theorem mergedFrom_mergeNode (g : Graph) (n : Node) : MergedFrom g n (g.mergeNode n) := by
  unfold mergeNode
  constructor
  · intro habsent
    rw [habsent]
  · intro hidle
    cases hhere : g.node? n.id with
    | none => rfl
    | some here => simp [hidle]
  · intro here hhere hdrag
    rw [hhere, hdrag]
  · intro here hhere hedit
    rw [hhere, hedit]

@[simp] theorem id_mergeNode (g : Graph) (n : Node) : (g.mergeNode n).id = n.id := by
  unfold mergeNode
  split
  · rfl
  · split <;> rfl

@[simp] theorem idsOf_map_mergeNode (g : Graph) (nodes : List Node) :
    idsOf (nodes.map g.mergeNode) = idsOf nodes := by
  simp [idsOf]

/-! ## Nodes -/

theorem idsOf_mergeNodes (g : Graph) (nodes : List Node) :
    idsOf (g.mergeNodes nodes).nodes = (idsOf nodes).eraseDups := by
  rw [← idsOf_map_mergeNode g nodes]
  exact idsOf_foldl_placeNode _

theorem node?_mergeNodes (g : Graph) (nodes : List Node) (id : NodeId) :
    (g.mergeNodes nodes).node? id = (nodeWithId? nodes id).map g.mergeNode := by
  have hlast : (g.mergeNodes nodes).node? id = nodeWithId? (nodes.map g.mergeNode) id :=
    find?_foldl_placeNode _ id
  have hcomp : (fun n : Node => n.id == id) ∘ g.mergeNode = fun n => n.id == id := by
    funext n
    simp
  rw [hlast, nodeWithId?, ← List.map_reverse, List.find?_map, hcomp]
  rfl

theorem exists_nodeWithId? {nodes : List Node} {id : NodeId} (h : id ∈ idsOf nodes) :
    ∃ n, nodeWithId? nodes id = some n ∧ n.id = id := by
  cases hfind : nodeWithId? nodes id with
  | none =>
      obtain ⟨n, hn, hid⟩ := mem_idsOf.mp h
      exact absurd (by simpa using hid)
        (List.find?_eq_none.mp hfind n (List.mem_reverse.mpr hn))
  | some n => exact ⟨n, rfl, (nodeWithId?_eq_some hfind).2⟩

/-! ## Console lines and gestures -/

theorem foldl_erase_eq_filter {β : Type} (names : List Text) (fields : Fields β) :
    names.foldl Fields.erase fields = fields.filter fun entry => !names.contains entry.1 := by
  induction names generalizing fields with
  | nil => simp
  | cons name names ih =>
      rw [List.foldl_cons, ih, Fields.erase, List.filter_filter]
      apply List.filter_congr
      intro entry _
      by_cases h : entry.1 = name <;> simp [h]

theorem logs_mergeNodes (g : Graph) (nodes : List Node) :
    (g.mergeNodes nodes).logs =
      g.logs.filter fun entry => !(g.reportNodes nodes).dropped.contains entry.1 :=
  foldl_erase_eq_filter _ _

theorem gestures_mergeNodes (g : Graph) (nodes : List Node) :
    (g.mergeNodes nodes).gestures =
      g.gestures.filter fun entry => !(g.reportNodes nodes).dropped.contains entry.1 :=
  foldl_erase_eq_filter _ _

/-! ## Connections

Whatever a snapshot says of the connections, nothing else depends on it. -/

theorem exists_connect_eq (g : Graph) (c : Connection) :
    ∃ connections, g.connect c = { g with connections } := by
  unfold connect
  split
  · exact ⟨_, rfl⟩
  · exact ⟨g.connections, rfl⟩

theorem exists_connectAll_eq (g : Graph) (added : List Connection) :
    ∃ connections, added.foldl connect g = { g with connections } := by
  induction added generalizing g with
  | nil => exact ⟨g.connections, rfl⟩
  | cons c added ih =>
      obtain ⟨connections, hfirst⟩ := exists_connect_eq g c
      obtain ⟨connections', hrest⟩ := ih (g.connect c)
      rw [List.foldl_cons, hrest, hfirst]
      exact ⟨connections', rfl⟩

theorem exists_mergeConnections_eq (g : Graph) (given : Option (List Connection)) :
    ∃ connections, g.mergeConnections given = { g with connections } := by
  cases given with
  | none => exact ⟨_, rfl⟩
  | some given =>
      obtain ⟨connections, h⟩ := exists_connectAll_eq { g with connections := [] } given
      exact ⟨connections, h⟩

/-- A snapshot with nodes exchanges the nodes and what hangs off them; the sections for connections,
running previews, pan and zoom touch none of this. -/
theorem exists_merge_eq (g : Graph) {s : Incoming} {nodes : List Node} (h : s.nodes = some nodes) :
    ∃ connections running pan zoom,
      g.merge s = { g.mergeNodes nodes with connections, running, pan, zoom } := by
  obtain ⟨connections, hconnections⟩ :=
    exists_mergeConnections_eq (g.mergeNodes nodes) s.connections
  simp only [merge, h, hconnections]
  exact ⟨_, _, _, _, rfl⟩

theorem reconcile_of_ofValue (g : Graph) {payload : Value} {s : Incoming}
    (h : Incoming.ofValue payload = .ok s) :
    g.reconcile payload = .ok (g.merge s, g.mergeReport s) := by
  simp [reconcile, h, bind, Except.bind, pure, Except.pure]

/-- A snapshot that can be read and has nodes is taken over field by field.  The ids are those of
the snapshot in the order of their first occurrence; under each stands what the merge makes of its
last occurrence; and what is dropped, with its console lines and gesture, is what was here and is
not in the snapshot. -/
theorem reconcile_takes_fields (g : Graph) {payload : Value} {s : Incoming} {nodes : List Node}
    (hread : Incoming.ofValue payload = .ok s) (hnodes : s.nodes = some nodes) :
    ∃ after report, g.reconcile payload = .ok (after, report) ∧
      idsOf after.nodes = (idsOf nodes).eraseDups ∧
      (∀ id ∈ idsOf nodes, ∃ n m,
        nodeWithId? nodes id = some n ∧ after.node? id = some m ∧ MergedFrom g n m) ∧
      report.dropped = (idsOf g.nodes).filter (fun id => !(idsOf nodes).contains id) ∧
      (∀ id, id ∈ report.added ↔ id ∈ idsOf nodes ∧ id ∉ idsOf g.nodes) ∧
      after.logs = g.logs.filter (fun entry => !report.dropped.contains entry.1) ∧
      after.gestures = g.gestures.filter (fun entry => !report.dropped.contains entry.1) := by
  have hreport : g.mergeReport s = g.reportNodes nodes := by
    rw [mergeReport, hnodes]
  obtain ⟨connections, running, pan, zoom, hmerge⟩ := exists_merge_eq g hnodes
  refine ⟨g.merge s, g.reportNodes nodes, ?_, ?_, ?_, rfl, ?_, ?_, ?_⟩
  · rw [reconcile_of_ofValue g hread, hreport]
  · rw [hmerge]
    exact idsOf_mergeNodes g nodes
  · intro id hid
    obtain ⟨n, hlast, -⟩ := exists_nodeWithId? hid
    refine ⟨n, g.mergeNode n, hlast, ?_, mergedFrom_mergeNode g n⟩
    have hfound : (g.mergeNodes nodes).node? id = some (g.mergeNode n) := by
      rw [node?_mergeNodes, hlast, Option.map_some]
    rw [hmerge]
    exact hfound
  · intro id
    have hhere : g.hasNode id = false ↔ id ∉ idsOf g.nodes := by
      rw [← hasNode_iff, Bool.not_eq_true]
    show id ∈ (idsOf nodes).filter (fun id => !g.hasNode id) ↔ _
    rw [List.mem_filter, Bool.not_eq_true', hhere]
  · rw [hmerge]
    exact logs_mergeNodes g nodes
  · rw [hmerge]
    exact gestures_mergeNodes g nodes

/-- A code file that is edited here becomes a note, and the snapshot has it twice; a file that is
dragged here is dropped. -/
theorem reconcile_takes_fields_repeated_id :
    let node (id kind title content : Text) : Value := .object [("id", .text id),
      ("type", .text kind), ("title", .text title), ("content", .text content)]
    let payload : Value := .object [("nodes", .list [node "a" "CODE" "a.js" "1",
      node "b" "TEXT" "b.md" "2", node "a" "TEXT" "a.md" "3"])]
    let g : Graph := {
      nodes := [{ id := "a", kind := .code, title := "old.js", content := "old" },
        { id := "c", kind := .code, title := "c.js" }]
      logs := [("a", []), ("c", [])]
      gestures := [("a", .edit), ("c", .drag)] }
    ∃ s nodes, Incoming.ofValue payload = .ok s ∧ s.nodes = some nodes ∧
      ∃ after report, g.reconcile payload = .ok (after, report) ∧
        idsOf after.nodes = (idsOf nodes).eraseDups ∧
        (∀ id ∈ idsOf nodes, ∃ n m,
          nodeWithId? nodes id = some n ∧ after.node? id = some m ∧ MergedFrom g n m) ∧
        report.dropped = (idsOf g.nodes).filter (fun id => !(idsOf nodes).contains id) ∧
        (∀ id, id ∈ report.added ↔ id ∈ idsOf nodes ∧ id ∉ idsOf g.nodes) ∧
        after.logs = g.logs.filter (fun entry => !report.dropped.contains entry.1) ∧
        after.gestures = g.gestures.filter (fun entry => !report.dropped.contains entry.1) := by
  intro node payload g
  exact ⟨_, _, rfl, rfl, reconcile_takes_fields g rfl rfl⟩

end Graph
end LiveCanvas
