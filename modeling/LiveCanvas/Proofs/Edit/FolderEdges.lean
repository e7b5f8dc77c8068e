import LiveCanvas.Proofs.Edit.Scope

/-!
# Edges into folders

A node has an edge into each folder that it lies in.  An edit can take such an edge away only by
removing the node or by the id of a connection of a node that it may change, and no edit adds one:
only putting a file into a folder does that, and only for that file.
-/

namespace LiveCanvas

namespace Graph

variable {g g' : Graph} {id : NodeId} {e : Connection}

/-- The connections from a node into folders, in order. -/
def folderEdges (g : Graph) (id : NodeId) : List Connection :=
  g.connections.filter fun e => e.source == id && g.leadsIntoFolder e

theorem mem_folderEdges :
    e ∈ g.folderEdges id ↔ e ∈ g.connections ∧ e.source = id ∧ g.leadsIntoFolder e = true := by
  simp [folderEdges]

theorem leadsIntoFolder_of_mem (hnodup : (idsOf g.nodes).Nodup) {n : Node} (hn : n ∈ g.nodes)
    (htarget : e.target = n.id) : g.leadsIntoFolder e = (n.kind == .folder) := by
  rw [leadsIntoFolder, htarget, nodeWithId?_of_mem hnodup hn, Option.any_some]

theorem folderEdges_of_growsTo (h : g.GrowsTo g') (hsound : g.Sound)
    (hconnections : g'.connections = g.connections) (id : NodeId) :
    g'.folderEdges id = g.folderEdges id := by
  rw [folderEdges, hconnections]
  apply List.filter_congr
  intro e he
  rw [h.leadsIntoFolder (hsound.ends_live e he).2]

theorem folderEdges_modifyNode (g : Graph) (target : NodeId) (change : Node → Node)
    (hid : ∀ n, (change n).id = n.id) (hkind : ∀ n, (change n).kind = n.kind) (id : NodeId) :
    (g.modifyNode target change).folderEdges id = g.folderEdges id := by
  let changed (n : Node) : Node := if n.id = target then change n else n
  have hchanged : ∀ n, (changed n).id = n.id ∧ (changed n).kind = n.kind := by
    intro n
    simp only [changed]
    split
    · exact ⟨hid n, hkind n⟩
    · exact ⟨rfl, rfl⟩
  have hleads : (g.modifyNode target change).leadsIntoFolder = g.leadsIntoFolder := by
    funext e
    show (nodeWithId? (g.nodes.map changed) e.target).any _ = _
    rw [nodeWithId?_map fun n => (hchanged n).1, Option.any_map]
    simp only [(hchanged _).2]
    rfl
  rw [folderEdges, hleads]
  rfl

theorem folderEdges_removeNode (hsound : g.Sound) {n : Node} (hn : n ∈ g.nodes) (id : NodeId) :
    (g.removeNode n.id).folderEdges id = (g.folderEdges id).filter fun e => !e.touches n.id := by
  have hhas : g.hasNode n.id = true := hasNode_iff.2 (mem_idsOf_of_mem hn)
  have hnodup : (idsOf (g.removeNode n.id).nodes).Nodup := (hsound.removeNode n.id).ids_nodup
  have hconnections : (g.removeNode n.id).connections =
      g.connections.filter fun e => !e.touches n.id := by
    rw [removeNode, if_pos hhas]
  have hnodes : (g.removeNode n.id).nodes =
      (g.nodes.filter fun m => m.id != n.id).map (forgetInContext n.id) := by
    rw [removeNode, if_pos hhas]
  rw [folderEdges, hconnections, folderEdges, List.filter_filter, List.filter_filter]
  apply List.filter_congr
  intro e he
  by_cases htouches : e.touches n.id = true
  · rw [htouches, Bool.not_true, Bool.and_false, Bool.false_and]
  · -- what does not touch the node leads to one that stays
    obtain ⟨m, hm, hmid⟩ := mem_idsOf.1 (hsound.ends_live e he).2
    have hne : m.id ≠ n.id := by
      rw [hmid]
      intro htarget
      exact htouches (by simp [Connection.touches, htarget])
    have hstays : forgetInContext n.id m ∈ (g.removeNode n.id).nodes := by
      rw [hnodes]
      exact List.mem_map_of_mem (List.mem_filter.2 ⟨hm, bne_iff_ne.2 hne⟩)
    have hleads : (g.removeNode n.id).leadsIntoFolder e = g.leadsIntoFolder e := by
      rw [leadsIntoFolder_of_mem hnodup hstays hmid.symm,
        leadsIntoFolder_of_mem hsound.ids_nodup hm hmid.symm]
      rfl
    rw [hleads, Bool.and_comm]

end Graph

namespace Batch

variable {before : List Connection} {changes : NodeId → Prop} {b b' : Batch} {c : BatchContext}
  {id : NodeId}

/-! ## Wiring -/

theorem leadsIntoFolder_wire (b : Batch) (source target : Node) (role : Role) :
    (b.wire source target role).2.graph.leadsIntoFolder = b.graph.leadsIntoFolder := by
  funext e
  rw [Graph.leadsIntoFolder, nodes_wire]
  rfl

/-- Wiring adds no edge of another node, and none that leads into something else than a folder. -/
theorem folderEdges_wire_of_not {source target : Node} {role : Role} {id : NodeId}
    (h : ∀ e : Connection, e.source = source.id → e.target = target.id → id = source.id →
      b.graph.leadsIntoFolder e = false) :
    (b.wire source target role).2.graph.folderEdges id = b.graph.folderEdges id := by
  rw [Graph.folderEdges, leadsIntoFolder_wire]
  obtain hsame | ⟨edge, hmore, hsource, htarget, -, -⟩ :=
    connections_wire_cases b source target role
  · rw [hsame]
    rfl
  · have hout : (edge.source == id && b.graph.leadsIntoFolder edge) = false := by
      rw [Bool.and_eq_false_iff]
      by_cases hid : id = source.id
      · exact .inr (h edge hsource htarget hid)
      · left
        rw [beq_eq_false_iff_ne, hsource]
        exact Ne.symm hid
    rw [hmore, List.filter_append, List.filter_cons, hout]
    exact List.append_nil _

theorem folderEdges_wire_of_ne {source : Node} (h : id ≠ source.id) (target : Node) (role : Role) :
    (b.wire source target role).2.graph.folderEdges id = b.graph.folderEdges id :=
  folderEdges_wire_of_not fun _ _ _ hid => absurd hid h

/-! ## Edits -/

/-- What an edit does to the edges of a node into folders. -/
theorem Edit.folderEdges (h : Edit before changes b b') (ht : b.Tidy) (hsound : b.graph.Sound)
    (id : NodeId) :
    ∃ keeps : Connection → Bool,
      b'.graph.folderEdges id = (b.graph.folderEdges id).filter keeps ∧
      ∀ e ∈ b.graph.folderEdges id, keeps e = false →
        id ∉ idsOf b'.graph.nodes ∨
          ∃ edge ∈ before, changes edge.source ∧ e.isNamed edge.id = true := by
  have hsame : b'.graph.folderEdges id = b.graph.folderEdges id → ∃ keeps : Connection → Bool,
      b'.graph.folderEdges id = (b.graph.folderEdges id).filter keeps ∧
      ∀ e ∈ b.graph.folderEdges id, keeps e = false →
        id ∉ idsOf b'.graph.nodes ∨
          ∃ edge ∈ before, changes edge.source ∧ e.isNamed edge.id = true :=
    fun hsame => ⟨fun _ => true, by simpa using hsame, by simp⟩
  cases h with
  | report report a line => exact hsame rfl
  | add request hid =>
      exact hsame (Graph.folderEdges_of_growsTo (growsTo_add ht request hid) hsound rfl id)
  | remove n known code within =>
      rw [ht.nodes_eq] at known
      refine ⟨_, Graph.folderEdges_removeNode hsound known id, fun e he htouches => ?_⟩
      obtain ⟨-, hsource, hleads⟩ := Graph.mem_folderEdges.1 he
      rw [Bool.not_eq_false', Connection.touches, Bool.or_eq_true, beq_iff_eq, beq_iff_eq]
        at htouches
      obtain hfrom | hto := htouches
      · left
        rw [idsOf_remove, ← hsource, hfrom]
        simp
      · rw [Graph.leadsIntoFolder_of_mem hsound.ids_nodup known hto, code] at hleads
        cases hleads
  | feed source target known code =>
      rw [ht.nodes_eq] at known
      refine hsame (folderEdges_wire_of_not fun e _ htarget _ => ?_)
      rw [Graph.leadsIntoFolder_of_mem hsound.ids_nodup known htarget, code]
      rfl
  | takeOut edge old within =>
      refine ⟨fun e => !e.isNamed edge.id, ?_, fun e _ hnamed => .inr ⟨edge, old, within, ?_⟩⟩
      · show (List.filter _ (Connection.without _ _)) = _
        rw [Connection.without, List.filter_filter, Graph.folderEdges, List.filter_filter]
        apply List.filter_congr
        intro e _
        exact Bool.and_comm _ _
      · simpa using hnamed
  | write target content within =>
      exact hsame (Graph.folderEdges_modifyNode b.graph target (fun n => { n with content })
        (fun _ => rfl) (fun _ => rfl) id)
  | rename target title within =>
      exact hsame (Graph.folderEdges_modifyNode b.graph target (fun n => { n with title })
        (fun _ => rfl) (fun _ => rfl) id)

end Batch
end LiveCanvas
