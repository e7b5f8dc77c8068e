import LiveCanvas.Proofs.Collab.Merge

/-!
# What is left of a node that a snapshot drops

A node that the nodes of a snapshot leave out is gone afterwards, and what hung off it is gone with
it: its connections, its console lines, its place among the running previews and its gesture.  The
other nodes are those of the snapshot, and so are the contexts of chats.  A snapshot that leaves a
node out and still names it in a context is taken at its word.
-/

namespace LiveCanvas
namespace Graph

/-- The id is that of no node, and nothing hangs off it. -/
structure Released (g : Graph) (id : NodeId) : Prop where
  node : id ∉ idsOf g.nodes
  connections : ∀ c ∈ g.connections, c.touches id = false
  logs : id ∉ g.logs.names
  running : id ∉ g.running
  gestures : id ∉ g.gestures.names

/-- The id is not used anywhere in the graph. -/
structure Unused (g : Graph) (id : NodeId) : Prop extends Released g id where
  picked : id ∉ g.selection.picked
  requester : g.selection.requester ≠ id
  contexts : ∀ n ∈ g.nodes, id ∉ n.contextIds

section Merge

variable (g : Graph) {s : Incoming} {nodes : List Node} (hnodes : s.nodes = some nodes)
include hnodes

theorem mem_idsOf_nodes_merge {id : NodeId} :
    id ∈ idsOf (g.merge s).nodes ↔ id ∈ idsOf nodes := by
  obtain ⟨_, _, _, _, hmerge⟩ := exists_merge_eq g hnodes
  have hids : idsOf (g.merge s).nodes = (idsOf nodes).eraseDups := by
    rw [hmerge]
    exact idsOf_mergeNodes g nodes
  rw [hids, List.mem_eraseDups]

/-- Whether or not the snapshot has connections, those that are left lead between its nodes. -/
theorem ends_of_mem_connections_merge {c : Connection} (hc : c ∈ (g.merge s).connections) :
    c.source ∈ idsOf nodes ∧ c.target ∈ idsOf nodes := by
  rw [← mem_idsOf_nodes_merge g hnodes, ← mem_idsOf_nodes_merge g hnodes]
  obtain ⟨_, connections, running, pan, zoom⟩ := s
  obtain rfl : _ = some nodes := hnodes
  cases connections with
  | none => exact hasEnds_iff.mp (List.mem_filter.mp hc).2
  | some connections =>
      exact (sound_mergeConnections_some (nodup_idsOf_mergeNodes g nodes) connections).ends_live c
        hc

theorem mem_idsOf_of_mem_running_merge {id : NodeId} (hid : id ∈ (g.merge s).running) :
    id ∈ idsOf nodes := by
  have hlive : id ∈ idsOf (g.merge s).nodes := hasNode_iff.mp (List.mem_filter.mp hid).2
  exact (mem_idsOf_nodes_merge g hnodes).mp hlive

/-- What the snapshot leaves out is released. -/
theorem released_merge {id : NodeId} (hhere : id ∈ idsOf g.nodes) (hout : id ∉ idsOf nodes) :
    (g.merge s).Released id := by
  have hdropped : id ∈ (g.reportNodes nodes).dropped :=
    List.mem_filter.mpr ⟨hhere, by simpa [idsOf] using hout⟩
  -- console lines and gestures lose the entries of everything dropped
  have hnames : ∀ {β : Type} (fields : Fields β), id ∉ Fields.names
      (fields.filter fun entry => !(g.reportNodes nodes).dropped.contains entry.1) := by
    intro β fields hname
    obtain ⟨entry, hentry, rfl⟩ := List.mem_map.mp hname
    simpa [hdropped] using (List.mem_filter.mp hentry).2
  obtain ⟨_, _, _, _, hmerge⟩ := exists_merge_eq g hnodes
  constructor
  · rwa [mem_idsOf_nodes_merge g hnodes]
  · intro c hc
    obtain ⟨hsource, htarget⟩ := ends_of_mem_connections_merge g hnodes hc
    rw [Connection.touches, Bool.or_eq_false_iff, beq_eq_false_iff_ne, beq_eq_false_iff_ne]
    exact ⟨fun h => hout (h ▸ hsource), fun h => hout (h ▸ htarget)⟩
  · rw [hmerge, logs_mergeNodes]
    exact hnames g.logs
  · exact fun hid => hout (mem_idsOf_of_mem_running_merge g hnodes hid)
  · rw [hmerge, gestures_mergeNodes]
    exact hnames g.gestures

end Merge

@[simp] theorem contextIds_mergeNode (g : Graph) (n : Node) :
    (g.mergeNode n).contextIds = n.contextIds := by
  unfold mergeNode
  split
  · rfl
  · split <;> rfl

/-- Contexts are what the last node of a snapshot says, whatever they were here. -/
theorem contextIds_merge (g : Graph) {s : Incoming} {nodes : List Node}
    (hnodes : s.nodes = some nodes) {m : Node} (hm : m ∈ (g.merge s).nodes) :
    ∃ n, nodeWithId? nodes m.id = some n ∧ m.contextIds = n.contextIds := by
  obtain ⟨_, _, _, _, hmerge⟩ := exists_merge_eq g hnodes
  rw [hmerge] at hm
  have hfound : (nodeWithId? nodes m.id).map g.mergeNode = some m := by
    rw [← node?_mergeNodes]
    exact node?_of_mem (nodup_idsOf_mergeNodes g nodes) hm
  obtain ⟨n, hlast, rfl⟩ := Option.map_eq_some_iff.mp hfound
  exact ⟨n, hlast, contextIds_mergeNode g n⟩

/-- A node that is here and that a readable snapshot leaves out is dropped and released.  Its id
stays in the context of a node only where the snapshot itself has it. -/
theorem reconcile_releases_dropped (g : Graph) {payload : Value} {s : Incoming}
    {nodes : List Node} (hread : Incoming.ofValue payload = .ok s) (hnodes : s.nodes = some nodes)
    {id : NodeId} (hhere : id ∈ idsOf g.nodes) (hout : id ∉ idsOf nodes) :
    ∃ after report, g.reconcile payload = .ok (after, report) ∧ id ∈ report.dropped ∧
      after.Released id ∧
      ∀ m ∈ after.nodes, ∃ n, nodeWithId? nodes m.id = some n ∧
        (id ∈ m.contextIds ↔ id ∈ n.contextIds) := by
  refine ⟨g.merge s, g.mergeReport s, reconcile_of_ofValue g hread, ?_,
    released_merge g hnodes hhere hout, ?_⟩
  · rw [mergeReport, hnodes]
    exact List.mem_filter.mpr ⟨hhere, by simpa [idsOf] using hout⟩
  · intro m hm
    obtain ⟨n, hlast, hcontext⟩ := contextIds_merge g hnodes hm
    exact ⟨n, hlast, by rw [hcontext]⟩

/-- A running preview is dropped: it is wired to a file, has console lines, is dragged and is in the
context of two chats here.  The snapshot has it in the context of the second chat only. -/
theorem reconcile_releases_dropped_preview :
    let chat (id : Text) (context : List Text) : Value := .object [("id", .text id),
      ("type", .text "AI_CHAT"), ("contextNodeIds", .texts context)]
    let payload : Value := .object [("nodes", .list [chat "c" ["f"], chat "d" ["p", "f"],
      .object [("id", .text "f"), ("type", .text "CODE")]])]
    let g : Graph := {
      nodes := [{ id := "f", kind := .code, title := "a.js" },
        { id := "p", kind := .preview, title := "Preview" },
        { id := "c", kind := .chat, title := "Chat", contextIds := ["p", "f"] },
        { id := "d", kind := .chat, title := "Chat", contextIds := ["p"] }]
      connections := [⟨"w", "f", "f-out-dom", "p", "p-in-dom"⟩]
      logs := [("p", [])]
      running := ["p"]
      gestures := [("p", .drag)] }
    ∃ s nodes, Incoming.ofValue payload = .ok s ∧ s.nodes = some nodes ∧
      .ofString "p" ∈ idsOf g.nodes ∧ .ofString "p" ∉ idsOf nodes ∧
      ∃ after report, g.reconcile payload = .ok (after, report) ∧ .ofString "p" ∈ report.dropped ∧
        after.Released "p" ∧
        ∀ m ∈ after.nodes, ∃ n, nodeWithId? nodes m.id = some n ∧
          (.ofString "p" ∈ m.contextIds ↔ .ofString "p" ∈ n.contextIds) := by
  intro chat payload g
  have hhere : .ofString "p" ∈ idsOf g.nodes := by decide
  refine ⟨_, _, rfl, rfl, hhere, ?hout, reconcile_releases_dropped g rfl rfl hhere ?hout⟩
  case hout =>
    show .ofString "p" ∉ ["c", "d", "f"].map Text.ofString
    decide

/-- A node that was dropped is still used: in the context of a chat when the snapshot has it there,
and in the selection. -/
theorem used_of_dropped :
    let g : Graph := {
      nodes := [{ id := "f", kind := .code, title := "a.js" },
        { id := "c", kind := .chat, title := "Chat", contextIds := ["f"] }] }
    let picking : Graph :=
      { g with selection := { active := true, requester := "c", picked := ["f"] } }
    let chat : Value := .object [("id", .text "c"), ("type", .text "AI_CHAT"),
      ("contextNodeIds", .texts ["f"])]
    (∃ after report, g.reconcile (.object [("nodes", .list [chat])]) = .ok (after, report) ∧
      .ofString "f" ∈ report.dropped ∧ (∃ n ∈ after.nodes, .ofString "f" ∈ n.contextIds) ∧
      ¬ after.Unused "f") ∧
    ∃ after report, picking.reconcile (.object [("nodes", .list [])]) = .ok (after, report) ∧
      .ofString "f" ∈ report.dropped ∧ .ofString "c" ∈ report.dropped ∧
      ¬ after.Unused "f" ∧ ¬ after.Unused "c" := by
  intro g picking chat
  constructor
  · refine ⟨_, _, rfl, ?_, ?_, ?_⟩
    · decide
    · exact ⟨_, List.mem_singleton_self _, by decide⟩
    · exact fun h => h.contexts _ (List.mem_singleton_self _) (by decide)
  · refine ⟨_, _, rfl, by decide, by decide, ?_, ?_⟩
    · exact fun h => h.picked (by decide)
    · exact fun h => h.requester rfl

end Graph
end LiveCanvas
