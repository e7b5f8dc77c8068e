import LiveCanvas.Proofs.Canvas.Fresh
import LiveCanvas.Proofs.Canvas.Sound
import LiveCanvas.Proofs.Edit.Kept

/-!
# The nodes a batch knows

A batch keeps its own list of nodes beside the graph.  As long as the ids of new nodes are new the
two lists are the same, command after command: a new node goes to the end of both, a removed one
leaves both, and nothing is ever replaced.  So what a command finds by a title or a path is what the
graph has there at that moment.
-/

namespace LiveCanvas

namespace Graph

@[simp] theorem nodes_connect (g : Graph) (c : Connection) : (g.connect c).nodes = g.nodes := by
  unfold connect
  split <;> rfl

@[simp] theorem nodes_disconnect (g : Graph) (name : Text) :
    (g.disconnect name).nodes = g.nodes := rfl

end Graph

namespace Batch

/-- The batch knows the nodes of the graph and nothing else, and its next node ids are new. -/
structure InStep (b : Batch) : Prop where
  known : b.known = (idsOf b.graph.nodes).map .live
  nodup : (idsOf b.graph.nodes).Nodup
  fresh : b.ids.FreshForNodes b.graph

/-- The id of a node that is made without one. -/
theorem id_create {request : NodeRequest} (h : request.id = none) (ids : IdSource) :
    (request.create ids).1.id = (ids.fresh request.kind.idStem).1 ∧
      (request.create ids).2 = (ids.fresh request.kind.idStem).2 := by
  rw [NodeRequest.create, h]
  exact ⟨rfl, rfl⟩

/-- A removal takes the node out of both lists. -/
theorem idsOf_remove (b : Batch) (id : NodeId) :
    idsOf (b.remove id).graph.nodes = (idsOf b.graph.nodes).filter (· != id) := by
  show idsOf (b.graph.removeNode id).nodes = _
  by_cases hid : b.graph.hasNode id = true
  · exact Graph.idsOf_removeNode hid
  · rw [Graph.removeNode, if_neg hid, eq_comm, List.filter_eq_self]
    intro other hother
    rw [bne_iff_ne]
    rintro rfl
    exact hid (Graph.hasNode_iff.2 hother)

theorem inStep_start {g : Graph} {ids : IdSource} (hnodup : (idsOf g.nodes).Nodup)
    (hfresh : ids.FreshForNodes g) : (start g ids).InStep :=
  ⟨List.map_map.symm, hnodup, hfresh⟩

namespace InStep

variable {b : Batch}

/-- The nodes that a batch knows are those of the graph. -/
theorem nodes_eq (h : b.InStep) : b.nodes = b.graph.nodes := by
  rw [nodes, h.known, List.filterMap_map]
  exact Graph.filterMap_node? h.nodup

theorem id_add_notMem (h : b.InStep) (request : NodeRequest) (hid : request.id = none) :
    (b.add request).1.id ∉ idsOf b.graph.nodes := by
  have hnew : (b.add request).1.id = (b.ids.fresh request.kind.idStem).1 :=
    (id_create hid b.ids).1
  rw [hnew]
  exact h.fresh.fresh_notMem request.kind

/-- A new node goes to the end. -/
theorem nodes_add (h : b.InStep) (request : NodeRequest) (hid : request.id = none) :
    (b.add request).2.graph.nodes = b.graph.nodes ++ [(b.add request).1] :=
  Graph.placeNode_of_notMem (h.id_add_notMem request hid)

theorem add (h : b.InStep) (request : NodeRequest) (hid : request.id = none) :
    (b.add request).2.InStep := by
  have hnotMem := h.id_add_notMem request hid
  constructor
  · -- nothing known is replaced, because the id was free
    have hkept : b.known.map (KnownNode.afterTaking b.graph (b.add request).1.id) = b.known := by
      rw [h.known, List.map_map]
      apply List.map_congr_left
      intro id hmem
      have hne : id ≠ (b.add request).1.id := fun e => hnotMem (e ▸ hmem)
      exact if_neg hne
    rw [h.nodes_add request hid, idsOf_append, List.map_append, ← h.known]
    show b.known.map (KnownNode.afterTaking b.graph (b.add request).1.id) ++ _ = _
    rw [hkept]
    rfl
  · exact Graph.nodup_idsOf_placeNode _ h.nodup
  · show ((request.create b.ids).2).FreshForNodes (b.graph.addNode (request.create b.ids).1)
    rw [(id_create hid b.ids).2]
    exact h.fresh.addNode (id_create hid b.ids).1

theorem remove (h : b.InStep) (id : NodeId) : (b.remove id).InStep := by
  constructor
  · show b.known.filter _ = _
    rw [idsOf_remove, h.known, List.filter_map]
    rfl
  · rw [idsOf_remove]
    exact h.nodup.filter _
  · refine h.fresh.mono (Nat.le_refl _) ?_
    rw [idsOf_remove]
    exact List.filter_subset_self _

theorem wire (h : b.InStep) (source target : Node) (role : Role) :
    (b.wire source target role).2.InStep := by
  unfold Batch.wire
  split
  · exact h
  · constructor
    · simpa using h.known
    · simpa using h.nodup
    · exact h.fresh.mono (Nat.le_succ _) (by simp)

theorem onGraph (h : b.InStep) {change : Graph → Graph}
    (hids : idsOf (change b.graph).nodes = idsOf b.graph.nodes) : (b.onGraph change).InStep := by
  constructor
  · show b.known = (idsOf (change b.graph).nodes).map _
    rw [hids]
    exact h.known
  · show (idsOf (change b.graph).nodes).Nodup
    rw [hids]
    exact h.nodup
  · exact h.fresh.mono (Nat.le_refl _) (hids ▸ List.Subset.refl _)

end InStep

/-- Every command keeps a batch in step with its graph. -/
theorem keeps_inStep : Keeps InStep where
  report _ _ _ _ h := ⟨h.known, h.nodup, h.fresh⟩
  add _ request hid h := h.add request hid
  remove _ id h := h.remove id
  wire _ source target role h := h.wire source target role
  disconnect _ _ h := h.onGraph rfl
  setContent _ _ _ h := h.onGraph (Graph.idsOf_modifyNode fun _ => rfl)
  setTitle _ _ _ h := h.onGraph (Graph.idsOf_modifyNode fun _ => rfl)

end Batch

/-- After each call of a batch the nodes that the batch knows are those of the graph in their order,
none of them replaced, and a title or a path leads to the same node among both. -/
theorem nodes_runBatch_take {g : Graph} {ids : IdSource} (hnodup : (idsOf g.nodes).Nodup)
    (hfresh : ids.FreshForNodes g) (setting : BatchSetting) (calls : List Value) (k : Nat) :
    let b := runBatch setting g ids (calls.take k)
    b.nodes = b.graph.nodes ∧ b.known = b.graph.nodes.map (fun n => .live n.id) ∧
      (∀ title kinds, b.find? title kinds =
        b.graph.nodes.find? fun n => n.title == title && kinds.contains n.kind) ∧
      ∀ path connections,
        Path.resolve path b.nodes connections = Path.resolve path b.graph.nodes connections := by
  intro b
  have h : b.InStep :=
    Batch.keeps_inStep.applyCalls (Batch.inStep_start hnodup hfresh) _ (calls.take k)
  refine ⟨h.nodes_eq, ?_, fun title kinds => ?_, fun path connections => ?_⟩
  · rw [h.known, idsOf, List.map_map]
    rfl
  · rw [Batch.find?, h.nodes_eq]
  · rw [h.nodes_eq]

/-- A file and a folder are made, the other file is renamed and deleted, and its name taken
again. -/
theorem nodes_runBatch_take_renamed :
    let g : Graph := { nodes := [{ id := "a", kind := .code, title := "a.js" }] }
    let call (name : Text) (arguments : List (Text × Value)) : Value :=
      .object [("name", .text name), ("args", .object arguments)]
    let calls :=
      [call "updateFile" [("filename", .text "lib/b.js"), ("code", .text "1")],
        call "renameFile" [("oldName", .text "a.js"), ("newName", .text "c.js")],
        call "deleteFile" [("filename", .text "c.js")],
        call "updateFile" [("filename", .text "a.js"), ("code", .text "2")]]
    let after (k : Nat) := runBatch {} g {} (calls.take k)
    (idsOf g.nodes).Nodup ∧ IdSource.FreshForNodes {} g ∧
      (∀ k, (after k).nodes = (after k).graph.nodes ∧ ∀ title kinds, (after k).find? title kinds =
        (after k).graph.nodes.find? fun n => n.title == title && kinds.contains n.kind) ∧
      [0, 1, 2, 3, 4].map (fun k => (after k).nodes.map (·.title)) =
        [["a.js"], ["a.js", "b.js", "lib"], ["c.js", "b.js", "lib"], ["b.js", "lib"],
          ["b.js", "lib", "a.js"]].map (·.map Text.ofString) := by
  intro g call calls after
  have hfresh : IdSource.FreshForNodes {} g :=
    (IdSource.FreshFor.of_not_endsInDigit {} (by decide +kernel) (by decide +kernel)).forNodes
  refine ⟨by decide +kernel, hfresh, fun k => ?_, by decide +kernel⟩
  obtain ⟨hnodes, -, hfind, -⟩ :=
    nodes_runBatch_take (by decide +kernel) hfresh {} calls k
  exact ⟨hnodes, hfind⟩

end LiveCanvas
