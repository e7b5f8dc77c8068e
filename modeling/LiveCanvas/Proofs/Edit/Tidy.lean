import LiveCanvas.Proofs.Edit.InStep

/-!
# Batches with new ids to come

Connections get generated ids as well as nodes do.  A batch that is in step with its graph is tidy
when none of its coming ids is that of a node or a connection, and every command keeps it so.
-/

namespace LiveCanvas
namespace Batch

/-- Ids that are taken from a source are not taken again. -/
theorem keeps_freshFor : Keeps fun b => b.ids.FreshFor b.graph where
  report _ _ _ _ h := h
  add b request hid h := by
    show ((request.create b.ids).2).FreshFor (b.graph.addNode (request.create b.ids).1)
    rw [(id_create hid b.ids).2]
    exact h.addNode (id_create hid b.ids).1
  remove b id h := by
    apply h.of_subset
    · rw [idsOf_remove]
      exact List.filter_subset_self _
    · show (b.graph.removeNode id).connections ⊆ _
      unfold Graph.removeNode
      split
      · exact List.filter_subset_self _
      · exact List.Subset.refl _
  wire b source target role h := by
    unfold Batch.wire
    split
    · exact h
    · exact h.connect rfl
  disconnect b name h := h.of_subset (List.Subset.refl _) (List.filter_subset_self _)
  setContent b id content h := by
    have hids : idsOf (b.graph.setContent id content).nodes = idsOf b.graph.nodes :=
      Graph.idsOf_modifyNode fun _ => rfl
    exact h.of_subset (fun _ hmem => hids ▸ hmem) (List.Subset.refl _)
  setTitle b id title h := by
    have hids : idsOf (b.graph.setTitle id title).nodes = idsOf b.graph.nodes :=
      Graph.idsOf_modifyNode fun _ => rfl
    exact h.of_subset (fun _ hmem => hids ▸ hmem) (List.Subset.refl _)

/-- The batch knows the nodes of the graph and nothing else, and its next ids are new. -/
structure Tidy (b : Batch) : Prop where
  known : b.known = (idsOf b.graph.nodes).map .live
  nodup : (idsOf b.graph.nodes).Nodup
  fresh : b.ids.FreshFor b.graph

theorem tidy_iff {b : Batch} : b.Tidy ↔ b.InStep ∧ b.ids.FreshFor b.graph :=
  ⟨fun h => ⟨⟨h.known, h.nodup, h.fresh.forNodes⟩, h.fresh⟩,
    fun ⟨h, hfresh⟩ => ⟨h.known, h.nodup, hfresh⟩⟩

theorem tidy_start {g : Graph} {ids : IdSource} (hnodup : (idsOf g.nodes).Nodup)
    (hfresh : ids.FreshFor g) : (start g ids).Tidy :=
  tidy_iff.2 ⟨inStep_start hnodup hfresh.forNodes, hfresh⟩

/-- Every command keeps a batch tidy. -/
theorem keeps_tidy : Keeps Tidy :=
  (keeps_inStep.and keeps_freshFor).congr fun _ => tidy_iff.symm

namespace Tidy

variable {b : Batch}

theorem inStep (h : b.Tidy) : b.InStep := (tidy_iff.1 h).1

theorem nodes_eq (h : b.Tidy) : b.nodes = b.graph.nodes := h.inStep.nodes_eq

theorem id_add_notMem (h : b.Tidy) (request : NodeRequest) (hid : request.id = none) :
    (b.add request).1.id ∉ idsOf b.graph.nodes :=
  h.inStep.id_add_notMem request hid

theorem nodes_add (h : b.Tidy) (request : NodeRequest) (hid : request.id = none) :
    (b.add request).2.graph.nodes = b.graph.nodes ++ [(b.add request).1] :=
  h.inStep.nodes_add request hid

theorem add (h : b.Tidy) (request : NodeRequest) (hid : request.id = none) :
    (b.add request).2.Tidy :=
  keeps_tidy.add b request hid h

theorem wire (h : b.Tidy) (source target : Node) (role : Role) :
    (b.wire source target role).2.Tidy :=
  keeps_tidy.wire b source target role h

end Tidy

end Batch
end LiveCanvas
