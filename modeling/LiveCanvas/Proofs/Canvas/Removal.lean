import LiveCanvas.Proofs.Canvas.History
import LiveCanvas.Proofs.Collab.Dropped

/-!
# What is left of a node that is removed

Removing a node takes it out of every place where a graph can name it, and leaves everything else as
it is and in its order.  The one place where it may stay is the selection: a node that is picked
twice is taken out once.
-/

namespace LiveCanvas
namespace Graph

/-- What a graph says of everything but a node: the other nodes, and what names only them. -/
def apartFrom (g : Graph) (id : NodeId) : Graph :=
  { g with
    nodes := (g.nodes.filter fun n => n.id != id).map fun n =>
      { n with contextIds := n.contextIds.filter (· != id) }
    connections := g.connections.filter fun c => c.source != id && c.target != id
    logs := g.logs.filter fun entry => entry.1 != id
    running := g.running.filter (· != id)
    selection := { g.selection with picked := g.selection.picked.filter (· != id) }
    gestures := g.gestures.filter fun entry => entry.1 != id }

section Selection

variable {s : Selection} {id : NodeId}

/-- A node that asked for the selection ends it; any other node is taken out of it once. -/
theorem mem_picked_forgetInSelection :
    id ∈ (forgetInSelection s id).picked ↔ s.requester ≠ id ∧ 1 < s.picked.count id := by
  unfold forgetInSelection
  split
  · next hrequester => simp [hrequester]
  · next hrequester =>
    rw [← List.count_pos_iff, List.count_erase_self]
    simp only [hrequester, not_false_eq_true, ne_eq, true_and]
    omega

/-- The empty id stands for no requester, so only a node without a name can seem to ask. -/
theorem requester_forgetInSelection_eq_iff :
    (forgetInSelection s id).requester = id ↔ s.requester = id ∧ id = "" := by
  unfold forgetInSelection
  split
  · next hrequester => simp [hrequester, eq_comm]
  · next hrequester => simp [hrequester]

/-- Whoever else is picked stays so, in order. -/
theorem filter_picked_erase (picked : List NodeId) (id : NodeId) :
    (picked.erase id).filter (· != id) = picked.filter (· != id) := by
  -- taking one out and leaving all out commute, and nothing is left to take out
  rw [← List.erase_filter]
  exact List.erase_of_not_mem (by simp)

end Selection

section Remove

variable {g : Graph} {id : NodeId}

/-- What a removal leaves is what the graph says of everything else, but for the selection. -/
theorem removeNode_eq_apartFrom (hid : g.hasNode id = true) :
    g.removeNode id =
      { g.apartFrom id with selection := forgetInSelection g.selection id } := by
  have htouches : (fun c : Connection => !c.touches id) =
      fun c => c.source != id && c.target != id := by
    funext c
    exact Bool.not_or _ _
  rw [removeNode, if_pos hid, htouches]
  rfl

/-- Nothing hangs off a node that was removed. -/
theorem released_removeNode (hid : g.hasNode id = true) : (g.removeNode id).Released id := by
  rw [removeNode_eq_apartFrom hid]
  constructor
  · simp [apartFrom, idsOf]
  · simp [apartFrom, Connection.touches]
  · simp [apartFrom, Fields.names]
  · simp [apartFrom]
  · simp [apartFrom, Fields.names]

/-- No chat has a removed node in its context. -/
theorem notMem_contextIds_removeNode (hid : g.hasNode id = true) :
    ∀ n ∈ (g.removeNode id).nodes, id ∉ n.contextIds := by
  rw [removeNode_eq_apartFrom hid]
  intro n hn
  obtain ⟨before, -, rfl⟩ := List.mem_map.mp hn
  simp

/-- What a graph says of everything but a node says nothing of the node. -/
theorem apartFrom_apartFrom (g : Graph) (id : NodeId) :
    (g.apartFrom id).apartFrom id = g.apartFrom id := by
  simp [apartFrom, List.filter_filter, List.filter_map, Function.comp_def]

/-- Apart from the node, a removal changes only a selection that the node asked for. -/
theorem apartFrom_removeNode (hid : g.hasNode id = true) :
    (g.removeNode id).apartFrom id =
      if g.selection.requester = id then { g.apartFrom id with selection := {} }
      else g.apartFrom id := by
  have hothers : (g.removeNode id).apartFrom id = { (g.apartFrom id).apartFrom id with
      selection := { forgetInSelection g.selection id with
        picked := (forgetInSelection g.selection id).picked.filter (· != id) } } := by
    rw [removeNode_eq_apartFrom hid]
    rfl
  rw [hothers, apartFrom_apartFrom, forgetInSelection]
  split
  · rfl
  · rw [filter_picked_erase]
    rfl

/-- A removed node has nothing that hangs off it and is in no context.  It leaves no trace at all
unless a selection that another node asked for picks it twice; a node without a name also stays, as
what asked for a selection that nobody asked for.  All that does not name the node is as it was and
in order, except that a selection it asked for ends. -/
theorem unused_removeNode_iff (hid : g.hasNode id = true) :
    (g.removeNode id).Released id ∧
    (∀ n ∈ (g.removeNode id).nodes, id ∉ n.contextIds) ∧
    ((g.removeNode id).Unused id ↔
      if g.selection.requester = id then id ≠ "" else g.selection.picked.count id ≤ 1) ∧
    (g.removeNode id).apartFrom id =
      if g.selection.requester = id then { g.apartFrom id with selection := {} }
      else g.apartFrom id := by
  have hreleased := released_removeNode hid
  have hcontexts := notMem_contextIds_removeNode hid
  have hselection : (g.removeNode id).selection = forgetInSelection g.selection id := by
    rw [removeNode_eq_apartFrom hid]
  refine ⟨hreleased, hcontexts, ?_, apartFrom_removeNode hid⟩
  have hunused : (g.removeNode id).Unused id ↔
      ¬ id ∈ (forgetInSelection g.selection id).picked ∧
        ¬ (forgetInSelection g.selection id).requester = id := by
    rw [← hselection]
    exact ⟨fun h => ⟨h.picked, h.requester⟩, fun h => ⟨hreleased, h.1, h.2, hcontexts⟩⟩
  rw [hunused, mem_picked_forgetInSelection, requester_forgetInSelection_eq_iff]
  by_cases hrequester : g.selection.requester = id
  · simp [hrequester]
  · simp [hrequester]

/-- A preview is removed that the chat picking it also has in its context, twice in both; it runs,
has console lines, is dragged, and shows a page that another preview shows too. -/
theorem unused_removeNode_iff_picked_twice :
    let g : Graph := {
      nodes := [{ id := "a", kind := .code, title := "a.html" },
        { id := "p", kind := .preview, title := "Preview" },
        { id := "q", kind := .preview, title := "Preview" },
        { id := "c", kind := .chat, title := "Chat", contextIds := ["p", "a", "p"] }]
      connections := [⟨"v", "a", "a-out-dom", "p", "p-in-dom"⟩,
        ⟨"w", "a", "a-out-dom", "q", "q-in-dom"⟩]
      logs := [("q", []), ("p", [])]
      running := ["p", "q"]
      selection := { active := true, requester := "c", picked := ["p", "a", "p"] }
      gestures := [("p", .drag), ("a", .edit)] }
    g.hasNode "p" = true ∧
      (g.removeNode "p").Released "p" ∧
      (∀ n ∈ (g.removeNode "p").nodes, .ofString "p" ∉ n.contextIds) ∧
      ((g.removeNode "p").Unused "p" ↔
        if g.selection.requester = "p" then Text.ofString "p" ≠ ""
        else g.selection.picked.count (.ofString "p") ≤ 1) ∧
      (g.removeNode "p").apartFrom "p" =
        if g.selection.requester = "p" then { g.apartFrom "p" with selection := {} }
        else g.apartFrom "p" := by
  intro g
  have hid : g.hasNode "p" = true := by decide
  exact ⟨hid, unused_removeNode_iff hid⟩

/-- A graph comes about in which a removed node stays picked: a chat picks one file twice. -/
theorem picked_of_removed :
    let chat : Node := { id := "c", kind := .chat, title := "Chat" }
    let file : Node := { id := "f", kind := .code, title := "a.js" }
    let g := Change.apply (Graph.build [chat, file] [])
      (.select { active := true, requester := "c", picked := ["f", "f"].map Text.ofString })
    Reached g ∧ g.hasNode "f" = true ∧
    (g.removeNode "f").selection.picked = ["f"].map Text.ofString ∧
      ¬ (g.removeNode "f").Unused "f" := by
  intro chat file g
  have hpicked : (g.removeNode "f").selection.picked = ["f"] := by decide
  refine ⟨.changed _ (.built _ _), by decide, hpicked, fun h => h.picked ?_⟩
  rw [hpicked]
  exact List.mem_singleton_self _

end Remove

end Graph
end LiveCanvas
