import LiveCanvas.Collab.Inbox
import LiveCanvas.Proofs.Collab.InPlace

/-!
# Only the latest snapshot matters

The inbox keeps the latest payload and forgets the ones before it.  Nothing is lost that way as long
as the snapshots are full and have every node with a gesture in progress: what a gesture protects
outlives each of them, and everything else is what the last one says.
-/

namespace LiveCanvas

/-- A snapshot with all five sections. -/
structure Incoming.IsFull (s : Incoming) : Prop where
  nodes : s.nodes.isSome = true
  connections : s.connections.isSome = true
  running : s.running.isSome = true
  pan : s.pan.isSome = true
  zoom : s.zoom.isSome = true

/-- The ids of the nodes of a snapshot. -/
def Incoming.nodeIds (s : Incoming) : List NodeId := idsOf (s.nodes.getD [])

namespace Graph

/-- A node has a gesture in progress here. -/
def IsHeld (g : Graph) (id : NodeId) : Prop := g.gesture? id ≠ none

/-- Reconciling with one payload after the other, up to the first that is refused. -/
def reconcileEach (g : Graph) (payloads : List Value) : Except LoadError Graph :=
  payloads.foldlM (fun g payload => Prod.fst <$> g.reconcile payload) g

/-! ## What a snapshot leaves of the gestures -/

theorem gesture?_mergeNodes (g : Graph) (nodes : List Node) (id : NodeId) :
    (g.mergeNodes nodes).gesture? id =
      if id ∈ (g.reportNodes nodes).dropped then none else g.gesture? id := by
  unfold gesture?
  rw [gestures_mergeNodes]
  generalize (g.reportNodes nodes).dropped = dropped
  induction g.gestures with
  | nil => simp
  | cons entry gestures ih =>
      by_cases hentry : entry.1 ∈ dropped <;> by_cases hid : entry.1 = id <;>
        simp_all [Fields.get?_cons]

/-- The gestures go on when the snapshot has their nodes. -/
theorem gesture?_mergeNodes_of_held {g : Graph} {nodes : List Node}
    (hheld : ∀ id, g.IsHeld id → id ∈ idsOf nodes) (id : NodeId) :
    (g.mergeNodes nodes).gesture? id = g.gesture? id := by
  rw [gesture?_mergeNodes]
  split
  · next hdropped =>
      have hout : id ∉ idsOf nodes := by
        simpa [idsOf] using (List.mem_filter.mp hdropped).2
      by_contra hgesture
      exact hout (hheld id fun hnone => hgesture hnone.symm)
  · rfl

/-- What the gestures protect is protected as before. -/
theorem mergeNode_mergeNodes {g : Graph} {nodes : List Node}
    (hlocal : ∀ id, g.IsHeld id → id ∈ idsOf g.nodes)
    (hheld : ∀ id, g.IsHeld id → id ∈ idsOf nodes) (n : Node) :
    (g.mergeNodes nodes).mergeNode n = g.mergeNode n := by
  have hgesture := gesture?_mergeNodes_of_held hheld n.id
  cases hstate : g.gesture? n.id with
  | none =>
      rw [(mergedFrom_mergeNode g n).idle hstate,
        (mergedFrom_mergeNode _ n).idle (hgesture.trans hstate)]
  | some gesture =>
      have hid : g.IsHeld n.id := by simp [IsHeld, hstate]
      obtain ⟨given, hlast, hsame⟩ := exists_nodeWithId? (hheld n.id hid)
      obtain ⟨here, hhere⟩ : ∃ here, g.node? n.id = some here :=
        Option.ne_none_iff_exists'.mp fun hnone => node?_eq_none_iff.mp hnone (hlocal n.id hid)
      have hthere : (g.mergeNodes nodes).node? n.id = some (g.mergeNode given) := by
        rw [node?_mergeNodes, hlast, Option.map_some]
      rw [hstate] at hgesture
      -- the node that stands there now has what was protected here
      cases gesture with
      | drag =>
          rw [(mergedFrom_mergeNode g n).dragged here hhere hstate,
            (mergedFrom_mergeNode _ n).dragged _ hthere hgesture,
            (mergedFrom_mergeNode g given).dragged here (hsame ▸ hhere) (hsame ▸ hstate)]
      | edit =>
          rw [(mergedFrom_mergeNode g n).edited here hhere hstate,
            (mergedFrom_mergeNode _ n).edited _ hthere hgesture,
            (mergedFrom_mergeNode g given).edited here (hsame ▸ hhere) (hsame ▸ hstate)]

/-! ## One snapshot after the other -/

/-- Two graphs that protect the same of every node, and whose gestures are on nodes of theirs. -/
structure ProtectsAlike (g g' : Graph) : Prop where
  mergeNode : g'.mergeNode = g.mergeNode
  isHeld : ∀ id, g'.IsHeld id → g.IsHeld id
  isLocal : ∀ id, g'.IsHeld id → id ∈ idsOf g'.nodes

theorem ProtectsAlike.refl {g : Graph} (hlocal : ∀ id, g.IsHeld id → id ∈ idsOf g.nodes) :
    ProtectsAlike g g :=
  ⟨rfl, fun _ h => h, hlocal⟩

/-- One full snapshot with the held nodes changes nothing that is protected. -/
theorem ProtectsAlike.merge {g g' : Graph} (h : ProtectsAlike g g') {s : Incoming}
    (hfull : s.IsFull) (hheld : ∀ id, g.IsHeld id → id ∈ s.nodeIds) :
    ProtectsAlike g (g'.merge s) := by
  obtain ⟨nodes, hnodes⟩ := Option.isSome_iff_exists.mp hfull.nodes
  have hheld' : ∀ id, g'.IsHeld id → id ∈ idsOf nodes := by
    intro id hid
    simpa [Incoming.nodeIds, hnodes] using hheld id (h.isHeld id hid)
  obtain ⟨connections, running, pan, zoom, hmerge⟩ := exists_merge_eq g' hnodes
  have hgesture : ∀ id, (g'.merge s).gesture? id = g'.gesture? id := by
    intro id
    rw [hmerge]
    exact gesture?_mergeNodes_of_held hheld' id
  have hback : ∀ id, (g'.merge s).IsHeld id → g'.IsHeld id := by
    intro id hid
    rwa [IsHeld, hgesture] at hid
  constructor
  · rw [hmerge, ← h.mergeNode]
    exact funext (mergeNode_mergeNodes h.isLocal hheld')
  · exact fun id hid => h.isHeld id (hback id hid)
  · intro id hid
    have hids : idsOf (g'.merge s).nodes = (idsOf nodes).eraseDups := by
      rw [hmerge]
      exact idsOf_mergeNodes g' nodes
    rw [hids, List.mem_eraseDups]
    exact hheld' id (hback id hid)

/-- Two graphs with the same nodes and connections, whatever hangs off the nodes. -/
structure SameNet (g g' : Graph) : Prop where
  nodes : g'.nodes = g.nodes
  connections : g'.connections = g.connections

theorem SameNet.hasNode {g g' : Graph} (h : SameNet g g') : g'.hasNode = g.hasNode := by
  funext id
  simp only [Graph.hasNode, h.nodes]

theorem SameNet.connect {g g' : Graph} (h : SameNet g g') (c : Connection) :
    SameNet (g.connect c) (g'.connect c) := by
  have hadmits : g'.admits c = g.admits c := by
    simp only [admits, hasEnds, h.hasNode, h.connections]
  unfold Graph.connect
  rw [hadmits]
  split
  · exact ⟨h.nodes, by simp only [h.connections]⟩
  · exact h

theorem SameNet.connectAll {g g' : Graph} (h : SameNet g g') (added : List Connection) :
    SameNet (added.foldl Graph.connect g) (added.foldl Graph.connect g') := by
  induction added generalizing g g' with
  | nil => exact h
  | cons c added ih => exact ih (h.connect c)

/-- What is written after a full snapshot is what it says and what is protected. -/
theorem toValue_merge_of_isFull {g g' : Graph} {s : Incoming} (hfull : s.IsFull)
    (hmerge : g'.mergeNode = g.mergeNode) : (g'.merge s).toValue = (g.merge s).toValue := by
  obtain ⟨nodes, connections, running, pan, zoom⟩ := s
  obtain ⟨nodes, rfl⟩ := Option.isSome_iff_exists.mp hfull.nodes
  obtain ⟨connections, rfl⟩ := Option.isSome_iff_exists.mp hfull.connections
  obtain ⟨running, rfl⟩ := Option.isSome_iff_exists.mp hfull.running
  obtain ⟨pan, rfl⟩ := Option.isSome_iff_exists.mp hfull.pan
  obtain ⟨zoom, rfl⟩ := Option.isSome_iff_exists.mp hfull.zoom
  have hnodes : (g'.mergeNodes nodes).nodes = (g.mergeNodes nodes).nodes := by
    simp only [mergeNodes, replaceNodes, hmerge]
  have hempty : SameNet { g.mergeNodes nodes with connections := [] }
      { g'.mergeNodes nodes with connections := [] } := ⟨hnodes, rfl⟩
  have hnet := hempty.connectAll connections
  simp only [toValue, merge, mergeConnections, Option.getD_some, Option.map_some, hnet.nodes,
    hnet.connections, hnet.hasNode]

/-- A payload that can be read is taken over. -/
theorem ProtectsAlike.reconcileEach {g g' : Graph} (h : ProtectsAlike g g') {payloads : List Value}
    (hfull : ∀ payload ∈ payloads, ∃ s, Incoming.ofValue payload = .ok s ∧ s.IsFull ∧
      ∀ id, g.IsHeld id → id ∈ s.nodeIds) :
    ∃ each, g'.reconcileEach payloads = .ok each ∧ ProtectsAlike g each := by
  induction payloads generalizing g' with
  | nil => exact ⟨g', rfl, h⟩
  | cons payload payloads ih =>
      obtain ⟨⟨s, hread, hsections, hheld⟩, hrest⟩ := List.forall_mem_cons.mp hfull
      obtain ⟨each, heach, halike⟩ := ih (h.merge hsections hheld) hrest
      refine ⟨each, ?_, halike⟩
      rw [Graph.reconcileEach, List.foldlM_cons, reconcile_of_ofValue g' hread]
      exact heach

end Graph

/-! ## The inbox -/

namespace Inbox

theorem latest_foldl_push (inbox : Inbox) {payloads : List Value} (hne : payloads ≠ []) :
    (payloads.foldl push inbox).latest = (payloads.getLast hne).present? := by
  obtain ⟨init, last, rfl⟩ : ∃ init last, payloads = init ++ [last] :=
    ⟨_, _, (List.dropLast_append_getLast hne).symm⟩
  rw [List.foldl_concat, List.getLast_concat]
  rfl

end Inbox

/-- What can be read as a snapshot is not null. -/
theorem Incoming.present?_of_ofValue {payload : Value} {s : Incoming}
    (h : ofValue payload = .ok s) : payload.present? = some payload := by
  cases payload with
  | null => cases h
  | bool | number | text | list | object => rfl

/-- The inbox may forget all payloads but the latest.  When they are full snapshots that have every
node with a gesture in progress, applying what is left of them once writes the same graph as
applying each of them. -/
theorem Inbox.fire_pushed_eq_reconcileEach (g : Graph) (inbox : Inbox) {payloads : List Value}
    (hne : payloads ≠ []) (hlocal : ∀ id, g.IsHeld id → id ∈ idsOf g.nodes)
    (hfull : ∀ payload ∈ payloads, ∃ s, Incoming.ofValue payload = .ok s ∧ s.IsFull ∧
      ∀ id, g.IsHeld id → id ∈ s.nodeIds) :
    ∃ each once report, g.reconcileEach payloads = .ok each ∧
      g.reconcile (payloads.getLast hne) = .ok (once, report) ∧
      ((payloads.foldl push inbox).fire g).graph = once ∧
      ((payloads.foldl push inbox).fire g).result = .ok (some report) ∧
      once.toValue = each.toValue := by
  obtain ⟨init, last, rfl⟩ : ∃ init last, payloads = init ++ [last] :=
    ⟨_, _, (List.dropLast_append_getLast hne).symm⟩
  obtain ⟨hinit, hlast⟩ := List.forall_mem_append.mp hfull
  obtain ⟨s, hread, hsections, -⟩ := hlast last (List.mem_singleton_self last)
  obtain ⟨before, hbefore, halike⟩ := (Graph.ProtectsAlike.refl hlocal).reconcileEach hinit
  have hwaits : (((init ++ [last]).foldl push inbox).latest) = some last := by
    rw [latest_foldl_push inbox hne, List.getLast_concat, Incoming.present?_of_ofValue hread]
  have honce := Graph.reconcile_of_ofValue g hread
  have hfire : ((init ++ [last]).foldl push inbox).fire g =
      ⟨{ latest := none, isArmed := false }, g.merge s, .ok (some (g.mergeReport s))⟩ := by
    simp only [fire, flush, hwaits, GraphWork.run_reconcile, honce]
  refine ⟨before.merge s, g.merge s, g.mergeReport s, ?_, ?_, ?_, ?_, ?_⟩
  · rw [Graph.reconcileEach, List.foldlM_append]
    change g.reconcileEach init >>= _ = _
    rw [hbefore]
    change (Prod.fst <$> before.reconcile last) >>= _ = _
    rw [Graph.reconcile_of_ofValue before hread]
    rfl
  · rw [List.getLast_concat, honce]
  · rw [hfire]
  · rw [hfire]
  · exact (Graph.toValue_merge_of_isFull hsections halike.mergeNode).symm

/-- A file is dragged and a note is edited here.  Two snapshots move both and give them new content;
the first has the file twice and a node that is gone in the second, with a connection to it. -/
theorem Inbox.fire_pushed_eq_reconcileEach_two_snapshots :
    let node (id kind content : Text) (x : Float) : Value := .object [("id", .text id),
      ("type", .text kind), ("content", .text content), ("position", .object [("x", .real x)])]
    let edge (source target : Text) : Value := .object [("id", .text (source ++ target)),
      ("sourceNodeId", .text source), ("sourcePortId", .text (source ++ "-out-dom")),
      ("targetNodeId", .text target), ("targetPortId", .text (target ++ "-in-file"))]
    let snapshot (nodes edges : List Value) : Value := .object [("nodes", .list nodes),
      ("connections", .list edges), ("runningIds", .texts ["f"]),
      ("pan", .object [("x", .real 1)]), ("zoom", .real 2)]
    let payloads := [
      snapshot [node "a" "CODE" "1" 1, node "b" "TEXT" "2" 2, node "f" "FOLDER" "" 3,
        node "a" "CODE" "4" 4] [edge "a" "f", edge "b" "f"],
      snapshot [node "b" "TEXT" "5" 5, node "a" "CODE" "6" 6] [edge "a" "f"]]
    let g : Graph := {
      nodes := [{ id := "a", kind := .code, title := "a.js", content := "old", position := ⟨7, 8⟩ },
        { id := "b", kind := .note, title := "b.md", content := "draft" }]
      gestures := [("a", .drag), ("b", .edit)] }
    (∀ id, g.IsHeld id → id ∈ idsOf g.nodes) ∧
    (∀ payload ∈ payloads, ∃ s, Incoming.ofValue payload = .ok s ∧ s.IsFull ∧
      ∀ id, g.IsHeld id → id ∈ s.nodeIds) ∧
    ∃ each once report, g.reconcileEach payloads = .ok each ∧
      g.reconcile (payloads.getLast (by simp [payloads])) = .ok (once, report) ∧
      ((payloads.foldl push {}).fire g).graph = once ∧
      ((payloads.foldl push {}).fire g).result = .ok (some report) ∧
      once.toValue = each.toValue := by
  intro node edge snapshot payloads g
  have hheld : ∀ id, g.IsHeld id → id = "a" ∨ id = "b" := by
    intro id hid
    by_contra hother
    obtain ⟨ha, hb⟩ := not_or.mp hother
    exact hid (by simp [g, Graph.gesture?, Fields.get?_cons, Ne.symm ha, Ne.symm hb])
  have hlocal : ∀ id, g.IsHeld id → id ∈ idsOf g.nodes := by
    intro id hid
    obtain rfl | rfl := hheld id hid <;> simp [g]
  have hfull : ∀ payload ∈ payloads, ∃ s, Incoming.ofValue payload = .ok s ∧ s.IsFull ∧
      ∀ id, g.IsHeld id → id ∈ s.nodeIds := by
    intro payload hpayload
    obtain rfl | hpayload := List.mem_cons.mp hpayload
    · refine ⟨_, rfl, ⟨rfl, rfl, rfl, rfl, rfl⟩, fun id hid => ?_⟩
      obtain rfl | rfl := hheld id hid <;> simp [Incoming.nodeIds, Value.asText]
    · obtain rfl := List.mem_singleton.mp hpayload
      refine ⟨_, rfl, ⟨rfl, rfl, rfl, rfl, rfl⟩, fun id hid => ?_⟩
      obtain rfl | rfl := hheld id hid <;> simp [Incoming.nodeIds, Value.asText]
  exact ⟨hlocal, hfull, fire_pushed_eq_reconcileEach g {} _ hlocal hfull⟩

end LiveCanvas
