import LiveCanvas.Proofs.Collab.Coalesce

/-!
# The same snapshot again

A snapshot that has been taken over has nothing more to say.  The nodes that stand there now are its
own, with what the gestures here protect; merging it again protects the same of them, and so makes
them what they are.  Connections, running previews, pan and zoom depend on the nodes alone.  So
reconciling twice with one payload is reconciling once.
-/

namespace LiveCanvas
namespace Graph

/-! ## Nodes -/

section Nodes

variable {g after : Graph} {nodes : List Node}

/-- The node of a snapshot that counts is protected by a graph that has taken it over as it was by
the graph before: either way it gets the fields that stand there now. -/
theorem mergeNode_of_taken (hnodes : after.nodes = (g.mergeNodes nodes).nodes)
    (hgestures : after.gestures = (g.mergeNodes nodes).gestures) {n : Node}
    (hlast : nodeWithId? nodes n.id = some n) : after.mergeNode n = g.mergeNode n := by
  have hthere : after.node? n.id = some (g.mergeNode n) := by
    rw [node?, hnodes]
    exact (node?_mergeNodes g nodes n.id).trans (by rw [hlast, Option.map_some])
  have hgesture : after.gesture? n.id = g.gesture? n.id := by
    have hkept : n.id ∉ (g.reportNodes nodes).dropped := by
      intro hdropped
      have hmem : n.id ∈ idsOf nodes :=
        mem_idsOf_of_mem (List.mem_reverse.mp (List.mem_of_find?_eq_some hlast))
      exact (by simpa [idsOf] using (List.mem_filter.mp hdropped).2 : n.id ∉ idsOf nodes) hmem
    rw [gesture?, hgestures]
    exact (gesture?_mergeNodes g nodes n.id).trans (if_neg hkept)
  cases hstate : g.gesture? n.id with
  | none =>
      rw [(mergedFrom_mergeNode g n).idle hstate,
        (mergedFrom_mergeNode after n).idle (hgesture.trans hstate)]
  | some gesture =>
      rw [hstate] at hgesture
      cases hhere : g.node? n.id with
      | none =>
          -- a gesture on a node that was not here: now it protects what the snapshot itself says
          have hnew := (mergedFrom_mergeNode g n).absent hhere
          rw [hnew] at hthere ⊢
          cases gesture with
          | drag => exact (mergedFrom_mergeNode after n).dragged n hthere hgesture
          | edit => exact (mergedFrom_mergeNode after n).edited n hthere hgesture
      | some here =>
          cases gesture with
          | drag =>
              rw [(mergedFrom_mergeNode after n).dragged _ hthere hgesture,
                (mergedFrom_mergeNode g n).dragged here hhere hstate]
          | edit =>
              rw [(mergedFrom_mergeNode after n).edited _ hthere hgesture,
                (mergedFrom_mergeNode g n).edited here hhere hstate]

/-- A graph with the ids of a snapshot reports nothing added and nothing dropped. -/
theorem reportNodes_of_idsOf_eq (hids : idsOf after.nodes = (idsOf nodes).eraseDups) :
    (after.reportNodes nodes).added = [] ∧ (after.reportNodes nodes).dropped = [] := by
  constructor
  · show (idsOf nodes).filter (fun id => !after.hasNode id) = []
    rw [List.filter_eq_nil_iff]
    intro id hid
    simpa [hasNode_iff, hids] using hid
  · show (idsOf after.nodes).filter (fun id => !(idsOf nodes).contains id) = []
    rw [List.filter_eq_nil_iff, hids]
    intro id hid
    simpa using List.mem_eraseDups.mp hid

/-- Taking over the nodes again changes nothing. -/
theorem mergeNodes_of_taken (hnodes : after.nodes = (g.mergeNodes nodes).nodes)
    (hgestures : after.gestures = (g.mergeNodes nodes).gestures) :
    after.mergeNodes nodes = after := by
  have hids : idsOf after.nodes = (idsOf nodes).eraseDups := hnodes ▸ idsOf_mergeNodes g nodes
  have hsame : (after.mergeNodes nodes).nodes = after.nodes := by
    refine nodes_ext (nodup_idsOf_mergeNodes after nodes) ?_ fun id _ => ?_
    · rw [idsOf_mergeNodes, hids]
    · have hbefore : after.node? id = (nodeWithId? nodes id).map g.mergeNode := by
        rw [node?, hnodes]
        exact node?_mergeNodes g nodes id
      rw [node?_mergeNodes, hbefore]
      cases hlast : nodeWithId? nodes id with
      | none => rfl
      | some n =>
          obtain rfl : n.id = id := by simpa using List.find?_some hlast
          rw [Option.map_some, Option.map_some, mergeNode_of_taken hnodes hgestures hlast]
  have hnone := (reportNodes_of_idsOf_eq hids).2
  calc after.mergeNodes nodes
      = { after with
          nodes := (after.mergeNodes nodes).nodes
          logs := (after.reportNodes nodes).dropped.foldl Fields.erase after.logs
          gestures := (after.reportNodes nodes).dropped.foldl Fields.erase after.gestures } := rfl
    _ = after := by rw [hsame, hnone]; rfl

end Nodes

/-! ## Connections -/

/-- Taking over the connections again changes nothing while the nodes stay. -/
theorem mergeConnections_of_taken {g after : Graph} {given : Option (List Connection)}
    (hnodes : after.nodes = g.nodes)
    (hconnections : after.connections = (g.mergeConnections given).connections) :
    after.mergeConnections given = after := by
  cases given with
  | none =>
      have hlive : after.connections.filter after.hasEnds = after.connections := by
        rw [List.filter_eq_self, hconnections]
        intro c hc
        rw [hasEnds_iff, hnodes, ← hasEnds_iff]
        exact (List.mem_filter.mp hc).2
      show { after with connections := after.connections.filter after.hasEnds } = after
      rw [hlive]
  | some given =>
      obtain ⟨connections, hall⟩ := exists_connectAll_eq { after with connections := [] } given
      have hnet : SameNet { g with connections := [] } { after with connections := [] } :=
        ⟨hnodes, rfl⟩
      have hsame : connections = after.connections := by
        rw [hconnections]
        exact (congrArg Graph.connections hall).symm.trans (hnet.connectAll given).connections
      show given.foldl connect { after with connections := [] } = after
      rw [hall, hsame]

/-! ## Whole snapshots -/

/-- What a snapshot makes of a graph: first its nodes, if it lists any, then the other sections. -/
theorem merge_eq (g : Graph) (s : Incoming) :
    g.merge s = (let linked := (s.nodes.elim g g.mergeNodes).mergeConnections s.connections
      { linked with
        running := (s.running.getD linked.running).filter linked.hasNode
        pan := s.pan.getD linked.pan
        zoom := (s.zoom.map Number.real).getD linked.zoom }) := by
  obtain ⟨_ | nodes, connections, running, pan, zoom⟩ := s <;> rfl

/-- A snapshot changes nothing when none of its sections does. -/
theorem merge_eq_self {g : Graph} {s : Incoming}
    (hnodes : s.nodes.elim g g.mergeNodes = g)
    (hconnections : g.mergeConnections s.connections = g)
    (hrunning : (s.running.getD g.running).filter g.hasNode = g.running)
    (hpan : s.pan.getD g.pan = g.pan)
    (hzoom : (s.zoom.map Number.real).getD g.zoom = g.zoom) : g.merge s = g := by
  rw [merge_eq, hnodes, hconnections]
  show { g with
    running := (s.running.getD g.running).filter g.hasNode
    pan := s.pan.getD g.pan
    zoom := (s.zoom.map Number.real).getD g.zoom } = g
  rw [hrunning, hpan, hzoom]

/-- Taking over a snapshot again changes nothing. -/
theorem merge_merge (g : Graph) (s : Incoming) : (g.merge s).merge s = g.merge s := by
  have hmerge := merge_eq g s
  generalize hfirst : s.nodes.elim g g.mergeNodes = first at hmerge
  -- the sections after the nodes leave the nodes and the gestures alone
  obtain ⟨linked, hlinked⟩ := exists_mergeConnections_eq first s.connections
  refine merge_eq_self ?_ ?_ ?_ ?_ ?_ <;> rw [hmerge]
  · cases hnodes : s.nodes with
    | none => rfl
    | some nodes =>
        obtain rfl : g.mergeNodes nodes = first := by simpa [hnodes] using hfirst
        exact mergeNodes_of_taken (by rw [hlinked]) (by rw [hlinked])
  · exact mergeConnections_of_taken (by rw [hlinked]) rfl
  · cases hrunning : s.running with
    | none => exact List.filter_eq_self.mpr fun id hid => (List.mem_filter.mp hid).2
    | some running => rfl
  · cases s.pan <;> rfl
  · cases s.zoom <;> rfl

/-- Reconciling a second time with a payload that can be read leaves the whole graph as the first
time left it, and reports nothing added and nothing dropped. -/
theorem reconcile_reconcile (g : Graph) {payload : Value} {s : Incoming}
    (hread : Incoming.ofValue payload = .ok s) :
    ∃ after report again, g.reconcile payload = .ok (after, report) ∧
      after.reconcile payload = .ok (after, again) ∧ again.added = [] ∧ again.dropped = [] := by
  have hagain := reconcile_of_ofValue (g.merge s) hread
  rw [merge_merge] at hagain
  refine ⟨_, _, _, reconcile_of_ofValue g hread, hagain, ?_⟩
  rw [mergeReport]
  cases hnodes : s.nodes with
  | none => exact ⟨rfl, rfl⟩
  | some nodes =>
      obtain ⟨_, _, _, _, hmerge⟩ := exists_merge_eq g hnodes
      rw [hmerge]
      exact reportNodes_of_idsOf_eq (idsOf_mergeNodes g nodes)

/-- A partial snapshot.  It makes the note that is edited here a code file, moves the file that is
dragged here, lists twice a page that is not here though it is being dragged, wires the page to the
preview twice and once to a node that it leaves out, and says nothing of the previews that run: the
one that runs has console lines and is left out too. -/
theorem reconcile_reconcile_partial_snapshot :
    let listed (id kind title : Text) (x : Float) : Value := .object [("id", .text id),
      ("type", .text kind), ("title", .text title), ("content", .text "new"),
      ("position", .object [("x", .real x), ("y", .real 0)])]
    let wire (id target : Text) : Value := .object [("id", .text id),
      ("sourceNodeId", .text "p"), ("sourcePortId", .text "p-out-dom"),
      ("targetNodeId", .text target), ("targetPortId", .text (target ++ "-in-dom"))]
    let payload : Value := .object [
      ("nodes", .list [listed "p" "CODE" "page.html" 10, listed "n" "CODE" "note.js" 20,
        listed "f" "CODE" "f.js" 30, listed "v" "PREVIEW" "Preview" 40,
        listed "p" "CODE" "index.html" 50]),
      ("connections", .list [wire "w" "v", wire "w" "v", wire "x" "u"]),
      ("zoom", .real 2)]
    let g : Graph := {
      nodes := [{ id := "f", kind := .code, title := "a.js", position := ⟨1, 1⟩ },
        { id := "n", kind := .note, title := "Note", content := "draft" },
        { id := "u", kind := .preview, title := "Preview" }]
      connections := [⟨"k", "f", "f-out-dom", "u", "u-in-dom"⟩]
      logs := [("u", [])]
      running := ["u"]
      gestures := [("f", .drag), ("n", .edit), ("p", .drag), ("u", .drag)] }
    ∃ s, Incoming.ofValue payload = .ok s ∧
      ∃ after report again, g.reconcile payload = .ok (after, report) ∧
        after.reconcile payload = .ok (after, again) ∧ again.added = [] ∧ again.dropped = [] := by
  intro listed wire payload g
  exact ⟨_, rfl, reconcile_reconcile g rfl⟩

end Graph
end LiveCanvas
