import LiveCanvas.Proofs.Canvas.GraphRoundTrip
import LiveCanvas.Proofs.Canvas.History
import LiveCanvas.Proofs.Collab.Entries
import LiveCanvas.Proofs.Collab.Merge

/-!
# What one session writes another one shows

A graph that is written reaches another session in two ways: as a file that is loaded, and as a
snapshot that is applied to whatever is open there.  The two have readers of their own.  Both of
them leave the graph that was written.
-/

namespace LiveCanvas

/-- The fields of a connection as they are written. -/
def Connection.toFields (c : Connection) : Fields Value :=
  [("id", .text c.id), ("sourceNodeId", .text c.source), ("sourcePortId", .text c.sourcePort),
    ("targetNodeId", .text c.target), ("targetPortId", .text c.targetPort)]

/-! ## Reading the snapshot -/

/-- A section with a list is there with its items. -/
theorem Snapshot.section?_of_list {α : Type} {fields : Fields Value} {names : List Text}
    {name : Text} {check : Value → Checked α} {write : α → Value} {as : List α}
    (hcheck : ∀ v a, check v = .fits a ↔ v = write a)
    (hgiven : Checked.given? fields names = some (name, .list (as.map write))) :
    Snapshot.section? names (Checked.list check) fields = .fits (some as) := by
  have hlist : Checked.list check (.list (as.map write)) = .fits as :=
    (Checked.list_eq_fits_iff hcheck).mpr rfl
  simp only [section?, Checked.optional, hgiven, Checked.nullable, hlist]
  rfl

namespace Graph

variable {h : Graph}

/-- A written graph has the shape of a snapshot with all its sections. -/
theorem snapshot_ofValue_toValue {zoom : Float} (hzoom : h.zoom.toReal? = some zoom) :
    Snapshot.ofValue h.toValue = .ok
      { nodes := some (h.nodes.map Node.toFields)
        connections := some (h.connections.map Connection.toFields)
        running := some h.running
        pan := some h.pan
        zoom := some zoom } := by
  obtain ⟨fields, hfields⟩ : ∃ fields : Fields Value, fields =
      ([("nodes", .list (h.nodes.map Node.toValue)),
        ("connections", .list (h.connections.map Connection.toValue)),
        ("runningPreviewIds", .texts h.running), ("pan", h.pan.toValue),
        ("zoom", .number h.zoom)] : Fields Value) := ⟨_, rfl⟩
  have hnodes : Snapshot.section? ["nodes"] (Checked.list Checked.object) fields =
      .fits (some (h.nodes.map Node.toFields)) := by
    apply Snapshot.section?_of_list fun _ _ => Checked.object_eq_fits_iff
    rw [hfields, List.map_map]
    rfl
  have hconnections : Snapshot.section? ["connections"] (Checked.list Checked.object) fields =
      .fits (some (h.connections.map Connection.toFields)) := by
    apply Snapshot.section?_of_list fun _ _ => Checked.object_eq_fits_iff
    rw [hfields, List.map_map]
    rfl
  have hrunning : Snapshot.section? Snapshot.runningNames (Checked.list Checked.text) fields =
      .fits (some h.running) := by
    apply Snapshot.section?_of_list fun _ _ => Checked.text_eq_fits_iff
    rw [hfields]
    rfl
  have hpan : Snapshot.section? ["pan"] Position.ofPayload fields = .fits (some h.pan) := by
    rw [hfields]
    rfl
  have hscale : Snapshot.section? ["zoom"] Checked.real fields = .fits (some zoom) := by
    have hreal : Checked.real (.number h.zoom) = .fits zoom := by
      simp [Checked.real, hzoom, Checked.ofOption]
    rw [hfields]
    change Checked.inside "zoom" (some <$> Checked.real (.number h.zoom)) = _
    rw [hreal]
    rfl
  have hshape : Snapshot.shape (.object fields) = .fits ⟨some (h.nodes.map Node.toFields),
      some (h.connections.map Connection.toFields), some h.running, some h.pan, some zoom⟩ := by
    rw [Snapshot.shape, hnodes, hconnections, hrunning, hpan, hscale]
    rfl
  rw [toValue, ← hfields, Snapshot.ofValue, hshape]

/-- The nodes and connections of a written graph can be read. -/
theorem incoming_ofValue_toValue (hdouble : ∀ n ∈ h.numbers, n.IsDouble) {zoom : Float}
    (hzoom : h.zoom.toReal? = some zoom) :
    Incoming.ofValue h.toValue = .ok
      { nodes := some (h.nodes.map Node.readBack)
        connections := some h.connections
        running := some h.running
        pan := some h.pan
        zoom := some zoom } := by
  have hnodes : (h.nodes.map Node.toFields).mapM (fun fields => Node.ofValue (.object fields)) =
      .ok (h.nodes.map Node.readBack) :=
    mapM_map_eq_ok fun n hn => Node.ofValue_toValue (isDouble_node hdouble hn)
  have hconnections : (h.connections.map Connection.toFields).mapM
      (fun fields => Connection.ofValue (.object fields)) = .ok h.connections :=
    mapM_map_eq_ok_self Connection.ofValue_toValue
  rw [Incoming.ofValue_eq_ok_iff]
  refine ⟨_, _, _, snapshot_ofValue_toValue hzoom, ?_, ?_, rfl⟩
  · rw [Incoming.readAll, hnodes]
    rfl
  · rw [Incoming.readAll, hconnections]
    rfl

/-! ## Taking the snapshot over -/

/-- Without gestures a snapshot decides about the nodes alone. -/
theorem nodes_mergeNodes_of_idle {g : Graph} (hidle : ∀ id, g.gesture? id = none)
    {nodes : List Node} (hnodup : (idsOf nodes).Nodup) : (g.mergeNodes nodes).nodes = nodes := by
  have hmerge : nodes.map g.mergeNode = nodes := by
    calc nodes.map g.mergeNode = nodes.map fun n => n :=
          List.map_congr_left fun n _ => (mergedFrom_mergeNode g n).idle (hidle n.id)
      _ = nodes := List.map_id' nodes
  change (nodes.map g.mergeNode).foldl placeNode [] = nodes
  rw [hmerge, foldl_placeNode_of_nodup hnodup]

/-- Where no gesture is in progress a sound graph that arrives is shown as it was written. -/
theorem toValue_merge_readBack {g : Graph} (hidle : ∀ id, g.gesture? id = none) (hsound : h.Sound)
    (hrunning : ∀ id ∈ h.running, h.hasNode id = true) {zoom : Float}
    (hzoom : h.zoom.toReal? = some zoom) :
    (g.merge ⟨some h.readBack.nodes, some h.connections, some h.running, some h.pan,
      some zoom⟩).toValue = h.readBack.toValue := by
  have hnodes : (g.mergeNodes h.readBack.nodes).nodes = h.readBack.nodes :=
    nodes_mergeNodes_of_idle hidle hsound.readBack.ids_nodup
  obtain ⟨merged, hmerged⟩ : ∃ merged : Graph,
      merged = { g.mergeNodes h.readBack.nodes with connections := h.connections } := ⟨_, rfl⟩
  have hconnect :
      (g.mergeNodes h.readBack.nodes).mergeConnections (some h.connections) = merged := by
    have htaken : merged.Sound := by
      rw [hmerged]
      exact hsound.readBack.of_same (congrArg idsOf hnodes) rfl
    rw [hmerged] at htaken ⊢
    exact htaken.connectAll_eq [] h.connections rfl
  have hkept : h.running.filter merged.hasNode = h.running := by
    rw [List.filter_eq_self]
    intro id hid
    rw [hmerged]
    simp only [hasNode, hnodes]
    exact (hasNode_readBack h id).trans (hrunning id hid)
  simp only [merge, hconnect, Option.getD_some, Option.map_some, toValue, hkept]
  simp only [hmerged, hnodes]
  simp only [readBack, Number.asReal_of_toReal? hzoom]

end Graph

/-- A graph whose numbers are values of doubles and whose running previews are nodes of it is
written in a form from which both readers get it back: a file with it holds the same graph, and a
snapshot with it turns every graph without gestures into the same graph, whatever that one was
before.  Numbers are compared by what they are and not by how they are written. -/
theorem loads_invert_toValue {h : Graph} (hreached : Reached h)
    (hrunning : ∀ id ∈ h.running, h.hasNode id = true) (hdouble : ∀ n ∈ h.numbers, n.IsDouble) :
    (∃ loaded, Graph.ofValue h.toValue = .ok loaded ∧
      loaded.toValue.byValue = h.toValue.byValue) ∧
    ∀ g : Graph, (∀ id, g.gesture? id = none) →
      ∃ after report, g.reconcile h.toValue = .ok (after, report) ∧
        after.toValue.byValue = h.toValue.byValue := by
  have hsound := sound_of_reached hreached
  have hback := Graph.byValue_toValue_readBack hdouble
  constructor
  · exact ⟨h.readBack, Graph.ofValue_toValue hdouble hsound hrunning, hback⟩
  · intro g hidle
    obtain ⟨zoom, hzoom, -⟩ := (Graph.isDouble_zoom hdouble).exists_toReal?
    refine ⟨_, _, g.reconcile_of_ofValue (Graph.incoming_ofValue_toValue hdouble hzoom), ?_⟩
    rw [← hback]
    exact congrArg Value.byValue (Graph.toValue_merge_readBack hidle hsound hrunning hzoom)

/-- A minimized and locked page, its running preview, and a chat about the page.  The sizes are
whole numbers and are read as doubles.  The other session has a node and a running preview of its
own. -/
theorem loads_invert_toValue_minimized_page :
    let page : Node := { id := "a", kind := .code, title := "a.html", content := "<p>"
                         position := ⟨10.5, -3⟩, size := Kind.code.defaultSize }
    let preview : Node := { id := "p", kind := .preview, title := "Preview"
                            size := Kind.preview.defaultSize, autoHeight := true }
    let chat : Node := { id := "c", kind := .chat, title := "Chat", size := Kind.chat.defaultSize
                         messages := [⟨.user, "Why?"⟩, ⟨.model, "Because."⟩], contextIds := ["a"] }
    let h := [Change.toggleMinimized "a", .lock "a" "ann", .setRunning "p" true,
        .setZoom (.real 1.5), .setSharedState "c" (.object [("step", .int 2)])].foldl Change.apply
      (Graph.build [page, preview, chat] [⟨"e", "a", "a-out-dom", "p", "p-in-dom"⟩])
    let g : Graph := { nodes := [{ id := "z", kind := .preview, title := "Old" }]
                       running := ["z"] }
    Reached h ∧ (∀ id ∈ h.running, h.hasNode id = true) ∧ (∀ n ∈ h.numbers, n.IsDouble) ∧
      (∀ id, g.gesture? id = none) ∧
      (∃ loaded, Graph.ofValue h.toValue = .ok loaded ∧
        loaded.toValue.byValue = h.toValue.byValue) ∧
      ∃ after report, g.reconcile h.toValue = .ok (after, report) ∧
        after.toValue.byValue = h.toValue.byValue := by
  intro page preview chat h g
  have hreached : Reached h := .changedAll (.built _ _) _
  have hrunning : ∀ id ∈ h.running, h.hasNode id = true := by decide +kernel
  have hdouble : ∀ n ∈ h.numbers, n.IsDouble := by decide +kernel
  have hidle : ∀ id, g.gesture? id = none := fun _ => rfl
  obtain ⟨hfile, hsnapshot⟩ := loads_invert_toValue hreached hrunning hdouble
  exact ⟨hreached, hrunning, hdouble, hidle, hfile, hsnapshot g hidle⟩

/-- A whole number may lie between two doubles.  The width `2 ^ 53 + 1` is finite, and the file with
it is loaded with the width `2 ^ 53`. -/
theorem loads_invert_toValue_fails_between_doubles :
    let page : Node := { id := "a", kind := .code, title := "a.js" }
    let h := (Change.setSize "a" ⟨.whole 9007199254740993, .whole 300⟩).apply
      (Graph.build [page] [])
    Reached h ∧ (∀ id ∈ h.running, h.hasNode id = true) ∧
      (∀ x, Number.real x ∈ h.numbers → x.isFinite = true) ∧
      ∃ loaded, Graph.ofValue h.toValue = .ok loaded ∧
        loaded.toValue.byValue ≠ h.toValue.byValue := by
  intro page h
  have hnodes : h.nodes = [{ page with size := ⟨.whole 9007199254740993, .whole 300⟩ }] := rfl
  have hnumbers : h.numbers = [.real 0, .real 0, .real 1, .real 0, .real 0,
      .whole 9007199254740993, .whole 300] := rfl
  have hfinite : (0 : Float).isFinite = true ∧ (1 : Float).isFinite = true := by decide +kernel
  have hwritten : (Number.whole 9007199254740993).byValue = .whole 9007199254740993 := rfl
  have hrounded : (Number.whole 9007199254740993).asReal.byValue = .whole 9007199254740992 := by
    have hinf : (Float.ofInt 9007199254740993).isInf = false := by decide +kernel
    have hvalue : wholeValue? (Float.ofInt 9007199254740993) = some 9007199254740992 := by
      decide +kernel
    have hdouble : (Number.whole 9007199254740993).toReal? =
        some (Float.ofInt 9007199254740993) := by
      simp [Number.toReal?, hinf]
    simp [Number.asReal_of_toReal? hdouble, Number.byValue, hvalue]
  refine ⟨.changed _ (.built _ _), by decide +kernel, ?_, h.readBack, rfl, ?_⟩
  · intro x hx
    obtain hx | hx | hx : x = 0 ∨ x = 1 ∨ x = 0 := by simpa [hnumbers] using hx
    all_goals simp [hx, hfinite]
  · intro heq
    simp [Graph.toValue, Graph.readBack, hnodes, Node.toValue, Node.toFields, Node.readBack,
      Size.toValue, Size.asReals, hrounded, hwritten] at heq

end LiveCanvas
