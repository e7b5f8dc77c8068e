import LiveCanvas.Proofs.Edit.FolderEdges
import LiveCanvas.Proofs.Edit.Refused

/-!
# Locked nodes

A batch asks before each action whether the node that the action is about may be changed.  A node
that somebody else had locked when the batch started is never changed: no edit lifts its lock, so no
action is ever about it, and what actions do to other nodes does not reach it.
-/

namespace LiveCanvas

namespace Graph

/-- Nobody but who holds the lock of a node may change it. -/
theorem not_permits_of_locked {g : Graph} {id : NodeId} {n : Node} {identity : Option Text}
    (hn : g.node? id = some n) (hlocked : n.lock.isSome = true)
    (hother : identity.any n.isLockedBy = false) :
    g.permits identity id = false := by
  rw [permits, hn]
  show (n.lock.isNone || identity.any n.isLockedBy) = false
  rw [hother, Bool.or_false, Option.isNone_eq_false_iff]
  exact hlocked

end Graph

namespace Batch

/-- The batch leaves a node of the graph that it started from as it was, apart from its context. -/
structure Spares (before : Graph) (n : Node) (b : Batch) : Prop where
  tidy : b.Tidy
  sound : b.graph.Sound
  names : NamedOnce before.connections
  node : ∃ contextIds, b.graph.node? n.id = some { n with contextIds }
  folderEdges : b.graph.folderEdges n.id = before.folderEdges n.id

namespace Spares

variable {g : Graph} {n : Node} {b b' : Batch} {c : BatchContext} {changes : NodeId → Prop}

theorem mem_idsOf (h : Spares g n b) : n.id ∈ idsOf b.graph.nodes := by
  obtain ⟨contextIds, hnode⟩ := h.node
  exact Graph.mem_idsOf_of_node? hnode

/-- An edit that may not change the node leaves it as it was. -/
theorem node_edit (h : Spares g n b) (hedit : Edit g.connections changes b b')
    (hspared : ¬changes n.id) : ∃ contextIds, b'.graph.node? n.id = some { n with contextIds } := by
  have hne : ∀ {id}, changes id → n.id ≠ id := fun hid heq => hspared (heq ▸ hid)
  obtain ⟨contextIds, hnode⟩ := h.node
  cases hedit with
  | report report a line => exact ⟨contextIds, hnode⟩
  | add request hid =>
      have hnew : (b.add request).1.id ≠ n.id :=
        fun heq => h.tidy.id_add_notMem request hid (heq ▸ h.mem_idsOf)
      refine ⟨contextIds, ?_⟩
      show (b.graph.addNode (b.add request).1).node? n.id = _
      rw [Graph.node?_addNode, if_neg hnew, hnode]
  | remove other known code within =>
      obtain ⟨change, hafter, hchange⟩ := Graph.node?_removeNode_of_ne (g := b.graph) (hne within)
      obtain ⟨contextIds', hcontext⟩ := hchange { n with contextIds }
      refine ⟨contextIds', ?_⟩
      show (b.graph.removeNode other.id).node? n.id = _
      rw [hafter, hnode, Option.map_some, hcontext]
  | feed source target known code =>
      refine ⟨contextIds, ?_⟩
      rw [Graph.node?, nodes_wire]
      exact hnode
  | takeOut edge old within => exact ⟨contextIds, hnode⟩
  | write id content within =>
      exact ⟨contextIds, (Graph.node?_modifyNode_of_ne (hne within) (fun m => { m with content })
        fun _ => rfl).trans hnode⟩
  | rename id title within =>
      exact ⟨contextIds, (Graph.node?_modifyNode_of_ne (hne within) (fun m => { m with title })
        fun _ => rfl).trans hnode⟩

theorem edit (h : Spares g n b) (hedit : Edit g.connections changes b b')
    (hspared : ¬changes n.id) : Spares g n b' := by
  have hnode := h.node_edit hedit hspared
  refine ⟨keeps_tidy.edit hedit h.tidy, Graph.keeps_sound.edit hedit h.sound, h.names, hnode, ?_⟩
  obtain ⟨keeps, hedges, hlost⟩ := hedit.folderEdges h.tidy h.sound n.id
  rw [hedges, ← h.folderEdges, List.filter_eq_self]
  intro e he
  by_contra hkeeps
  obtain hgone | ⟨edge, hedge, hchanges, hnamed⟩ := hlost e he (Bool.not_eq_true _ ▸ hkeeps)
  · obtain ⟨contextIds, hnode⟩ := hnode
    exact hgone (Graph.mem_idsOf_of_node? hnode)
  · -- the name of a connection from before the batch is that of no other one
    rw [h.folderEdges] at he
    obtain ⟨hold, hsource, -⟩ := Graph.mem_folderEdges.1 he
    rw [← h.names.eq_of_isNamed hedge hold hnamed, hsource] at hchanges
    exact hspared hchanges

theorem edits (h : Spares g n b) (hedits : Edits g.connections changes b b')
    (hspared : ¬changes n.id) : Spares g n b' := by
  induction hedits with
  | refl => exact h
  | tail _ hedit ih => exact ih.edit hedit hspared

theorem performs {placement : Option (NodeId × Option NodeId)} (h : Spares g n b)
    (hbefore : c.before = g.connections) (hperforms : Performs c changes placement b b')
    (hspared : ¬changes n.id) : Spares g n b' := by
  have hedits : ∀ {b b'}, Spares g n b → Edits c.before changes b b' → Spares g n b' :=
    fun h hedits => h.edits (hbefore ▸ hedits) hspared
  cases hperforms with
  | nowhere edits => exact hedits h edits
  | toRoot within live start finish =>
      exact hedits (hedits (hedits h start) (edits_detach within _)) finish
  | @into _ first second _ source folder within live known isFolder start between finish =>
      have hsecond := hedits (hedits (hedits h start) (edits_detach within first)) between
      have hne : n.id ≠ source.id := fun heq => hspared (heq ▸ within)
      refine hedits ⟨?_, ?_, hsecond.names, ?_, ?_⟩ finish
      · exact hsecond.tidy.wire source folder Role.files
      · exact Graph.keeps_sound.wire second source folder Role.files hsecond.sound
      · rw [Graph.node?, nodes_wire]
        exact hsecond.node
      · rw [folderEdges_wire_of_ne hne]
        exact hsecond.folderEdges

/-- A call leaves a node that somebody else has locked as it was. -/
theorem applyCall {identity : Option Text} (h : Spares g n b) (hbefore : c.before = g.connections)
    (hpermits : c.permits = fun g id => g.permits identity id) (hlocked : n.lock.isSome = true)
    (hother : identity.any n.isLockedBy = false) (call : Value) :
    Spares g n (b.applyCall c call) := by
  cases hrefusal : b.refusal? c call with
  | some refusal =>
      rw [applyCall_of_refused hrefusal]
      exact ⟨keeps_tidy.note h.tidy _, h.sound, h.names, h.node, h.folderEdges⟩
  | none =>
      obtain ⟨command, action, -, hdecide, hperform⟩ := exists_applyCall_eq_perform hrefusal
      have hdecided := decided_of_decide h.tidy hdecide
      have hspared : ¬b.MayChange action n.id := by
        rintro (hsubject | hnew)
        · have hpermitted := hdecided.permitted n.id hsubject
          obtain ⟨contextIds, hnode⟩ := h.node
          have hnot : b.graph.permits identity n.id = false :=
            Graph.not_permits_of_locked hnode hlocked hother
          rw [hpermits] at hpermitted
          exact Bool.false_ne_true (hnot.symm.trans hpermitted)
        · exact hnew h.mem_idsOf
      rw [hperform]
      exact h.performs hbefore (Batch.performs h.tidy c hdecided.known) hspared

end Spares

end Batch

/-- A node that somebody else had locked when a batch started is there after it, the same apart from
its context, and has the same edges into folders. -/
theorem node?_runBatch_of_locked {setting : BatchSetting} {g : Graph} {ids : IdSource}
    {identity : Option Text} {n : Node} (hsound : g.Sound) (hfresh : ids.FreshFor g)
    (hnodup : (g.connections.map (·.id)).Nodup)
    (hports : ∀ e ∈ g.connections, ∀ e' ∈ g.connections,
      e.id ≠ e'.sourcePort ∧ e.id ≠ e'.targetPort)
    (hpermits : setting.permits = fun g id => g.permits identity id) (hn : n ∈ g.nodes)
    (hlocked : n.lock.isSome = true) (hother : identity.any n.isLockedBy = false)
    (calls : List Value) :
    (∃ contextIds, (runBatch setting g ids calls).graph.node? n.id = some { n with contextIds }) ∧
      (runBatch setting g ids calls).graph.folderEdges n.id = g.folderEdges n.id := by
  have hspares : Batch.Spares g n (runBatch setting g ids calls) := by
    induction calls using List.reverseRecOn with
    | nil =>
        exact ⟨Batch.tidy_start hsound.ids_nodup hfresh, hsound, ⟨hnodup, hports⟩,
          ⟨n.contextIds, Graph.node?_of_mem hsound.ids_nodup hn⟩, rfl⟩
    | append_singleton earlier call ih =>
        rw [runBatch_concat]
        exact ih.applyCall rfl hpermits hlocked hother call
  exact ⟨hspares.node, hspares.folderEdges⟩

/-- Every command is aimed at a file that somebody else has locked, or at what it is next to. -/
theorem node?_runBatch_of_locked_by_bob :
    let code (id title : Text) : Node := { id, kind := .code, title }
    let locked : Node := { code "a" "a.js" with lock := some (.text "bob") }
    let filed (id source : Text) : Connection :=
      ⟨id, source, source ++ "-out-dom", "lib", "lib-in-files"⟩
    let g := Graph.build [locked, code "b" "b.js", { id := "lib", kind := .folder, title := "lib" }]
      [filed "x" "a", filed "y" "b"]
    let call (name : Text) (arguments : List (Text × Value)) : Value :=
      .object [("name", .text name), ("args", .object arguments)]
    let calls :=
      [call "updateFile" [("filename", .text "src/a.js"), ("code", .text "1")],
        call "moveFile" [("filename", .text "a.js"), ("targetFolderName", .text "src")],
        call "renameFile" [("oldName", .text "a.js"), ("newName", .text "c.js")],
        call "deleteFile" [("filename", .text "a.js")],
        call "moveFile" [("filename", .text "b.js"), ("targetFolderName", .text "src")],
        call "connectFiles" [("sourceFilename", .text "a.js"), ("targetFilename", .text "src")],
        call "deleteFile" [("filename", .text "b.js")]]
    let setting : BatchSetting := { permits := fun g id => g.permits (some "ada") id }
    let after := (runBatch setting g {} calls).graph
    (∃ contextIds, after.node? "a" = some { locked with contextIds }) ∧
      after.folderEdges "a" = [filed "x" "a"] ∧
      after.nodes.map (·.title) = ["a.js", "lib", "src"].map Text.ofString := by
  intro code locked filed g call calls setting after
  have hfresh : IdSource.FreshFor {} g :=
    .of_not_endsInDigit {} (by decide +kernel) (by decide +kernel)
  have hlocked : locked ∈ g.nodes := by
    simp [g, Graph.build, Graph.addNode, Graph.placeNode, locked, code]
  have hedges : g.folderEdges "a" = [filed "x" "a"] := by decide +kernel
  have hpermits : setting.permits = fun g id => g.permits (some "ada") id := rfl
  obtain ⟨hnode, hafter⟩ := node?_runBatch_of_locked (Graph.sound_build _ _) hfresh
    (by decide +kernel) (by decide +kernel) hpermits hlocked rfl rfl calls
  exact ⟨hnode, hafter.trans hedges, by decide +kernel⟩

end LiveCanvas
