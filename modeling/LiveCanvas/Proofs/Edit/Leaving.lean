import LiveCanvas.Proofs.Canvas.GraphRoundTrip
import LiveCanvas.Proofs.Edit.Placement

/-!
# What a file leaves when it is put somewhere

A call that puts a file somewhere takes it out of the folders and code files into which it led
before.  It does so by the ids of these connections, and an id takes away whatever it names: another
connection with the same id, or one that has the id as a port.  Everything else stays in its order,
and what is new goes to the end.
-/

namespace LiveCanvas

namespace Graph

variable {g g' : Graph}

/-- The connection leads into a folder or into a code file. -/
def leadsIntoPlace (g : Graph) (e : Connection) : Bool :=
  (nodeWithId? g.nodes e.target).any fun n => n.kind == .folder || n.kind == .code

/-- The connections from a node into folders and code files, in order. -/
def placeEdges (g : Graph) (id : NodeId) : List Connection :=
  g.connections.filter fun e => e.source == id && g.leadsIntoPlace e

/-- The connections out of which a placement takes its file. -/
def leftBy (g : Graph) : Option (NodeId × Option NodeId) → List Connection
  | some (id, _) => g.placeEdges id
  | none => []

/-- A connection of the smaller graph leads into a place of the larger one just if it did so. -/
theorem GrowsTo.leadsIntoPlace (h : g.GrowsTo g') {e : Connection}
    (he : e.target ∈ idsOf g.nodes) : g'.leadsIntoPlace e = g.leadsIntoPlace e :=
  h.any_kind_eq he fun kind => kind == .folder || kind == .code

end Graph

namespace Batch

variable {b b₁ b' : Batch} {c : BatchContext} {placement : Option (NodeId × Option NodeId)}

/-! ## Adding connections -/

/-- Connections are added at the end, with ids that were still to come. -/
structure AddsTo (b b' : Batch) : Prop where
  next_le : b.ids.next ≤ b'.ids.next
  connections : ∃ added, b'.graph.connections = b.graph.connections ++ added ∧
    ∀ e ∈ added, ∃ number, b.ids.next ≤ number ∧ e.id = IdSource.name Connection.idStem number

namespace AddsTo

theorem of_eq (hnext : b.ids.next ≤ b'.ids.next)
    (h : b'.graph.connections = b.graph.connections) : b.AddsTo b' :=
  ⟨hnext, [], by rw [h, List.append_nil], by simp⟩

theorem trans (h : b.AddsTo b₁) (h' : b₁.AddsTo b') : b.AddsTo b' := by
  obtain ⟨added, hadded, hnew⟩ := h.connections
  obtain ⟨added', hadded', hnew'⟩ := h'.connections
  refine ⟨h.next_le.trans h'.next_le, added ++ added', ?_, fun e he => ?_⟩
  · rw [hadded', hadded, List.append_assoc]
  · obtain he | he := List.mem_append.1 he
    · exact hnew e he
    · obtain ⟨number, hnumber, hid⟩ := hnew' e he
      exact ⟨number, h.next_le.trans hnumber, hid⟩

end AddsTo

theorem addsTo_wire (b : Batch) (source target : Node) (role : Role) :
    b.AddsTo (b.wire source target role).2 := by
  refine ⟨next_le_wire b source target role, ?_⟩
  obtain hsame | ⟨edge, hmore, -, -, -, hmade⟩ := connections_wire_cases b source target role
  · exact ⟨[], by rw [hsame, List.append_nil], by simp⟩
  · refine ⟨[edge], hmore, fun e he => ?_⟩
    rw [List.mem_singleton.1 he]
    exact hmade.id

theorem addsTo_ensureFolder (b : Batch) (title : Text) (position : Position) :
    b.AddsTo (b.ensureFolder title position).2 := by
  refine .of_eq ?_ (connections_ensureFolder b title position)
  unfold ensureFolder
  split
  · exact Nat.le_refl _
  · let request : NodeRequest := { kind := .folder, title := some title, position }
    have hid : request.id = none := rfl
    exact (Nat.le_succ _).trans_eq (next_add b hid).symm

theorem addsTo_linkAnchor (b : Batch) (c : BatchContext) (file folder : Node) :
    b.AddsTo (b.linkAnchor c file folder) := by
  unfold linkAnchor
  split
  · split
    · exact .of_eq (Nat.le_refl _) rfl
    · exact addsTo_wire b folder _ Role.imports
  · exact .of_eq (Nat.le_refl _) rfl

theorem addsTo_feedAnchor (b : Batch) (c : BatchContext) (n : Node) :
    b.AddsTo (b.feedAnchor c n) := by
  unfold feedAnchor
  split
  · exact addsTo_wire b n _ Role.imports
  · exact .of_eq (Nat.le_refl _) rfl

/-! ## Leaving -/

/-- What an action does to connections: with no file to place it adds some, else it takes the file
out of where it is before it adds any. -/
inductive Leaves (c : BatchContext) : Option (NodeId × Option NodeId) → Batch → Batch → Prop
  | nothing {b b' : Batch} (adds : b.AddsTo b') : Leaves c none b b'
  | place {b first b' : Batch} {id : NodeId} {folder : Option NodeId} (tidy : first.Tidy)
      (next_le : b.ids.next ≤ first.ids.next)
      (same : first.graph.connections = b.graph.connections)
      (grows : b.graph.GrowsTo first.graph) (adds : (first.detach c id).AddsTo b') :
      Leaves c (some (id, folder)) b b'

theorem Leaves.after (h : Leaves c placement b₁ b') (hnext : b.ids.next ≤ b₁.ids.next)
    (hsame : b₁.graph.connections = b.graph.connections) (hgrows : b.graph.GrowsTo b₁.graph) :
    Leaves c placement b b' := by
  cases h with
  | nothing adds => exact .nothing ((AddsTo.of_eq hnext hsame).trans adds)
  | place tidy next_le same grows adds =>
      exact .place tidy (hnext.trans next_le) (same.trans hsame) (hgrows.trans grows) adds

theorem leaves_file (ht : b.Tidy) (c : BatchContext) (n : Node) (title : Text)
    (folder : Option NodeId) : Leaves c (some (n.id, folder)) b (b.file c n title) := by
  let position := b.nearAnchor c c.placement.folderOffset
  let made := b.ensureFolder title position
  have hput : (made.2.detach c n.id).AddsTo (made.2.putInto c n made.1) :=
    addsTo_wire _ n made.1 Role.files
  have hnoted : (made.2.putInto c n made.1).AddsTo
      ((made.2.putInto c n made.1).noteChange (.wired n.title made.1.title) n.id) :=
    .of_eq (Nat.le_refl _) rfl
  exact .place (keeps_tidy.ensureFolder ht title position)
    (addsTo_ensureFolder b title position).next_le (connections_ensureFolder b title position)
    (growsTo_ensureFolder ht title position)
    ((hput.trans hnoted).trans (addsTo_linkAnchor _ c n made.1))

theorem leaves_move (ht : b.Tidy) (c : BatchContext) (n : Node) (folder : Option Text) :
    Leaves c (b.placement? (.move n folder)) b (b.perform c (.move n folder)) := by
  refine .place ht (Nat.le_refl _) rfl (.refl _) ?_
  cases folder with
  | none => exact .of_eq (Nat.le_refl _) rfl
  | some title =>
      let offset := c.placement.moveFolderOffset
      have hmade := addsTo_ensureFolder (b.detach c n.id) title
        (n.position.offset offset.x offset.y)
      exact (hmade.trans (addsTo_wire _ n _ Role.files)).trans (.of_eq (Nat.le_refl _) rfl)

theorem leaves_create (ht : b.Tidy) (c : BatchContext) (title content : Text)
    (folder : Option Text) :
    Leaves c (b.placement? (.create title content folder)) b
      (b.perform c (.create title content folder)) := by
  let request : NodeRequest := { kind := .code, title := some title, content := some content,
                                 position := b.nearAnchor c c.placement.fileOffset }
  let made := (b.add request).2.noteChange (.created title) (b.add request).1.id
  have hid : request.id = none := rfl
  have hnext : b.ids.next ≤ made.ids.next := (Nat.le_succ _).trans_eq (next_add b hid).symm
  cases folder with
  | none => exact .nothing ((AddsTo.of_eq hnext rfl).trans (addsTo_feedAnchor made c _))
  | some folder =>
      have htidy : made.Tidy := keeps_tidy.noteChange (ht.add request rfl) _ _
      have hfiled := leaves_file htidy c (b.add request).1 folder
        (some ({ b with ids := (b.ids.fresh Kind.code.idStem).2 }.folderFor folder))
      rw [show (b.add request).1.id = (b.ids.fresh Kind.code.idStem).1 from (id_create hid b.ids).1]
        at hfiled
      exact hfiled.after hnext rfl (growsTo_add ht request rfl)

theorem leaves_overwrite (ht : b.Tidy) (c : BatchContext) (n : Node) (content : Text)
    (folder : Option Text) :
    Leaves c (b.placement? (.overwrite n content folder)) b
      (b.perform c (.overwrite n content folder)) := by
  let written := (b.onGraph fun g => g.setContent n.id content).noteChange (.updated n.title) n.id
  cases folder with
  | none => exact .nothing (.of_eq (Nat.le_refl _) rfl)
  | some title =>
      have htidy : written.Tidy :=
        keeps_tidy.noteChange (keeps_tidy.setContent b n.id content ht) _ _
      have hgrows : b.graph.GrowsTo written.graph :=
        .of_nodes_eq_map (Node.keepsNames_putContent n.id content) rfl
      have hfiled := leaves_file htidy c n title (some (b.folderFor title))
      exact hfiled.after (Nat.le_refl _) rfl hgrows

/-- Every action but a deletion places its file in this way. -/
theorem leaves_perform (ht : b.Tidy) (c : BatchContext) {action : Action}
    (h : ∀ n title, action ≠ .delete n title) :
    Leaves c (b.placement? action) b (b.perform c action) := by
  cases action with
  | overwrite n content folder => exact leaves_overwrite ht c n content folder
  | create title content folder => exact leaves_create ht c title content folder
  | move n folder => exact leaves_move ht c n folder
  | rename n oldTitle newTitle => exact .nothing (.of_eq (Nat.le_refl _) rfl)
  | delete n title => exact absurd rfl (h n title)
  | place source folder =>
      refine .place ht (Nat.le_refl _) rfl (.refl _) ?_
      exact (addsTo_wire _ source folder Role.files).trans (.of_eq (Nat.le_refl _) rfl)
  | importInto source target =>
      have hwired := addsTo_wire b source target Role.imports
      refine .nothing ?_
      simp only [perform]
      split
      · exact hwired.trans (.of_eq (Nat.le_refl _) rfl)
      · exact hwired.trans (.of_eq (Nat.le_refl _) rfl)

/-! ## What is taken away -/

theorem isStructural_eq (ht : b.Tidy) (e : Connection) :
    b.isStructural e = b.graph.leadsIntoPlace e := by
  rw [isStructural, kindOf?, ht.nodes_eq, Graph.leadsIntoPlace]
  cases nodeWithId? b.graph.nodes e.target with
  | none => rfl
  | some n => rfl

/-- A batch takes a file out of where it was in the graph with which the batch started. -/
theorem structural_eq {g : Graph} (ht : b.Tidy) (hgrows : g.GrowsTo b.graph)
    (hlive : ∀ e ∈ g.connections, e.target ∈ idsOf g.nodes) (hbefore : c.before = g.connections)
    (id : NodeId) : b.structural c id = g.placeEdges id := by
  rw [structural, hbefore]
  apply List.filter_congr
  intro e he
  rw [isStructural_eq ht, hgrows.leadsIntoPlace (hlive e he)]

/-- Of the connections from before, those stay that no connection left by the file names. -/
theorem Leaves.connections (h : Leaves c placement b b') (hsound : b.graph.Sound)
    (hbefore : c.before = b.graph.connections) :
    ∃ added, b'.graph.connections =
        (b.graph.connections.filter fun e =>
          (b.graph.leftBy placement).all fun edge => !e.isNamed edge.id) ++ added ∧
      ∀ e ∈ added, ∃ number, b.ids.next ≤ number ∧
        e.id = IdSource.name Connection.idStem number := by
  cases h with
  | nothing adds =>
      obtain ⟨added, hadded, hnew⟩ := adds.connections
      exact ⟨added, by simpa [Graph.leftBy] using hadded, hnew⟩
  | @place _ first _ id folder tidy next_le same grows adds =>
      obtain ⟨added, hadded, hnew⟩ := adds.connections
      have hleft : first.structural c id = b.graph.placeEdges id :=
        structural_eq tidy grows (fun e he => (hsound.ends_live e he).2) hbefore id
      have hdetach : (first.detach c id).graph.connections = b.graph.connections.filter fun e =>
          (b.graph.placeEdges id).all fun edge => !e.isNamed edge.id := by
        rw [connections_detach, same, hleft]
      refine ⟨added, by rw [hadded, hdetach]; rfl, fun e he => ?_⟩
      obtain ⟨number, hnumber, hid⟩ := hnew e he
      exact ⟨number, next_le.trans hnumber, hid⟩

/-- Only a command for it comes to a deletion. -/
theorem eq_deleteFile_of_decide (ht : b.Tidy) {command : Command} {n : Node} {title : Text}
    (h : b.decide c command = .ok (.delete n title)) : command = .deleteFile title := by
  cases comesTo_of_decide ht h with
  | delete => rfl

theorem leaves_applyCall (ht : b.Tidy) (c : BatchContext) {call : Value}
    (hcall : ∀ title, Command.ofCall call ≠ .ok (.deleteFile title)) :
    Leaves c (b.placementOf? c call) b (b.applyCall c call) := by
  cases hrefusal : b.refusal? c call with
  | some refusal =>
      rw [applyCall_of_refused hrefusal, placementOf?_of_refused hrefusal]
      exact .nothing (.of_eq (Nat.le_refl _) rfl)
  | none =>
      obtain ⟨command, action, hcommand, hdecide, hperform⟩ := exists_applyCall_eq_perform hrefusal
      rw [hperform, placementOf?_of_decide hcommand hdecide]
      refine leaves_perform ht c ?_
      rintro n title rfl
      rw [eq_deleteFile_of_decide ht hdecide] at hcommand
      exact hcall title hcommand

end Batch

/-! ## One call on a loaded graph -/

/-- What a call other than a deletion takes away from a loaded graph.  A connection goes just if it
is named by the id of one that the placed file had into a folder or a code file; all others stay in
their order, before the new ones.  So nothing goes but such connections of that file exactly when
their ids name nothing else. -/
theorem connections_runBatch_singleton {v : Value} {g : Graph} (hload : Graph.ofValue v = .ok g)
    {ids : IdSource} (hfresh : ids.FreshFor g) (setting : BatchSetting) {call : Value}
    (hcall : ∀ title, Command.ofCall call ≠ .ok (.deleteFile title)) :
    let after := (runBatch setting g ids [call]).graph.connections
    let left := g.leftBy ((Batch.start g ids).placementOf? (setting.context g) call)
    (∃ added, after =
        (g.connections.filter fun e => left.all fun edge => !e.isNamed edge.id) ++ added ∧
      ∀ e ∈ added, e ∉ g.connections) ∧
    ((∀ e ∈ g.connections, e ∉ after → e ∈ left) ↔
      ∀ edge ∈ left, ∀ e ∈ g.connections, e.isNamed edge.id = true → e ∈ left) := by
  intro after left
  have hsound : g.Sound := Graph.sound_of_ofValue hload
  have hleaves := Batch.leaves_applyCall (Batch.tidy_start hsound.ids_nodup hfresh)
    (setting.context g) hcall
  obtain ⟨added, hadded, hids⟩ := hleaves.connections hsound rfl
  have hnew : ∀ e ∈ added, e ∉ g.connections := by
    intro e he hold
    obtain ⟨number, hnumber, hid⟩ := hids e he
    exact hfresh.connections Connection.idStem number hnumber e hold hid
  have hafter : after =
      (g.connections.filter fun e => left.all fun edge => !e.isNamed edge.id) ++ added := hadded
  have hgone : ∀ e ∈ g.connections, e ∉ after ↔ ∃ edge ∈ left, e.isNamed edge.id = true := by
    intro e he
    have hnot : e ∉ added := fun hmem => hnew e hmem he
    simp [hafter, he, hnot]
  refine ⟨⟨added, hafter, hnew⟩, ?_, ?_⟩
  · exact fun h edge hedge e he hnamed => h e he ((hgone e he).2 ⟨edge, hedge, hnamed⟩)
  · intro h e he hlost
    obtain ⟨edge, hedge, hnamed⟩ := (hgone e he).1 hlost
    exact h edge hedge e he hnamed

/-- A file that is put into a folder leaves the folder and the code file into which it led, and
stays in its preview. -/
theorem connections_runBatch_singleton_placed :
    let node (id : NodeId) (kind : Kind) (title : Text) : Node := { id, kind, title }
    let filing : Connection := ⟨"x", "a", "a-out-dom", "f", "f-in-files"⟩
    let shown : Connection := ⟨"y", "a", "a-out-dom", "p", "p-in-dom"⟩
    let imported : Connection := ⟨"z", "a", "a-out-dom", "b", "b-in-imports"⟩
    let stored := Graph.build [node "a" .code "a.js", node "b" .code "b.js", node "f" .folder "lib",
      node "p" .preview "Preview"] [filing, shown, imported]
    let g := stored.readBack
    let call : Value := .object [("name", .text "updateFile"),
      ("args", .object [("filename", .text "src/a.js"), ("code", .text "1")])]
    Graph.ofValue stored.toValue = .ok g ∧ IdSource.FreshFor {} g ∧
      (∀ title, Command.ofCall call ≠ .ok (.deleteFile title)) ∧
      g.leftBy ((Batch.start g {}).placementOf? (BatchSetting.context {} g) call) =
        [filing, imported] ∧
      ∀ e ∈ g.connections, e ∉ (runBatch {} g {} [call]).graph.connections →
        e ∈ [filing, imported] := by
  intro node filing shown imported stored g call
  have hload : Graph.ofValue stored.toValue = .ok g :=
    Graph.ofValue_toValue (by decide +kernel) (Graph.sound_build _ _) (by decide +kernel)
  have hfresh : IdSource.FreshFor {} g :=
    .of_not_endsInDigit {} (by decide +kernel) (by decide +kernel)
  have hcall : ∀ title, Command.ofCall call ≠ .ok (.deleteFile title) := by
    intro title h
    cases h
  have hleft : g.leftBy ((Batch.start g {}).placementOf? (BatchSetting.context {} g) call) =
      [filing, imported] := by decide +kernel
  have hgone := (connections_runBatch_singleton hload hfresh {} hcall).2
  rw [hleft] at hgone
  exact ⟨hload, hfresh, hcall, hleft, hgone.2 (by decide +kernel)⟩

/-- A stored graph may name two connections alike, or one after the port of another.  A move to the
root then takes a file out of its preview, or another file out of its folder. -/
theorem lost_of_shared_names :
    let node (id : NodeId) (kind : Kind) (title : Text) : Node := { id, kind, title }
    let stored := Graph.build [node "a" .code "a.js", node "b" .code "b.js", node "f" .folder "lib",
      node "p" .preview "Preview"]
    let filing (id : Text) : Connection := ⟨id, "a", "a-out-dom", "f", "f-in-files"⟩
    let shown : Connection := ⟨"x", "a", "a-out-dom", "p", "p-in-dom"⟩
    let other : Connection := ⟨"y", "b", "b-out-dom", "f", "f-in-files"⟩
    let call : Value := .object [("name", .text "moveFile"),
      ("args", .object [("filename", .text "a.js")])]
    (∃ g, Graph.ofValue (stored [filing "x", shown]).toValue = .ok g ∧
      shown ∈ g.connections ∧ shown ∉ (runBatch {} g {} [call]).graph.connections ∧
      g.leadsIntoPlace shown = false) ∧
    ∃ g, Graph.ofValue (stored [filing "b-out-dom", other]).toValue = .ok g ∧
      other ∈ g.connections ∧ other ∉ (runBatch {} g {} [call]).graph.connections ∧
      (Batch.start g {}).placementOf? (BatchSetting.context {} g) call =
        some (.ofString "a", none) ∧
      other.source ≠ "a" := by
  intro node stored filing shown other call
  constructor
  · refine ⟨(stored [filing "x", shown]).readBack, ?_, by decide +kernel⟩
    exact Graph.ofValue_toValue (by decide +kernel) (Graph.sound_build _ _) (by decide +kernel)
  · refine ⟨(stored [filing "b-out-dom", other]).readBack, ?_, by decide +kernel⟩
    exact Graph.ofValue_toValue (by decide +kernel) (Graph.sound_build _ _) (by decide +kernel)

end LiveCanvas
