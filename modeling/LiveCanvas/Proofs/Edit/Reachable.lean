import LiveCanvas.Proofs.Canvas.Closure
import LiveCanvas.Proofs.Edit.Typed

/-!
# A written file stays reachable

A write that makes a file or moves it into a folder lets the anchor import the file or the folder.
The anchor imports a folder that fed it before already, and then nothing is wired; so it matters
that such a connection is an import, which it is if it fits the anchor, and that it is not taken
away when the file is taken out of where it was, which it is not if the ids of connections name
nothing else.
-/

namespace LiveCanvas

namespace Graph

/-- A connection leads from one node to this input of another. -/
def Wired (g : Graph) (source target : NodeId) (role : Role) : Prop :=
  ∃ e ∈ g.connections, e.source = source ∧ e.target = target ∧
    e.targetPort = Port.inputId target role

variable {g : Graph} {root n folder : Node}

theorem mem_closure_of_wired_imports (hnodup : (idsOf g.nodes).Nodup) (hn : n ∈ g.nodes)
    (hkind : n.kind ≠ .folder) (hne : n.id ≠ root.id) (h : g.Wired n.id root.id Role.imports) :
    n ∈ Traversal.closure root g.nodes g.connections := by
  obtain ⟨e, he, hfrom, hto, hport⟩ := h
  refine Traversal.mem_closure_of_mem_dependencies hnodup ?_ hne
  exact Traversal.mem_dependencies_of_import hnodup hn hkind he hfrom hto
    (hport ▸ Port.matchesRole_imports root.id)

theorem mem_closure_of_wired_folder (hnodup : (idsOf g.nodes).Nodup) (hn : n ∈ g.nodes)
    (hne : n.id ≠ root.id) (hfolder : folder ∈ g.nodes) (hkind : folder.kind = .folder)
    (hfiles : g.Wired n.id folder.id Role.files)
    (himports : g.Wired folder.id root.id Role.imports) :
    n ∈ Traversal.closure root g.nodes g.connections := by
  obtain ⟨e, he, hfrom, hto, hport⟩ := hfiles
  obtain ⟨e', he', hfrom', hto', hport'⟩ := himports
  refine Traversal.mem_closure_of_mem_dependencies hnodup ?_ hne
  exact Traversal.mem_dependencies_of_folder hnodup hn he hfrom
    (hport ▸ Port.matchesRole_files folder.id) hfolder hkind hto he' hfrom' hto'
    (hport' ▸ Port.matchesRole_imports root.id)

end Graph

namespace Batch

variable {b : Batch} {c : BatchContext} {anchor n folder : Node}

/-- The batch was asked from a code file. -/
structure Anchored (c : BatchContext) (anchor : Node) (b : Batch) : Prop where
  tidy : b.Tidy
  asked : c.anchor = some anchor.id
  mem : anchor ∈ b.graph.nodes
  code : anchor.kind = .code

/-- The batch has not wired anything yet, the ids of its connections name nothing else, and what
leads to the anchor are imports. -/
structure Unwired (c : BatchContext) (anchor : Node) (b : Batch) : Prop
    extends Anchored c anchor b where
  connections : b.graph.connections = c.before
  names : NamedOnce c.before
  imports : ∀ e ∈ c.before, e.target = anchor.id →
    e.targetPort = Port.inputId anchor.id Role.imports

theorem unwired_start {setting : BatchSetting} {g : Graph} {ids : IdSource}
    (htidy : (start g ids).Tidy) (haccepts : ∀ e ∈ g.connections, g.Accepts e)
    (hnames : NamedOnce g.connections) (hanchor : anchor ∈ g.nodes) (hcode : anchor.kind = .code)
    (hasked : setting.anchor = some anchor.id) :
    Unwired (setting.context g) anchor (start g ids) where
  tidy := htidy
  asked := hasked
  mem := hanchor
  code := hcode
  connections := rfl
  names := hnames
  imports := by
    intro e he hto
    obtain ⟨source, -, target, htarget, -, hid, henters⟩ := haccepts e he
    rw [eq_of_mem_of_id_eq htidy.nodup htarget hanchor (hid.trans hto), hcode,
      Connection.entersInput_code_iff, hto] at henters
    exact henters.1

/-- Nothing is wired as long as the connections and the anchor stay. -/
theorem Unwired.of_kept (h : Unwired c anchor b) {b' : Batch} (htidy : b'.Tidy)
    (hmem : anchor ∈ b'.graph.nodes) (hsame : b'.graph.connections = b.graph.connections) :
    Unwired c anchor b' :=
  { h with tidy := htidy, mem := hmem, connections := hsame.trans h.connections }

/-! ## Wires that are there -/

/-- Wiring takes nothing away. -/
theorem wired_wire_of_wired {x y : NodeId} {input : Role} (h : b.graph.Wired x y input)
    (source target : Node) (role : Role) :
    (b.wire source target role).2.graph.Wired x y input := by
  obtain ⟨e, he, hends⟩ := h
  refine ⟨e, ?_, hends⟩
  obtain hsame | ⟨edge, hmore, -⟩ := connections_wire_cases b source target role
  · exact hsame ▸ he
  · exact hmore ▸ List.mem_append_left _ he

/-- The anchor is found while it is a node of the batch. -/
theorem Anchored.codeAnchor? (h : Anchored c anchor b) : b.codeAnchor? c = some anchor := by
  have hfind : b.graph.nodes.find? (fun n => n.id == anchor.id) = some anchor :=
    Graph.node?_of_mem h.tidy.nodup h.mem
  rw [Batch.codeAnchor?, anchor?, h.asked, Option.bind_some, h.tidy.nodes_eq, hfind,
    Option.filter_some, h.code]
  rfl

theorem wired_feedAnchor (h : Anchored c anchor b) (hn : n ∈ b.graph.nodes)
    (hkind : n.kind = .code) :
    (b.feedAnchor c n).graph.Wired n.id anchor.id Role.imports := by
  rw [feedAnchor, h.codeAnchor?]
  exact exists_edge_wire (Node.outputPort?_of_code hkind) (mem_idsOf_of_mem hn)
    (mem_idsOf_of_mem h.mem) (Port.not_isSingularInput_imports anchor.id)

/-- The anchor imports the folder afterwards, also if a connection from before is taken for it. -/
theorem wired_linkAnchor (h : Anchored c anchor b) (hne : anchor.id ≠ n.id)
    (hfolder : folder.id ∈ idsOf b.graph.nodes) (hkind : folder.kind = .folder)
    (hold : ∀ e ∈ c.before, e.source = folder.id → e.target = anchor.id →
      b.graph.Wired folder.id anchor.id Role.imports) :
    (b.linkAnchor c n folder).graph.Wired folder.id anchor.id Role.imports := by
  have hother : (some anchor).filter (·.id != n.id) = some anchor := by
    rw [Option.filter_some, if_pos (bne_iff_ne.2 hne)]
  rw [linkAnchor, h.codeAnchor?, hother]
  simp only
  split
  · next hlinked =>
      obtain ⟨e, he, hends⟩ := List.any_eq_true.1 hlinked
      rw [Bool.and_eq_true, beq_iff_eq, beq_iff_eq] at hends
      exact hold e he hends.1 hends.2
  · obtain ⟨port, hport⟩ : ∃ port, folder.outputPort? = some port := by
      rw [Node.outputPort?, hkind]
      exact ⟨_, rfl⟩
    exact exists_edge_wire hport hfolder (mem_idsOf_of_mem h.mem)
      (Port.not_isSingularInput_imports anchor.id)

theorem wired_linkAnchor_of_wired {x y : NodeId} {input : Role} (h : b.graph.Wired x y input)
    (c : BatchContext) (file folder : Node) :
    (b.linkAnchor c file folder).graph.Wired x y input := by
  unfold linkAnchor
  split
  · split
    · exact h
    · exact wired_wire_of_wired h _ _ _
  · exact h

/-- Taking one node out of where it was leaves the connections of others. -/
theorem mem_detach_of_ne (hnames : NamedOnce c.before) {e : Connection} {id : NodeId}
    (hold : e ∈ c.before) (he : e ∈ b.graph.connections) (hne : e.source ≠ id) :
    e ∈ (b.detach c id).graph.connections := by
  refine mem_connections_detach.2 ⟨he, fun edge hedge => ?_⟩
  obtain ⟨hedge, hsource, -⟩ := mem_structural.1 hedge
  by_contra hnamed
  rw [Bool.not_eq_false] at hnamed
  exact hne (hnames.eq_of_isNamed hedge hold hnamed ▸ hsource)

/-! ## Filing -/

/-- A file that is put into a folder lies there afterwards, and the anchor imports the folder. -/
theorem exists_folder_file (h : Unwired c anchor b) (hne : anchor.id ≠ n.id)
    (hn : Known n.id n.kind b) (hlive : n.id ∈ idsOf b.graph.nodes) (hfile : n.isFile = true)
    (title : Text) :
    let after := (b.file c n title).graph
    (∃ added, after.nodes = b.graph.nodes ++ added) ∧
    ∃ folder ∈ after.nodes, folder.kind = .folder ∧ after.Wired n.id folder.id Role.files ∧
      after.Wired folder.id anchor.id Role.imports := by
  let position := b.nearAnchor c c.placement.folderOffset
  let folder := (b.ensureFolder title position).1
  let made := (b.ensureFolder title position).2
  let put := (made.putInto c n folder).noteChange (.wired n.title folder.title) n.id
  intro after
  have hmade : made.Tidy := keeps_tidy.ensureFolder h.tidy title position
  have hput : put.Tidy := keeps_tidy.noteChange (keeps_tidy.putInto hmade c n folder) _ _
  obtain ⟨added, hadded, -⟩ := nodes_ensureFolder h.tidy title position
  have hputNodes : put.graph.nodes = made.graph.nodes := by
    show ((made.detach c n.id).wire n folder Role.files).2.graph.nodes = _
    rw [nodes_wire, nodes_detach]
  have hafter : after.nodes = made.graph.nodes := (nodes_linkAnchor put c n folder).trans hputNodes
  obtain ⟨hfolder, hkind⟩ := mem_nodes_ensureFolder b title position
  rw [hmade.nodes_eq] at hfolder
  have hanchor : Anchored c anchor put :=
    ⟨hput, h.asked, hputNodes ▸ hadded ▸ List.mem_append_left _ h.mem, h.code⟩
  have hliveMade : n.id ∈ idsOf made.graph.nodes := by
    rw [hadded, idsOf_append]
    exact List.mem_append_left _ hlive
  have hfiles : put.graph.Wired n.id folder.id Role.files := by
    refine exists_edge_wire (b := made.detach c n.id) (Node.outputPort?_of_isFile hfile) ?_ ?_
      (Port.not_isSingularInput_files folder.id)
    · rw [nodes_detach]
      exact hliveMade
    · rw [nodes_detach]
      exact mem_idsOf_of_mem hfolder
  have hfolderNe : folder.id ≠ n.id := by
    intro hid
    have hsame := ((keeps_known n.id n.kind).ensureFolder hn title position).kind folder hfolder hid
    rw [Node.isFile, ← hsame, hkind] at hfile
    cases hfile
  refine ⟨⟨added, hafter.trans hadded⟩, folder, hafter ▸ hfolder, hkind,
    wired_linkAnchor_of_wired hfiles c n folder, ?_⟩
  refine wired_linkAnchor hanchor hne (hputNodes ▸ mem_idsOf_of_mem hfolder) hkind
    fun e he hfrom hto => ?_
  have hkept : (made.detach c n.id).graph.Wired folder.id anchor.id Role.imports := by
    refine ⟨e, mem_detach_of_ne h.names he ?_ (hfrom ▸ hfolderNe), hfrom, hto, h.imports e he hto⟩
    rw [connections_ensureFolder, h.connections]
    exact he
  exact wired_wire_of_wired hkept n folder Role.files

/-- A file that is put into a folder is among what the anchor depends on. -/
theorem mem_closure_file (h : Unwired c anchor b) {m : Node} (hm : m ∈ b.graph.nodes)
    (hid : m.id = n.id) (hkind : m.kind = n.kind) (hne : anchor.id ≠ n.id)
    (hfile : n.isFile = true) (title : Text) :
    let after := (b.file c n title).graph
    m ∈ Traversal.closure anchor after.nodes after.connections := by
  intro after
  have hafter : (b.file c n title).Tidy := keeps_tidy.file h.tidy c n title
  have hknown : Known n.id n.kind b := hid ▸ hkind ▸ known_of_mem h.tidy hm
  obtain ⟨⟨added, hadded⟩, folder, hfolder, hisFolder, hfiles, himports⟩ :=
    exists_folder_file h hne hknown (hid ▸ mem_idsOf_of_mem hm) hfile title
  rw [← hid] at hfiles hne
  exact Graph.mem_closure_of_wired_folder hafter.nodup (hadded ▸ List.mem_append_left _ hm)
    hne.symm hfolder hisFolder hfiles himports

/-! ## What a write comes to -/

theorem exists_mem_closure_create (h : Unwired c anchor b) (title content : Text)
    (folder : Option Text) :
    let after := (b.perform c (.create title content folder)).graph
    ∃ n ∈ Traversal.closure anchor after.nodes after.connections,
      n.id ∉ idsOf b.graph.nodes ∧ n.kind = .code ∧ n.title = title ∧ n.content = content := by
  let request : NodeRequest := { kind := .code, title := some title, content := some content,
                                 position := b.nearAnchor c c.placement.fileOffset }
  let n := (b.add request).1
  let made := (b.add request).2.noteChange (.created title) n.id
  have hnodes : made.graph.nodes = b.graph.nodes ++ [n] := h.tidy.nodes_add request rfl
  have hnew : n.id ∉ idsOf b.graph.nodes := h.tidy.id_add_notMem request rfl
  have hmade : Unwired c anchor made :=
    h.of_kept (keeps_tidy.noteChange (h.tidy.add request rfl) _ _)
      (hnodes ▸ List.mem_append_left _ h.mem) rfl
  have hn : n ∈ made.graph.nodes := hnodes ▸ List.mem_append_right _ (List.mem_singleton_self n)
  have hne : anchor.id ≠ n.id := fun hid => hnew (hid ▸ mem_idsOf_of_mem h.mem)
  refine ⟨n, ?_, hnew, rfl, rfl, rfl⟩
  cases folder with
  | some folder => exact mem_closure_file hmade hn rfl rfl hne rfl folder
  | none =>
      have hfed : (made.feedAnchor c n).Tidy := keeps_tidy.feedAnchor hmade.tidy c n
      have hkind : n.kind ≠ .folder := fun hkind => nomatch hkind
      exact Graph.mem_closure_of_wired_imports hfed.nodup (nodes_feedAnchor made c n ▸ hn) hkind
        hne.symm (wired_feedAnchor hmade.toAnchored hn rfl)

theorem exists_mem_closure_overwrite (h : Unwired c anchor b) (hn : n ∈ b.graph.nodes)
    (hne : n.id ≠ anchor.id) (hfile : n.isFile = true) (content folder : Text) :
    let after := (b.perform c (.overwrite n content (some folder))).graph
    ∃ m ∈ Traversal.closure anchor after.nodes after.connections,
      m.id = n.id ∧ m.content = content := by
  let written := (b.onGraph fun g => g.setContent n.id content).noteChange (.updated n.title) n.id
  have hnames := Node.keepsNames_putContent n.id content
  have hnodes : written.graph.nodes = b.graph.nodes.map (Node.putContent n.id content) := rfl
  have hanchor : anchor ∈ written.graph.nodes := by
    rw [hnodes]
    exact List.mem_map.2 ⟨anchor, h.mem, Node.putContent_of_ne hne.symm content⟩
  have hwritten : Unwired c anchor written :=
    h.of_kept (keeps_tidy.noteChange (keeps_tidy.setContent b n.id content h.tidy) _ _) hanchor rfl
  have hm : n.putContent n.id content ∈ written.graph.nodes := hnodes ▸ List.mem_map_of_mem hn
  exact ⟨n.putContent n.id content,
    mem_closure_file hwritten hm (hnames.id n) (hnames.kind n) hne.symm hfile folder,
    hnames.id n, n.content_putContent_self content⟩

end Batch

/-- A write that makes a file, or moves one other than the anchor into a folder, leaves the file
among what the anchor depends on.  Every connection before it has to fit the input it enters, and
the ids of connections have to name one connection each and no port. -/
theorem mem_closure_runBatch_updateFile {setting : BatchSetting} {g : Graph} {ids : IdSource}
    {anchor : Node} {call : Value} {path content : Text} (hnodup : (idsOf g.nodes).Nodup)
    (hfresh : ids.FreshFor g) (haccepts : ∀ e ∈ g.connections, g.Accepts e)
    (hids : (g.connections.map (·.id)).Nodup)
    (hports : ∀ e ∈ g.connections, ∀ e' ∈ g.connections,
      e.id ≠ e'.sourcePort ∧ e.id ≠ e'.targetPort)
    (hanchor : anchor ∈ g.nodes) (hcode : anchor.kind = .code)
    (hasked : setting.anchor = some anchor.id)
    (hcall : Command.ofCall call = .ok (.updateFile path content)) :
    let after := (runBatch setting g ids [call]).graph
    (Path.target? path g.nodes g.connections = none →
      ∃ n ∈ Traversal.closure anchor after.nodes after.connections, n.id ∉ idsOf g.nodes ∧
        n.kind = .code ∧ n.title = (Path.split path).1 ∧ n.content = content) ∧
    ∀ id folder, Path.move? path g.nodes g.connections = some (id, folder) → id ≠ anchor.id →
      setting.permits g id = true →
        ∃ n ∈ Traversal.closure anchor after.nodes after.connections,
          n.id = id ∧ n.content = content := by
  let b := Batch.start g ids
  let c := setting.context g
  have htidy : b.Tidy := Batch.tidy_start hnodup hfresh
  have hunwired : Batch.Unwired c anchor b :=
    Batch.unwired_start htidy haccepts ⟨hids, hports⟩ hanchor hcode hasked
  have hrun : ∀ {action}, b.decideUpdate c path content = .ok action →
      runBatch setting g ids [call] = b.perform c action :=
    fun hdecide => runBatch_singleton hcall hdecide
  constructor
  · intro htarget
    rw [hrun (Batch.decideUpdate_of_none htidy content htarget)]
    exact Batch.exists_mem_closure_create hunwired _ content _
  · intro id folder hmove hne hpermits
    obtain ⟨hfolder, n, htarget, rfl, hbelow⟩ := Path.move?_eq_some hmove
    have hn := Path.mem_of_target? htarget
    have hfile : n.isFile = true := Graph.isFile_of_target? haccepts
      (fun m hm hid => by rw [eq_of_mem_of_id_eq hnodup hm hn hid]) htarget hfolder hbelow
    rw [hrun (Batch.decideUpdate_of_move? htidy content htarget hmove hpermits)]
    exact Batch.exists_mem_closure_overwrite hunwired hn hne hfile content folder

/-- The anchor imports a folder and a file.  A file is made in the folder, and the other one is
moved there. -/
theorem mem_closure_runBatch_updateFile_linked_folder :
    let anchor : Node := { id := "m", kind := .code, title := "main.js" }
    let g : Graph := {
      nodes := [anchor, { id := "a", kind := .code, title := "a.js" },
        { id := "f", kind := .folder, title := "lib" }]
      connections := [⟨"x", "a", "a-out-dom", "m", "m-in-imports"⟩,
        ⟨"y", "f", "f-out-folder", "m", "m-in-imports"⟩] }
    let write (path : Text) : Value := .object [("name", .text "updateFile"),
      ("args", .object [("filename", .text path), ("code", .text "1")])]
    let after (path : Text) := (runBatch { anchor := some (.ofString "m") } g {} [write path]).graph
    (idsOf g.nodes).Nodup ∧ IdSource.FreshFor {} g ∧ (∀ e ∈ g.connections, g.Accepts e) ∧
      (g.connections.map (·.id)).Nodup ∧
      (after "lib/a.js").connections.map (·.source) = ["f", "a"].map Text.ofString ∧
      (∃ n ∈ Traversal.closure anchor (after "lib/a.js").nodes (after "lib/a.js").connections,
        n.id = "a" ∧ n.content = "1") ∧
      ∃ n ∈ Traversal.closure anchor (after "lib/b.js").nodes (after "lib/b.js").connections,
        n.title = "b.js" ∧ n.content = "1" := by
  intro anchor g write after
  have hnodup : (idsOf g.nodes).Nodup := by decide +kernel
  have hfresh : IdSource.FreshFor {} g :=
    .of_not_endsInDigit {} (by decide +kernel) (by decide +kernel)
  have haccepts : ∀ e ∈ g.connections, g.Accepts e := by decide +kernel
  have hids : (g.connections.map (·.id)).Nodup := by decide +kernel
  have hasked : BatchSetting.anchor { anchor := some "m" } = some anchor.id := rfl
  have hwritten (path : Text)
      (hcall : Command.ofCall (write path) = .ok (.updateFile path "1")) :=
    mem_closure_runBatch_updateFile hnodup hfresh haccepts hids (by decide +kernel)
      List.mem_cons_self rfl hasked hcall
  have hmove : Path.move? "lib/a.js" g.nodes g.connections =
      some (.ofString "a", .ofString "lib") := by decide +kernel
  have hmade : Path.target? "lib/b.js" g.nodes g.connections = none := by
    rw [← Option.isNone_iff_eq_none]
    decide +kernel
  refine ⟨hnodup, hfresh, haccepts, hids, by decide +kernel, ?_, ?_⟩
  · exact (hwritten "lib/a.js" rfl).2 "a" "lib" hmove (by decide) rfl
  · obtain ⟨n, hn, -, -, htitle, hcontent⟩ := (hwritten "lib/b.js" rfl).1 hmade
    exact ⟨n, hn, htitle.trans (by decide +kernel), hcontent⟩

end LiveCanvas
