import LiveCanvas.Proofs.Canvas.Typed
import LiveCanvas.Proofs.Edit.LiesIn
import LiveCanvas.Proofs.Edit.Refused

/-!
# A batch makes well-typed wires

A wire is made without a look at the kinds of its ends, so it is well-typed only because of what was
looked up before.  Commands look up files, folders and what can be imported by kind.  A write is the
exception: it takes whatever node its path leads to.  But it wires that node only if the path names
a folder in which the node does not lie, and no node but a file is then found: it is a code file
found by its bare name, or it lies in another folder, which takes files only.
-/

namespace LiveCanvas

/-! ## What lies in a folder -/

namespace Path

variable {nodes : List Node} {connections : List Connection} {path folder : Text} {n : Node}

theorem exists_edge_of_folderOf {f : Node} (h : folderOf n nodes connections = some f) :
    ∃ e ∈ connections, e.source = n.id ∧ Port.matchesRole e.targetPort Role.files = true := by
  obtain ⟨e, he, -⟩ := List.exists_of_findSome?_eq_some h
  obtain ⟨he, hfiles⟩ := List.mem_filter.1 he
  rw [Bool.and_eq_true, beq_iff_eq] at hfiles
  exact ⟨e, he, hfiles.1, hfiles.2⟩

/-- What a path leads to that names a folder in which it does not lie is a code file or lies in a
folder. -/
theorem code_or_folderOf_of_target? (h : target? path nodes connections = some n)
    (hfolder : (split path).2 = some folder)
    (hbelow : isBelow folder n nodes connections = false) :
    n.kind = .code ∨ ∃ f, folderOf n nodes connections = some f := by
  have hpath : path = folder ++ "/" ++ (split path).1 := (split_eq_some (Prod.ext rfl hfolder)).1
  have hne : pathOf n nodes connections ≠ path := by
    intro heq
    rw [isBelow_of_pathOf_eq (heq.trans hpath)] at hbelow
    cases hbelow
  obtain hfind | ⟨-, hfind⟩ | ⟨-, hfind⟩ := target?_cases h
  · right
    cases hnone : folderOf n nodes connections with
    | some f => exact ⟨f, rfl⟩
    | none =>
        rw [pathOf, hnone] at hne
        exact absurd (by simpa using List.find?_some hfind) hne
  · exact absurd (by simpa using List.find?_some hfind) hne
  · left
    have hfits := List.find?_some hfind
    simp only [Bool.and_eq_true, beq_iff_eq] at hfits
    exact hfits.2

end Path

namespace Graph

variable {g : Graph} {nodes : List Node} {connections : List Connection} {n : Node}

/-- A node that lies in a folder is a file, since folders take nothing else. -/
theorem isFile_of_folderOf (haccepts : ∀ e ∈ connections, g.Accepts e)
    (hkinds : ∀ m ∈ g.nodes, m.id = n.id → m.kind = n.kind) {f : Node}
    (h : Path.folderOf n nodes connections = some f) : n.isFile = true := by
  obtain ⟨e, he, hsource, hfiles⟩ := Path.exists_edge_of_folderOf h
  obtain ⟨source, hmem, target, -, hfrom, -, henters⟩ := haccepts e he
  rw [henters.eq_folder hfiles, Connection.entersInput_folder_iff] at henters
  rw [Node.isFile, ← hkinds source hmem (hfrom.trans hsource)]
  exact henters.2

/-- So what a path leads to is a file, if the path names a folder in which it does not lie. -/
theorem isFile_of_target? (haccepts : ∀ e ∈ connections, g.Accepts e)
    (hkinds : ∀ m ∈ g.nodes, m.id = n.id → m.kind = n.kind) {path folder : Text}
    (h : Path.target? path nodes connections = some n) (hfolder : (Path.split path).2 = some folder)
    (hbelow : Path.isBelow folder n nodes connections = false) : n.isFile = true := by
  obtain hcode | ⟨f, hlies⟩ := Path.code_or_folderOf_of_target? h hfolder hbelow
  · rw [Node.isFile, hcode]
    rfl
  · exact isFile_of_folderOf haccepts hkinds hlies

end Graph

/-! ## Wires that fit -/

/-- The wires that commands make: files into folders, and what can be imported into code files. -/
inductive Node.Fits (source target : Node) : Role → Prop
  | files (file : source.isFile = true) (folder : target.kind = .folder) :
      Fits source target Role.files
  | imports (importable : source.kind ∈ Kind.importable) (code : target.kind = .code) :
      Fits source target Role.imports

/-- The nodes that an action wires are known and fit. -/
def Action.FitsIn (nodes : List Node) : Action → Prop
  | overwrite n _ folder => n ∈ nodes ∧ (folder.isSome = true → n.isFile = true)
  | create _ _ _ => True
  | move n _ => n ∈ nodes ∧ n.isFile = true
  | rename _ _ _ => True
  | delete _ _ => True
  | place source folder => source ∈ nodes ∧ folder ∈ nodes ∧ source.Fits folder Role.files
  | importInto source target => source ∈ nodes ∧ target ∈ nodes ∧ source.Fits target Role.imports

namespace Batch

variable {b : Batch} {c : BatchContext} {source target n : Node} {role : Role}

theorem entersInput_newConnection (h : source.Fits target role) (port id : Text) :
    (newConnection source target role port id).EntersInput source.kind target.kind := by
  cases h with
  | files file folder =>
      rw [folder, Connection.entersInput_folder_iff]
      exact ⟨rfl, file⟩
  | imports importable code =>
      rw [code, Connection.entersInput_code_iff]
      exact ⟨rfl, importable⟩

/-- The batch knows its nodes, and the connections of its graph are well-typed. -/
structure Typed (b : Batch) : Prop where
  tidy : b.Tidy
  graph : b.graph.Typed

namespace Typed

/-- What is known by its kind before an edit is known by it afterwards, so wires that fit fit. -/
theorem wire (h : b.Typed) (hsource : Known source.id source.kind b)
    (htarget : Known target.id target.kind b) (hfits : source.Fits target role) :
    (b.wire source target role).2.Typed := by
  refine ⟨h.tidy.wire source target role, ?_⟩
  unfold Batch.wire
  split
  · exact h.graph
  · next port hport =>
      refine h.graph.connect fun hends => ?_
      obtain ⟨hfrom, hto⟩ := Graph.hasEnds_iff.1 hends
      obtain ⟨s, hs, hsid⟩ := mem_idsOf.1 hfrom
      obtain ⟨t, ht, htid⟩ := mem_idsOf.1 hto
      refine ⟨s, hs, t, ht, hsid, htid, ?_⟩
      rw [hsource.kind s hs hsid, htarget.kind t ht htid]
      exact ⟨Connection.leavesOutput_of_outputPort? hport rfl, entersInput_newConnection hfits _ _⟩

theorem note (h : b.Typed) (a : Annotation) : (b.note a).Typed :=
  ⟨keeps_tidy.note h.tidy a, h.graph⟩

theorem noteChange (h : b.Typed) (a : Annotation) (id : NodeId) : (b.noteChange a id).Typed :=
  ⟨keeps_tidy.noteChange h.tidy a id, h.graph⟩

theorem add (h : b.Typed) {request : NodeRequest} (hid : request.id = none) :
    (b.add request).2.Typed :=
  ⟨h.tidy.add request hid, h.graph.addNode (h.tidy.id_add_notMem request hid)⟩

theorem remove (h : b.Typed) (id : NodeId) : (b.remove id).Typed :=
  ⟨keeps_tidy.remove b id h.tidy, h.graph.removeNode id⟩

theorem setContent (h : b.Typed) (id : NodeId) (content : Text) :
    (b.onGraph fun g => g.setContent id content).Typed :=
  ⟨keeps_tidy.setContent b id content h.tidy, h.graph.modifyNode id (fun _ => rfl) fun _ => rfl⟩

theorem setTitle (h : b.Typed) (id : NodeId) (title : Text) :
    (b.onGraph fun g => g.setTitle id title).Typed :=
  ⟨keeps_tidy.setTitle b id title h.tidy, h.graph.modifyNode id (fun _ => rfl) fun _ => rfl⟩

theorem detach (h : b.Typed) (c : BatchContext) (id : NodeId) : (b.detach c id).Typed := by
  refine ⟨keeps_tidy.detach h.tidy c id, h.graph.of_kept ?_ fun m hm => ⟨m, ?_, rfl, rfl⟩⟩
  · rw [connections_detach]
    exact List.filter_subset_self _
  · rw [nodes_detach]
    exact hm

theorem ensureFolder (h : b.Typed) (title : Text) (position : Position) :
    (b.ensureFolder title position).2.Typed := by
  unfold Batch.ensureFolder
  split
  · exact h
  · exact (h.add rfl).noteChange _ _

theorem known_ensureFolder (h : b.Typed) (title : Text) (position : Position) :
    Known (b.ensureFolder title position).1.id .folder (b.ensureFolder title position).2 := by
  have htidy := (h.ensureFolder title position).tidy
  obtain ⟨hmem, hkind⟩ := mem_nodes_ensureFolder b title position
  rw [htidy.nodes_eq] at hmem
  exact hkind ▸ known_of_mem htidy hmem

theorem putInto (h : b.Typed) {folder : Node} (hn : Known n.id n.kind b)
    (hfolder : Known folder.id folder.kind b) (hfits : n.Fits folder Role.files)
    (c : BatchContext) : (b.putInto c n folder).Typed :=
  (h.detach c n.id).wire ((keeps_known _ _).detach hn c n.id)
    ((keeps_known _ _).detach hfolder c n.id) hfits

theorem linkAnchor (h : b.Typed) {folder : Node} (hfolder : Known folder.id folder.kind b)
    (hkind : folder.kind = .folder) (c : BatchContext) (file : Node) :
    (b.linkAnchor c file folder).Typed := by
  unfold Batch.linkAnchor
  split
  · next anchor hanchor =>
      obtain ⟨hmem, hcode⟩ := mem_of_codeAnchor? (Option.filter_eq_some_iff.1 hanchor).1
      rw [h.tidy.nodes_eq] at hmem
      split
      · exact h
      · exact h.wire hfolder (known_of_mem h.tidy hmem) (.imports (hkind ▸ by decide) hcode)
  · exact h

theorem feedAnchor (h : b.Typed) (hn : Known n.id n.kind b) (hkind : n.kind = .code)
    (c : BatchContext) : (b.feedAnchor c n).Typed := by
  unfold Batch.feedAnchor
  split
  · next anchor hanchor =>
      obtain ⟨hmem, hcode⟩ := mem_of_codeAnchor? hanchor
      rw [h.tidy.nodes_eq] at hmem
      exact h.wire hn (known_of_mem h.tidy hmem) (.imports (hkind ▸ by decide) hcode)
  · exact h

theorem file (h : b.Typed) (hn : Known n.id n.kind b) (hfile : n.isFile = true)
    (c : BatchContext) (title : Text) : (b.file c n title).Typed := by
  let position := b.nearAnchor c c.placement.folderOffset
  let folder := (b.ensureFolder title position).1
  have hkind : folder.kind = .folder := (mem_nodes_ensureFolder b title position).2
  have hfolder : Known folder.id folder.kind (b.ensureFolder title position).2 :=
    hkind ▸ h.known_ensureFolder title position
  have hput := (h.ensureFolder title position).putInto
    ((keeps_known _ _).ensureFolder hn title position) hfolder (.files hfile hkind) c
  have hfolder' : Known folder.id folder.kind
      (((b.ensureFolder title position).2.putInto c n folder).noteChange
        (.wired n.title folder.title) n.id) :=
    (keeps_known _ _).noteChange ((keeps_known _ _).putInto hfolder c n folder) _ _
  exact (hput.noteChange _ _).linkAnchor hfolder' hkind c n

/-- An action that wires what fits makes well-typed wires. -/
theorem perform (h : b.Typed) (c : BatchContext) {action : Action}
    (hfits : action.FitsIn b.graph.nodes) : (b.perform c action).Typed := by
  cases action with
  | overwrite n content folder =>
      have hwritten := (h.setContent n.id content).noteChange (.updated n.title) n.id
      cases folder with
      | none => exact hwritten
      | some title =>
          have hn := (keeps_known n.id n.kind).noteChange ((keeps_known n.id n.kind).setContent b
            n.id content (known_of_mem h.tidy hfits.1)) (.updated n.title) n.id
          exact hwritten.file hn (hfits.2 rfl) c title
  | create title content folder =>
      let request : NodeRequest := { kind := .code, title := some title, content := some content,
                                     position := b.nearAnchor c c.placement.fileOffset }
      let n := (b.add request).1
      have hmade : ((b.add request).2.noteChange (.created title) n.id).Typed :=
        (h.add rfl).noteChange _ _
      have hmem : n ∈ ((b.add request).2.noteChange (.created title) n.id).graph.nodes := by
        show n ∈ (b.add request).2.graph.nodes
        rw [h.tidy.nodes_add request rfl]
        exact List.mem_append_right _ (List.mem_singleton_self n)
      have hn := known_of_mem hmade.tidy hmem
      cases folder with
      | none => exact hmade.feedAnchor hn rfl c
      | some title => exact hmade.file hn rfl c title
  | move n folder =>
      have hn := (keeps_known n.id n.kind).detach (known_of_mem h.tidy hfits.1) c n.id
      have htaken := h.detach c n.id
      cases folder with
      | none => exact htaken.noteChange _ _
      | some title =>
          let position := n.position.offset c.placement.moveFolderOffset.x
            c.placement.moveFolderOffset.y
          have hkind := (mem_nodes_ensureFolder (b.detach c n.id) title position).2
          have hfolder := htaken.known_ensureFolder title position
          rw [← hkind] at hfolder
          exact ((htaken.ensureFolder title position).wire
            ((keeps_known _ _).ensureFolder hn title position) hfolder
            (.files hfits.2 hkind)).noteChange _ _
  | rename n oldTitle newTitle => exact (h.setTitle n.id newTitle).noteChange _ _
  | delete n title => exact (h.remove n.id).note _
  | place source folder =>
      obtain ⟨hsource, hfolder, hfits⟩ := hfits
      exact (h.putInto (known_of_mem h.tidy hsource) (known_of_mem h.tidy hfolder) hfits
        c).noteChange _ _
  | importInto source target =>
      obtain ⟨hsource, htarget, hfits⟩ := hfits
      have hwired := h.wire (known_of_mem h.tidy hsource) (known_of_mem h.tidy htarget) hfits
      simp only [Batch.perform]
      split
      · exact hwired.noteChange _ _
      · exact hwired.note _

end Typed

/-! ## What is decided -/

/-- The nodes of a graph have the kinds in the batch that they have in the graph. -/
def KeepsKinds (g : Graph) (b : Batch) : Prop := ∀ n ∈ g.nodes, Known n.id n.kind b

/-- Every command looks up what it wires by kind, or by a path that leads to files only. -/
theorem fitsIn_of_decide {g : Graph} (ht : b.Tidy) (hkinds : KeepsKinds g b)
    (haccepts : ∀ e ∈ c.before, g.Accepts e) {command : Command} {action : Action}
    (h : b.decide c command = .ok action) : action.FitsIn b.graph.nodes := by
  cases comesTo_of_decide ht h with
  | create => trivial
  | @overwrite path content n found permitted =>
      have hn := Path.mem_of_target? found
      refine ⟨hn, fun hmoves => ?_⟩
      obtain ⟨folder, hfolder⟩ := Option.isSome_iff_exists.1 hmoves
      obtain ⟨hsplit, hbelow⟩ := Option.filter_eq_some_iff.1 hfolder
      rw [Bool.not_eq_true'] at hbelow
      exact Graph.isFile_of_target? haccepts
        (fun m hm hid => ((hkinds m hm).kind n hn hid.symm).symm) found hsplit hbelow
  | delete => trivial
  | move known file => exact ⟨ht.nodes_eq ▸ known, file⟩
  | rename => trivial
  | place known file permitted target isFolder =>
      exact ⟨ht.nodes_eq ▸ known, ht.nodes_eq ▸ target, .files file isFolder⟩
  | importInto known importable into code =>
      exact ⟨ht.nodes_eq ▸ known, ht.nodes_eq ▸ into, .imports importable code⟩

/-! ## Whole batches -/

theorem Typed.applyCall {g : Graph} (h : b.Typed) (hkinds : KeepsKinds g b)
    (haccepts : ∀ e ∈ c.before, g.Accepts e) (call : Value) : (b.applyCall c call).Typed := by
  cases hrefusal : b.refusal? c call with
  | some refusal =>
      rw [applyCall_of_refused hrefusal]
      exact h.note _
  | none =>
      obtain ⟨command, action, -, hdecide, hperform⟩ := exists_applyCall_eq_perform hrefusal
      rw [hperform]
      exact h.perform c (fitsIn_of_decide h.tidy hkinds haccepts hdecide)

theorem KeepsKinds.applyCall {g : Graph} (h : KeepsKinds g b) (c : BatchContext) (call : Value) :
    KeepsKinds g (b.applyCall c call) :=
  fun n hn => (keeps_known n.id n.kind).applyCall (h n hn) c call

theorem Typed.applyCalls {g : Graph} (h : b.Typed) (hkinds : KeepsKinds g b)
    (haccepts : ∀ e ∈ c.before, g.Accepts e) (calls : List Value) :
    (calls.foldl (fun b call => b.applyCall c call) b).Typed := by
  induction calls generalizing b with
  | nil => exact h
  | cons call calls ih =>
      exact ih (h.applyCall hkinds haccepts call) (hkinds.applyCall c call)

end Batch

/-- A batch on a graph with well-typed connections leaves a graph with well-typed connections,
whatever its calls are and whatever it is permitted. -/
theorem runBatch_typed (setting : BatchSetting) {g : Graph} {ids : IdSource}
    (hnodup : (idsOf g.nodes).Nodup) (hfresh : ids.FreshFor g)
    (htyped : ∀ e ∈ g.connections, g.WellTyped e) (calls : List Value) :
    let after := (runBatch setting g ids calls).graph
    ∀ e ∈ after.connections, after.WellTyped e := by
  have htidy : (Batch.start g ids).Tidy := Batch.tidy_start hnodup hfresh
  have hstart : (Batch.start g ids).Typed := ⟨htidy, htyped⟩
  exact (hstart.applyCalls (fun n hn => Batch.known_of_mem htidy hn)
    (fun e he => (htyped e he).accepts) calls).graph

/-- A preview is titled like a file in a folder, so a write reaches it, but it is put nowhere.  The
other calls make four wires: two files lie in a new folder, and the anchor imports the folder and a
package. -/
theorem runBatch_typed_preview_titled_as_path :
    let g : Graph := {
      nodes := [{ id := "m", kind := .code, title := "main.js" },
        { id := "p", kind := .preview, title := "lib/view.js" },
        { id := "t", kind := .note, title := "todo" },
        { id := "r", kind := .packageSearch, title := "lodash" }]
      connections := [⟨"shows", "m", "m-out-dom", "p", "p-in-dom"⟩] }
    let call (name : Text) (arguments : List (Text × Value)) : Value :=
      .object [("name", .text name), ("args", .object arguments)]
    let write (path : Text) := call "updateFile" [("filename", .text path), ("code", .text "1")]
    let connect (source target : Text) :=
      call "connectFiles" [("sourceFilename", .text source), ("targetFilename", .text target)]
    let calls := [write "lib/view.js", write "lib/a.js", connect "todo" "lib",
      connect "lodash" "main.js", connect "lib/view.js" "lib"]
    let after := (runBatch { anchor := some (.ofString "m") } g {} calls).graph
    (idsOf g.nodes).Nodup ∧ IdSource.FreshFor {} g ∧ (∀ e ∈ g.connections, g.WellTyped e) ∧
      after.connections.length = 5 ∧ (after.node? "p").map (·.content) = some (.ofString "1") ∧
      ∀ e ∈ after.connections, after.WellTyped e := by
  intro g call write connect calls after
  have hnodup : (idsOf g.nodes).Nodup := by decide +kernel
  have hfresh : IdSource.FreshFor {} g :=
    .of_not_endsInDigit {} (by decide +kernel) (by decide +kernel)
  have htyped : ∀ e ∈ g.connections, g.WellTyped e := by decide +kernel
  have hafter : after.connections.length = 5 ∧
      (after.node? "p").map (·.content) = some "1" := by
    decide +kernel
  exact ⟨hnodup, hfresh, htyped, hafter.1, hafter.2,
    runBatch_typed { anchor := some "m" } hnodup hfresh htyped calls⟩

end LiveCanvas
