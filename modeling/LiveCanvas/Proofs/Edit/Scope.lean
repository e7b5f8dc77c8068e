import LiveCanvas.Proofs.Edit.Writing
import Mathlib.Logic.Relation

/-!
# What an action may touch

An action changes one node at most, and it puts one file at most into one folder.  Apart from that
it is carried out by elementary edits that keep to narrow bounds: only the node meant, or one that
the action makes, is written, renamed, removed or taken out of folders; what is removed and what
something is imported into are code files.  So what such edits keep, and what putting that one file
into that one folder keeps, is kept by the action.
-/

namespace LiveCanvas

/-- The node that an action changes and has to be allowed to change. -/
def Action.subject? : Action → Option NodeId
  | overwrite n _ _ => some n.id
  | create _ _ _ => none
  | move n _ => some n.id
  | rename n _ _ => some n.id
  | delete n _ => some n.id
  | place source _ => some source.id
  | importInto _ _ => none

/-- The nodes that an action names are known, and of the kinds that it needs. -/
def Action.KnownIn (nodes : List Node) : Action → Prop
  | overwrite n _ _ => n ∈ nodes
  | create _ _ _ => True
  | move n _ => n ∈ nodes
  | rename n _ _ => n ∈ nodes
  | delete n _ => n ∈ nodes ∧ n.kind = .code
  | place source folder => source ∈ nodes ∧ folder ∈ nodes ∧ folder.kind = .folder
  | importInto _ target => target ∈ nodes ∧ target.kind = .code

namespace Batch

/-- An action may change its subject and what it makes. -/
def MayChange (b : Batch) (action : Action) (id : NodeId) : Prop :=
  action.subject? = some id ∨ id ∉ idsOf b.graph.nodes

/-- The id of the first folder with a title, or of the one that is made when there is none. -/
def folderFor (b : Batch) (title : Text) : NodeId :=
  match b.find? title [.folder] with
  | some folder => folder.id
  | none => (b.ids.fresh Kind.folder.idStem).1

/-- The file that an action puts somewhere, and the folder; none for the root. -/
def placement? (b : Batch) : Action → Option (NodeId × Option NodeId)
  | .overwrite n _ (some title) => some (n.id, some (b.folderFor title))
  | .create _ _ (some title) =>
    -- the new file is no folder, but its id is taken before that of a new folder
    let (id, ids) := b.ids.fresh Kind.code.idStem
    some (id, some ({ b with ids }.folderFor title))
  | .move n folder => some (n.id, folder.map b.folderFor)
  | .place source folder => some (source.id, some folder.id)
  | _ => none

/-! ## Edits -/

/-- An elementary edit that changes no nodes but these. -/
inductive Edit (before : List Connection) (changes : NodeId → Prop) : Batch → Batch → Prop
  | report (b : Batch) (report : BatchReport) (a : Annotation)
      (line : report.annotations = b.report.annotations ++ [a]) :
      Edit before changes b { b with report }
  | add (b : Batch) (request : NodeRequest) (id : request.id = none) :
      Edit before changes b (b.add request).2
  | remove (b : Batch) (n : Node) (known : n ∈ b.nodes) (code : n.kind = .code)
      (within : changes n.id) : Edit before changes b (b.remove n.id)
  /-- A code file imports something. -/
  | feed (b : Batch) (source target : Node) (known : target ∈ b.nodes)
      (code : target.kind = .code) :
      Edit before changes b (b.wire source target Role.imports).2
  /-- A connection from before the batch is taken away by its id. -/
  | takeOut (b : Batch) (edge : Connection) (old : edge ∈ before) (within : changes edge.source) :
      Edit before changes b (b.onGraph fun g => g.disconnect edge.id)
  | write (b : Batch) (id : NodeId) (content : Text) (within : changes id) :
      Edit before changes b (b.onGraph fun g => g.setContent id content)
  | rename (b : Batch) (id : NodeId) (title : Text) (within : changes id) :
      Edit before changes b (b.onGraph fun g => g.setTitle id title)

/-- Edits one after the other. -/
abbrev Edits (before : List Connection) (changes : NodeId → Prop) : Batch → Batch → Prop :=
  Relation.ReflTransGen (Edit before changes)

/-- How an action is carried out that puts a file somewhere, or none. -/
inductive Performs (c : BatchContext) (changes : NodeId → Prop) :
    Option (NodeId × Option NodeId) → Batch → Batch → Prop
  | nowhere {b b' : Batch} (edits : Edits c.before changes b b') : Performs c changes none b b'
  /-- A file is taken out of where it was. -/
  | toRoot {b first b' : Batch} {id : NodeId} (within : changes id)
      (live : id ∈ idsOf first.graph.nodes) (start : Edits c.before changes b first)
      (finish : Edits c.before changes (first.detach c id) b') :
      Performs c changes (some (id, none)) b b'
  /-- A file is taken out of where it was and put into a folder. -/
  | into {b first second b' : Batch} {source folder : Node} (within : changes source.id)
      (live : ∃ n ∈ first.graph.nodes, n.id = source.id ∧ n.kind = source.kind)
      (known : folder ∈ second.nodes) (isFolder : folder.kind = .folder)
      (start : Edits c.before changes b first)
      (between : Edits c.before changes (first.detach c source.id) second)
      (finish : Edits c.before changes (second.wire source folder Role.files).2 b') :
      Performs c changes (some (source.id, some folder.id)) b b'

variable {before : List Connection} {changes : NodeId → Prop} {b b' : Batch} {c : BatchContext}

/-- What all edits keep is kept by edits within bounds. -/
theorem Keeps.edit {P : Batch → Prop} (h : Keeps P) (hedit : Edit before changes b b') (hb : P b) :
    P b' := by
  cases hedit with
  | report report a line => exact h.report b report a line hb
  | add request id => exact h.add b request id hb
  | remove n => exact h.remove b n.id hb
  | feed source target => exact h.wire b source target Role.imports hb
  | takeOut edge => exact h.disconnect b edge.id hb
  | write id content => exact h.setContent b id content hb
  | rename id title => exact h.setTitle b id title hb

theorem Keeps.edits {P : Batch → Prop} (h : Keeps P) (hedits : Edits before changes b b')
    (hb : P b) : P b' := by
  induction hedits with
  | refl => exact hb
  | tail _ hedit ih => exact h.edit hedit ih

theorem edits_note (b : Batch) (a : Annotation) : Edits before changes b (b.note a) :=
  .single (.report b _ a rfl)

theorem edits_noteChange (b : Batch) (a : Annotation) (id : NodeId) :
    Edits before changes b (b.noteChange a id) :=
  .single (.report b _ a rfl)

/-! ## Looking things up -/

theorem nodes_onGraph (b : Batch) {change : Graph → Graph}
    (h : (change b.graph).nodes = b.graph.nodes) : (b.onGraph change).nodes = b.nodes := by
  unfold nodes
  apply List.filterMap_congr
  intro known _
  cases known with
  | live id =>
      show (change b.graph).node? id = b.graph.node? id
      rw [Graph.node?, h]
      rfl
  | replaced n => rfl

theorem knownNodes_detach (b : Batch) (c : BatchContext) (id : NodeId) :
    (b.detach c id).nodes = b.nodes :=
  nodes_onGraph b (Graph.nodes_foldl_disconnect _ _)

theorem mem_of_find? {title : Text} {kinds : List Kind} {n : Node}
    (h : b.find? title kinds = some n) : n ∈ b.nodes ∧ n.kind ∈ kinds := by
  have hfits := List.find?_some h
  simp only [Bool.and_eq_true, List.contains_iff_mem] at hfits
  exact ⟨List.mem_of_find?_eq_some h, hfits.2⟩

theorem mem_of_codeAnchor? {n : Node} (h : b.codeAnchor? c = some n) :
    n ∈ b.nodes ∧ n.kind = .code := by
  obtain ⟨hanchor, hkind⟩ := Option.filter_eq_some_iff.1 h
  obtain ⟨id, -, hfind⟩ := Option.bind_eq_some_iff.1 hanchor
  exact ⟨List.mem_of_find?_eq_some hfind, by simpa using hkind⟩

/-- A new node is known. -/
theorem mem_nodes_add (b : Batch) (request : NodeRequest) :
    (b.add request).1 ∈ (b.add request).2.nodes := by
  refine List.mem_filterMap.2 ⟨.live (b.add request).1.id, List.mem_append_right _ ?_, ?_⟩
  · exact List.mem_singleton_self _
  · show (b.graph.addNode (b.add request).1).node? (b.add request).1.id = _
    rw [Graph.node?_addNode, if_pos rfl]

/-- The folder that is used is known. -/
theorem mem_nodes_ensureFolder (b : Batch) (title : Text) (position : Position) :
    (b.ensureFolder title position).1 ∈ (b.ensureFolder title position).2.nodes ∧
      (b.ensureFolder title position).1.kind = .folder := by
  unfold ensureFolder
  split
  · next folder hfind =>
      obtain ⟨hmem, hkind⟩ := mem_of_find? hfind
      exact ⟨hmem, List.mem_singleton.1 hkind⟩
  · let request : NodeRequest := { kind := .folder, title := some title, position }
    exact ⟨mem_nodes_add b request, rfl⟩

theorem id_ensureFolder (b : Batch) (title : Text) (position : Position) :
    (b.ensureFolder title position).1.id = b.folderFor title := by
  rw [ensureFolder, folderFor]
  cases b.find? title [.folder] with
  | some folder => rfl
  | none =>
      let request : NodeRequest := { kind := .folder, title := some title, position }
      have hid : request.id = none := rfl
      exact (id_create hid b.ids).1

/-- The folder that is meant depends on the folders and on the next id. -/
theorem folderFor_eq (h : b.Tidy) (title : Text) :
    b.folderFor title = (b.graph.folderId? title).getD (b.ids.fresh Kind.folder.idStem).1 := by
  rw [← find?_folder h, folderFor]
  cases b.find? title [.folder] with
  | some folder => rfl
  | none => rfl

theorem folderFor_congr (h : b.Tidy) (h' : b'.Tidy) (title : Text) (hids : b'.ids = b.ids)
    (hfolder : b'.graph.folderId? title = b.graph.folderId? title) :
    b'.folderFor title = b.folderFor title := by
  rw [folderFor_eq h', folderFor_eq h, hids, hfolder]

/-! ## What is decided -/

theorem editable_eq_ok {title : Text} {kinds : List Kind} {missing : Refusal} {n : Node}
    (h : b.editable c title (b.find? title kinds) missing = .ok n) :
    (n ∈ b.nodes ∧ n.kind ∈ kinds) ∧ c.permits b.graph n.id = true := by
  unfold editable at h
  split at h
  · cases h
  · next m hfind =>
      split at h
      · next hpermits =>
          cases h
          exact ⟨mem_of_find? hfind, hpermits⟩
      · cases h

/-- What a command comes to that is not refused, and what was looked up and asked for it. -/
inductive ComesTo (b : Batch) (c : BatchContext) : Command → Action → Prop
  | create {path content : Text} (missing : Path.target? path b.graph.nodes c.before = none) :
      ComesTo b c (.updateFile path content)
        (.create (Path.split path).1 content (Path.split path).2)
  | overwrite {path content : Text} {n : Node}
      (found : Path.target? path b.graph.nodes c.before = some n)
      (permitted : c.permits b.graph n.id = true) :
      ComesTo b c (.updateFile path content)
        (.overwrite n content ((Path.split path).2.filter fun folder =>
          !Path.isBelow folder n b.graph.nodes c.before))
  | delete {title : Text} {n : Node} (known : n ∈ b.nodes) (code : n.kind = .code)
      (permitted : c.permits b.graph n.id = true) :
      ComesTo b c (.deleteFile title) (.delete n title)
  | move {title : Text} {folder : Option Text} {n : Node} (known : n ∈ b.nodes)
      (file : n.isFile = true) (permitted : c.permits b.graph n.id = true) :
      ComesTo b c (.moveFile title folder) (.move n (folder.filter (· != "")))
  | rename {oldTitle newTitle : Text} {n : Node} (known : n ∈ b.nodes)
      (permitted : c.permits b.graph n.id = true) :
      ComesTo b c (.renameFile oldTitle newTitle) (.rename n oldTitle newTitle)
  | place {sourceTitle targetTitle : Text} {source folder : Node} (known : source ∈ b.nodes)
      (file : source.isFile = true) (permitted : c.permits b.graph source.id = true)
      (target : folder ∈ b.nodes) (isFolder : folder.kind = .folder) :
      ComesTo b c (.connectFiles sourceTitle targetTitle) (.place source folder)
  | importInto {sourceTitle targetTitle : Text} {source target : Node} (known : source ∈ b.nodes)
      (importable : source.kind ∈ Kind.importable) (into : target ∈ b.nodes)
      (code : target.kind = .code) :
      ComesTo b c (.connectFiles sourceTitle targetTitle) (.importInto source target)

theorem comesTo_of_decideConnect {source target : Node} {action : Action}
    {sourceTitle targetTitle : Text} (hsource : source ∈ b.nodes) (htarget : target ∈ b.nodes)
    (h : b.decideConnect c source target = .ok action) :
    b.ComesTo c (.connectFiles sourceTitle targetTitle) action := by
  unfold decideConnect at h
  split at h
  · next hfolder =>
      split at h
      · cases h
      · next hfile =>
          split at h
          · next hpermits =>
              cases h
              exact .place hsource (by simpa using hfile) hpermits htarget hfolder
          · cases h
  · split at h
    · next hcode =>
        split at h
        · next himportable =>
            cases h
            exact .importInto hsource (List.contains_iff_mem.1 himportable) htarget hcode
        · cases h
    · cases h

theorem comesTo_of_decide (ht : b.Tidy) {command : Command} {action : Action}
    (h : b.decide c command = .ok action) : b.ComesTo c command action := by
  cases command with
  | updateFile path content =>
      change b.decideUpdate c path content = .ok action at h
      obtain ⟨hnone, rfl⟩ | ⟨n, htarget, hpermits, rfl⟩ := decideUpdate_eq_ok ht h
      · exact .create hnone
      · exact .overwrite htarget hpermits
  | deleteFile title =>
      obtain ⟨n, heditable, haction⟩ := bind_eq_ok_iff.1 h
      cases haction
      obtain ⟨⟨hknown, hkind⟩, hpermits⟩ := editable_eq_ok heditable
      exact .delete hknown (List.mem_singleton.1 hkind) hpermits
  | moveFile title folder =>
      obtain ⟨n, heditable, haction⟩ := bind_eq_ok_iff.1 h
      cases haction
      obtain ⟨⟨hknown, hkind⟩, hpermits⟩ := editable_eq_ok heditable
      have hfiles : ∀ kind ∈ [Kind.code, Kind.image, Kind.note], kind.isFile = true := by decide
      exact .move hknown (hfiles n.kind hkind) hpermits
  | renameFile oldTitle newTitle =>
      obtain ⟨n, heditable, haction⟩ := bind_eq_ok_iff.1 h
      cases haction
      obtain ⟨⟨hknown, -⟩, hpermits⟩ := editable_eq_ok heditable
      exact .rename hknown hpermits
  | connectFiles sourceTitle targetTitle =>
      simp only [decide] at h
      split at h
      · cases h
      · cases h
      · next source target hsource htarget =>
          exact comesTo_of_decideConnect (mem_of_find? hsource).1 (mem_of_find? htarget).1 h

/-- What an action names is known, and its subject may be changed. -/
structure Decided (b : Batch) (c : BatchContext) (action : Action) : Prop where
  known : action.KnownIn b.nodes
  permitted : ∀ id, action.subject? = some id → c.permits b.graph id = true

theorem decided_of_decide (ht : b.Tidy) {command : Command} {action : Action}
    (h : b.decide c command = .ok action) : b.Decided c action := by
  cases comesTo_of_decide ht h with
  | create missing => exact ⟨trivial, fun id hid => nomatch hid⟩
  | overwrite found permitted =>
      refine ⟨?_, fun id hid => Option.some.inj hid ▸ permitted⟩
      exact ht.nodes_eq.symm ▸ Path.mem_of_target? found
  | delete known code permitted =>
      exact ⟨⟨known, code⟩, fun id hid => Option.some.inj hid ▸ permitted⟩
  | move known file permitted => exact ⟨known, fun id hid => Option.some.inj hid ▸ permitted⟩
  | rename known permitted => exact ⟨known, fun id hid => Option.some.inj hid ▸ permitted⟩
  | place known file permitted target isFolder =>
      exact ⟨⟨known, target, isFolder⟩, fun id hid => Option.some.inj hid ▸ permitted⟩
  | importInto known importable into code =>
      exact ⟨⟨into, code⟩, fun id hid => nomatch hid⟩

/-! ## What is carried out -/

theorem edits_disconnectAll {id : NodeId} (hid : changes id) {edges : List Connection}
    (hedges : ∀ edge ∈ edges, edge ∈ before ∧ edge.source = id) (b : Batch) :
    Edits before changes b
      (b.onGraph fun g => edges.foldl (fun g edge => g.disconnect edge.id) g) := by
  induction edges generalizing b with
  | nil => exact .refl
  | cons edge edges ih =>
      obtain ⟨hold, hsource⟩ := hedges edge List.mem_cons_self
      refine .head (.takeOut b edge hold (hsource ▸ hid)) ?_
      exact ih (fun e he => hedges e (List.mem_cons_of_mem _ he)) _

theorem edits_detach {id : NodeId} (hid : changes id) (b : Batch) :
    Edits c.before changes b (b.detach c id) := by
  refine edits_disconnectAll hid (fun edge hedge => ?_) b
  obtain ⟨hold, hsource, -⟩ := mem_structural.1 hedge
  exact ⟨hold, hsource⟩

theorem edits_ensureFolder (b : Batch) (title : Text) (position : Position) :
    Edits before changes b (b.ensureFolder title position).2 := by
  unfold ensureFolder
  split
  · exact .refl
  · exact .head (.add b _ rfl) (edits_noteChange _ _ _)

theorem edits_linkAnchor (b : Batch) (c : BatchContext) (file folder : Node) :
    Edits before changes b (b.linkAnchor c file folder) := by
  unfold linkAnchor
  split
  · next anchor hanchor =>
      obtain ⟨hknown, hcode⟩ := mem_of_codeAnchor? (Option.filter_eq_some_iff.1 hanchor).1
      split
      · exact .refl
      · exact .single (.feed b folder anchor hknown hcode)
  · exact .refl

theorem edits_feedAnchor (b : Batch) (c : BatchContext) (n : Node) :
    Edits before changes b (b.feedAnchor c n) := by
  unfold feedAnchor
  split
  · next anchor hanchor =>
      obtain ⟨hknown, hcode⟩ := mem_of_codeAnchor? hanchor
      exact .single (.feed b n anchor hknown hcode)
  · exact .refl

section Performs

variable {placement : Option (NodeId × Option NodeId)} {b₁ : Batch}

theorem Performs.after (h : Performs c changes placement b₁ b')
    (hedits : Edits c.before changes b b₁) : Performs c changes placement b b' := by
  cases h with
  | nowhere edits => exact .nowhere (hedits.trans edits)
  | toRoot within live start finish => exact .toRoot within live (hedits.trans start) finish
  | into within live known isFolder start between finish =>
      exact .into within live known isFolder (hedits.trans start) between finish

theorem Performs.andThen (h : Performs c changes placement b b₁)
    (hedits : Edits c.before changes b₁ b') : Performs c changes placement b b' := by
  cases h with
  | nowhere edits => exact .nowhere (edits.trans hedits)
  | toRoot within live start finish => exact .toRoot within live start (finish.trans hedits)
  | into within live known isFolder start between finish =>
      exact .into within live known isFolder start between (finish.trans hedits)

theorem performs_putInto {source folder : Node} (hsource : changes source.id)
    (hlive : ∃ n ∈ b.graph.nodes, n.id = source.id ∧ n.kind = source.kind)
    (hknown : folder ∈ b.nodes) (hfolder : folder.kind = .folder) :
    Performs c changes (some (source.id, some folder.id)) b (b.putInto c source folder) :=
  .into hsource hlive (knownNodes_detach b c source.id ▸ hknown) hfolder .refl .refl .refl

theorem performs_file (ht : b.Tidy) {n : Node} (hn : changes n.id)
    (hlive : ∃ m ∈ b.graph.nodes, m.id = n.id ∧ m.kind = n.kind) (title : Text) :
    Performs c changes (some (n.id, some (b.folderFor title))) b (b.file c n title) := by
  let position := b.nearAnchor c c.placement.folderOffset
  obtain ⟨hknown, hfolder⟩ := mem_nodes_ensureFolder b title position
  obtain ⟨added, hadded, -⟩ := nodes_ensureFolder ht title position
  obtain ⟨m, hm, hmn⟩ := hlive
  have hlive : ∃ m ∈ (b.ensureFolder title position).2.graph.nodes,
      m.id = n.id ∧ m.kind = n.kind :=
    ⟨m, hadded ▸ List.mem_append_left added hm, hmn⟩
  rw [← id_ensureFolder b title position]
  have hput := (performs_putInto hn hlive hknown hfolder).after (c := c)
    (edits_ensureFolder b title position)
  exact (hput.andThen (edits_noteChange _ _ _)).andThen (edits_linkAnchor _ c n _)

theorem performs_move (ht : b.Tidy) {n : Node} (hn : changes n.id) (hknown : n ∈ b.graph.nodes)
    (folder : Option Text) :
    Performs c changes (b.placement? (.move n folder)) b (b.perform c (.move n folder)) := by
  cases folder with
  | none =>
      exact .toRoot hn (mem_idsOf_of_mem hknown) .refl (edits_noteChange _ _ _)
  | some title =>
      let out := b.detach c n.id
      let offset := c.placement.moveFolderOffset
      let position := n.position.offset offset.x offset.y
      have hout : out.Tidy := keeps_tidy.detach ht c n.id
      obtain ⟨hfolder, hkind⟩ := mem_nodes_ensureFolder out title position
      have hid : (out.ensureFolder title position).1.id = b.folderFor title := by
        rw [id_ensureFolder]
        refine folderFor_congr ht hout title rfl ?_
        rw [Graph.folderId?, nodes_detach]
        rfl
      show Performs c changes (some (n.id, some (b.folderFor title))) b _
      rw [← hid]
      exact .into hn ⟨n, hknown, rfl, rfl⟩ hfolder hkind .refl
        (edits_ensureFolder out title position) (edits_noteChange _ _ _)

theorem performs_overwrite (ht : b.Tidy) {n : Node} (hn : changes n.id)
    (hknown : n ∈ b.graph.nodes) (content : Text) (folder : Option Text) :
    Performs c changes (b.placement? (.overwrite n content folder)) b
      (b.perform c (.overwrite n content folder)) := by
  let written := (b.onGraph fun g => g.setContent n.id content).noteChange (.updated n.title) n.id
  have hwritten : Edits c.before changes b written :=
    .head (.write b n.id content hn) (edits_noteChange _ _ _)
  cases folder with
  | none => exact .nowhere hwritten
  | some title =>
      have htidy : written.Tidy := keeps_tidy.edits hwritten ht
      have hnames := Node.keepsNames_putContent n.id content
      have hnodes : written.graph.nodes = b.graph.nodes.map (Node.putContent n.id content) := rfl
      have hfolder : written.folderFor title = b.folderFor title := by
        refine folderFor_congr ht htidy title rfl ?_
        rw [Graph.folderId?, Graph.folderId?, hnodes, List.find?_map]
        simp only [Function.comp_def, hnames.title, hnames.kind, Option.map_map, hnames.id]
      have hlive : ∃ m ∈ written.graph.nodes, m.id = n.id ∧ m.kind = n.kind :=
        ⟨n.putContent n.id content, hnodes ▸ List.mem_map_of_mem hknown, hnames.id n, hnames.kind n⟩
      show Performs c changes (some (n.id, some (b.folderFor title))) b _
      rw [← hfolder]
      exact (performs_file htidy hn hlive title).after hwritten

theorem performs_create (ht : b.Tidy) (hnew : ∀ id, id ∉ idsOf b.graph.nodes → changes id)
    (title content : Text) (folder : Option Text) :
    Performs c changes (b.placement? (.create title content folder)) b
      (b.perform c (.create title content folder)) := by
  let request : NodeRequest := { kind := .code, title := some title, content := some content,
                                 position := b.nearAnchor c c.placement.fileOffset }
  let n := (b.add request).1
  let made := (b.add request).2.noteChange (.created title) n.id
  have hmade : Edits c.before changes b made := .head (.add b request rfl) (edits_noteChange _ _ _)
  cases folder with
  | none => exact .nowhere (hmade.trans (edits_feedAnchor made c n))
  | some folder =>
      have htidy : made.Tidy := keeps_tidy.edits hmade ht
      have hnodes : made.graph.nodes = b.graph.nodes ++ [n] := ht.nodes_add request rfl
      have hnone : request.id = none := rfl
      obtain ⟨hid, hids⟩ := id_create hnone b.ids
      let later : Batch := { b with ids := (b.ids.fresh Kind.code.idStem).2 }
      have hlater : later.Tidy := by
        refine ⟨ht.known, ht.nodup, fun stem number hnumber => ?_, fun stem number hnumber => ?_⟩
        · exact ht.fresh.nodes stem number (Nat.le_of_succ_le hnumber)
        · exact ht.fresh.connections stem number (Nat.le_of_succ_le hnumber)
      have hfolder : made.folderFor folder = later.folderFor folder := by
        refine folderFor_congr hlater htidy folder hids ?_
        have hcode : (n.title == folder && n.kind == .folder) = false :=
          Bool.and_eq_false_iff.2 (.inr rfl)
        rw [Graph.folderId?, hnodes, List.find?_append, List.find?_singleton, hcode]
        exact congrArg _ Option.or_none
      have hlive : ∃ m ∈ made.graph.nodes, m.id = n.id ∧ m.kind = n.kind := by
        refine ⟨n, ?_, rfl, rfl⟩
        rw [hnodes]
        exact List.mem_append_right _ (List.mem_singleton_self n)
      have hn : changes n.id := hnew n.id (ht.id_add_notMem request rfl)
      show Performs c changes
        (some ((b.ids.fresh Kind.code.idStem).1, some (later.folderFor folder))) b _
      rw [← hfolder, ← hid]
      exact (performs_file htidy hn hlive folder).after hmade

end Performs

/-- An action that names known nodes is carried out within its bounds. -/
theorem performs (ht : b.Tidy) (c : BatchContext) {action : Action} (h : action.KnownIn b.nodes) :
    Performs c (b.MayChange action) (b.placement? action) b (b.perform c action) := by
  cases action with
  | overwrite n content folder =>
      exact performs_overwrite ht (.inl rfl) (ht.nodes_eq ▸ h) content folder
  | create title content folder =>
      exact performs_create ht (fun id hid => .inr hid) title content folder
  | move n folder => exact performs_move ht (.inl rfl) (ht.nodes_eq ▸ h) folder
  | rename n oldTitle newTitle =>
      exact .nowhere (.head (.rename b n.id newTitle (.inl rfl)) (edits_noteChange _ _ _))
  | delete n title =>
      exact .nowhere (.head (.remove b n h.1 h.2 (.inl rfl)) (edits_note _ _))
  | place source folder =>
      obtain ⟨hsource, hknown, hfolder⟩ := h
      have hlive : source ∈ b.graph.nodes := ht.nodes_eq ▸ hsource
      exact (performs_putInto (.inl rfl) ⟨source, hlive, rfl, rfl⟩ hknown hfolder).andThen
        (edits_noteChange _ _ _)
  | importInto source target =>
      have hwired : Edits c.before (b.MayChange (.importInto source target)) b _ :=
        .single (.feed b source target h.1 h.2)
      simp only [perform]
      split
      · exact .nowhere (hwired.trans (edits_noteChange _ _ _))
      · exact .nowhere (hwired.trans (edits_note _ _))

end Batch
end LiveCanvas
