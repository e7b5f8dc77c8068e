import LiveCanvas.Proofs.Canvas.History
import LiveCanvas.Proofs.Canvas.Paths
import LiveCanvas.Proofs.Edit.Wiring

/-!
# Putting files into folders

A file lies in a folder by a connection into the files of the folder.  Putting it there takes it out
of the folders in which it lay before the batch and leaves every other file where it is.  A folder
in which the file was put earlier in the same batch is not left, because only connections from
before the batch are looked at.
-/

namespace LiveCanvas

namespace Graph

/-- The id of the first folder with a title. -/
def folderId? (g : Graph) (title : Text) : Option NodeId :=
  (g.nodes.find? fun n => n.title == title && n.kind == .folder).map (·.id)

/-- The connection leads into a folder. -/
def leadsIntoFolder (g : Graph) (e : Connection) : Bool :=
  (nodeWithId? g.nodes e.target).any (·.kind == .folder)

/-- The node lies in no folder but this one, and a code file does lie in it. -/
structure Filed (g : Graph) (id folder : NodeId) : Prop where
  only : ∀ e ∈ g.filings id, g.leadsIntoFolder e = true → e.target = folder
  code : ∀ n ∈ g.nodes, n.id = id → n.kind = .code → ∃ e ∈ g.filings id, e.target = folder

theorem exists_of_folderId? {g : Graph} {title : Text} {folder : NodeId}
    (h : g.folderId? title = some folder) :
    ∃ n ∈ g.nodes, n.id = folder ∧ n.title = title ∧ n.kind = .folder := by
  obtain ⟨n, hfind, hid⟩ := Option.map_eq_some_iff.1 h
  have hfits := List.find?_some hfind
  simp only [Bool.and_eq_true, beq_iff_eq] at hfits
  exact ⟨n, List.mem_of_find?_eq_some hfind, hid, hfits.1, hfits.2⟩

theorem folderId?_append_new {g g' : Graph} {title : Text} {n : Node}
    (hnone : g.folderId? title = none) (hnodes : g'.nodes = g.nodes ++ [n])
    (htitle : n.title = title) (hkind : n.kind = .folder) : g'.folderId? title = some n.id := by
  have hfind := Option.map_eq_none_iff.1 hnone
  rw [folderId?, hnodes, List.find?_append, hfind, Option.none_or]
  have hfits : (n.title == title && n.kind == .folder) = true := by
    rw [htitle, hkind]
    simp
  rw [List.find?_singleton, if_pos hfits]
  rfl

/-- A graph grows when nodes change apart from their names and new ones go to the end. -/
structure GrowsTo (g g' : Graph) : Prop where
  nodes : ∃ change added, KeepsNames change ∧ g'.nodes = g.nodes.map change ++ added ∧
    ∀ a ∈ added, a.id ∉ idsOf g.nodes

namespace GrowsTo

variable {g g' : Graph}

theorem refl (g : Graph) : g.GrowsTo g :=
  ⟨fun n => n, [], .refl, by simp, by simp⟩

theorem of_nodes_eq_append {added : List Node} (h : g'.nodes = g.nodes ++ added)
    (hnew : ∀ a ∈ added, a.id ∉ idsOf g.nodes) : g.GrowsTo g' :=
  ⟨fun n => n, added, .refl, by rw [h, List.map_id'], hnew⟩

theorem of_nodes_eq_map {change : Node → Node} (hchange : KeepsNames change)
    (h : g'.nodes = g.nodes.map change) : g.GrowsTo g' :=
  ⟨change, [], hchange, by rw [h, List.append_nil], by simp⟩

theorem folderId? (h : g.GrowsTo g') {title : Text} {folder : NodeId}
    (hfolder : g.folderId? title = some folder) : g'.folderId? title = some folder := by
  obtain ⟨change, added, hchange, hnodes, -⟩ := h
  obtain ⟨n, hfind, hid⟩ := Option.map_eq_some_iff.1 hfolder
  rw [Graph.folderId?, hnodes, List.find?_append, List.find?_map]
  simp only [Function.comp_def, hchange.title, hchange.kind, hfind]
  show some (change n).id = some folder
  rw [hchange.id, hid]

theorem trans {g'' : Graph} (h : g.GrowsTo g') (h' : g'.GrowsTo g'') : g.GrowsTo g'' := by
  obtain ⟨change, added, hchange, hnodes, hnew⟩ := h
  obtain ⟨change', added', hchange', hnodes', hnew'⟩ := h'
  refine ⟨change' ∘ change, added.map change' ++ added', hchange'.comp hchange, ?_, ?_⟩
  · rw [hnodes', hnodes, List.map_append, List.map_map, List.append_assoc]
  · intro a ha
    obtain ha | ha := List.mem_append.1 ha
    · obtain ⟨first, hfirst, rfl⟩ := List.mem_map.1 ha
      rw [hchange'.id]
      exact hnew first hfirst
    · intro hold
      apply hnew' a ha
      rw [hnodes, idsOf_append, hchange.idsOf_map]
      exact List.mem_append_left _ hold

/-- A node of the smaller graph has the same kind in the larger one. -/
theorem kind_eq (h : g.GrowsTo g') {id : NodeId} (hid : id ∈ idsOf g.nodes) :
    (nodeWithId? g'.nodes id).map (·.kind) = (nodeWithId? g.nodes id).map (·.kind) := by
  obtain ⟨change, added, hchange, hnodes, hnew⟩ := h
  have hnotMem : id ∉ idsOf added := by
    intro hmem
    obtain ⟨a, ha, rfl⟩ := mem_idsOf.1 hmem
    exact hnew a ha hid
  rw [hnodes, nodeWithId?_append hnotMem, nodeWithId?_map hchange.id, Option.map_map]
  simp only [Function.comp_def, hchange.kind]

/-- So a question about the kind at the end of a connection has the same answer. -/
theorem any_kind_eq (h : g.GrowsTo g') {id : NodeId} (hid : id ∈ idsOf g.nodes)
    (test : Kind → Bool) :
    (nodeWithId? g'.nodes id).any (fun n => test n.kind) =
      (nodeWithId? g.nodes id).any fun n => test n.kind := by
  have hkind := congrArg (Option.any test) (h.kind_eq hid)
  rwa [Option.any_map, Option.any_map] at hkind

/-- A connection of the smaller graph leads into a folder of the larger one only if it did so. -/
theorem leadsIntoFolder (h : g.GrowsTo g') {e : Connection} (he : e.target ∈ idsOf g.nodes) :
    g'.leadsIntoFolder e = g.leadsIntoFolder e :=
  h.any_kind_eq he (· == .folder)

/-- A node of the larger graph with an old id has its old kind. -/
theorem exists_old (h : g.GrowsTo g') {n : Node} (hn : n ∈ g'.nodes) (hold : n.id ∈ idsOf g.nodes) :
    ∃ m ∈ g.nodes, m.id = n.id ∧ m.kind = n.kind ∧ m.title = n.title := by
  obtain ⟨change, added, hchange, hnodes, hnew⟩ := h
  rw [hnodes, List.mem_append, List.mem_map] at hn
  obtain ⟨m, hm, rfl⟩ | hn := hn
  · exact ⟨m, hm, (hchange.id m).symm, (hchange.kind m).symm, (hchange.title m).symm⟩
  · exact absurd hold (hnew n hn)

/-- What is filed stays filed while its filings stay. -/
theorem filed (h : g.GrowsTo g') (hsound : g.Sound) {id folder : NodeId}
    (hid : id ∈ idsOf g.nodes) (hfilings : g'.filings id = g.filings id)
    (hfiled : g.Filed id folder) : g'.Filed id folder := by
  constructor
  · intro e he hleads
    rw [hfilings] at he
    have htarget := (hsound.ends_live e (mem_filings.1 he).1).2
    rw [h.leadsIntoFolder htarget] at hleads
    exact hfiled.only e he hleads
  · intro n hn hnid hcode
    rw [hfilings]
    obtain ⟨m, hm, hmid, hkind, -⟩ := h.exists_old hn (hnid ▸ hid)
    exact hfiled.code m hm (hmid.trans hnid) (hkind.trans hcode)

end GrowsTo

end Graph

namespace Batch

/-- What a batch keeps to that started from a sound graph with ids of its own. -/
structure Regular (before : List Connection) (ids : IdSource) (b : Batch) : Prop where
  tidy : b.Tidy
  sound : b.graph.Sound
  traced : Traced before ids b
  apart : Connection.IdsApart ids before

theorem keeps_regular (before : List Connection) (ids : IdSource) : Keeps (Regular before ids) := by
  have hmoving := keeps_tidy.and (Graph.keeps_sound.and (keeps_traced before ids))
  have hfixed := Keeps.const (Connection.IdsApart ids before)
  refine (hmoving.and hfixed).congr fun b => ⟨?_, ?_⟩
  · rintro ⟨⟨tidy, sound, traced⟩, apart⟩
    exact ⟨tidy, sound, traced, apart⟩
  · intro h
    exact ⟨⟨h.tidy, h.sound, h.traced⟩, h.apart⟩

theorem regular_start {g : Graph} {ids : IdSource} (hsound : g.Sound) (hfresh : ids.FreshFor g)
    (hmade : ∀ e ∈ g.connections, ∀ node direction role, e.id ≠ Port.idOf node direction role) :
    Regular g.connections ids (start g ids) where
  tidy := tidy_start hsound.ids_nodup hfresh
  sound := hsound
  traced := ⟨Nat.le_refl _, fun _ he => .inl he⟩
  apart := ⟨hmade, fun e he number hnumber => hfresh.connections _ number hnumber e he⟩

/-- What is needed to follow every file of a batch: the connections that were there have ids that
name one connection each. -/
structure Followed (before : List Connection) (ids : IdSource) (b : Batch) : Prop
    extends Regular before ids b where
  once : NamedOnce before

/-- Every command keeps a batch followed. -/
theorem keeps_followed (before : List Connection) (ids : IdSource) :
    Keeps (Followed before ids) := by
  have hfixed := Keeps.const (NamedOnce before)
  exact ((keeps_regular before ids).and hfixed).congr fun b =>
    ⟨fun h => ⟨h.1, h.2⟩, fun h => ⟨h.toRegular, h.once⟩⟩

variable {before : List Connection} {ids : IdSource} {b : Batch} {c : BatchContext}

/-! ## Wiring -/

theorem filings_wire_of_ne {source : Node} {id : NodeId} (h : id ≠ source.id) (target : Node)
    (role : Role) : (b.wire source target role).2.graph.filings id = b.graph.filings id := by
  obtain hsame | ⟨edge, hmore, hsource, -, -, -⟩ := connections_wire_cases b source target role
  · rw [Graph.filings, hsame]
    rfl
  · have hout : (edge.source == id) = false := by
      rw [beq_eq_false_iff_ne, hsource]
      exact Ne.symm h
    rw [Graph.filings, hmore, List.filter_append, List.filter_cons, hout]
    exact List.append_nil _

/-- An import is no filing. -/
theorem filings_wire_imports (source target : Node) (id : NodeId) :
    (b.wire source target Role.imports).2.graph.filings id = b.graph.filings id := by
  obtain hsame | ⟨edge, hmore, -, -, hport, -⟩ :=
    connections_wire_cases b source target Role.imports
  · rw [Graph.filings, hsame]
    rfl
  · rw [Graph.filings, hmore, List.filter_append, List.filter_cons, hport,
      Port.not_matchesRole_imports, Bool.and_false]
    exact List.append_nil _

theorem mem_filings_wire {source target : Node} {role : Role} {e : Connection} {id : NodeId}
    (h : e ∈ (b.wire source target role).2.graph.filings id) :
    e ∈ b.graph.filings id ∨ e.target = target.id := by
  rw [Graph.mem_filings] at h
  obtain hsame | ⟨edge, hmore, -, htarget, -, -⟩ := connections_wire_cases b source target role
  · rw [hsame] at h
    exact .inl (Graph.mem_filings.2 h)
  · rw [hmore, List.mem_append, List.mem_singleton] at h
    obtain ⟨he | rfl, hrest⟩ := h
    · exact .inl (Graph.mem_filings.2 ⟨he, hrest⟩)
    · exact .inr htarget

/-- What can be wired from lies in the folder afterwards. -/
theorem exists_filing_wire {source target : Node} {port : Text}
    (h : source.outputPort? = some port) (hsource : source.id ∈ idsOf b.graph.nodes)
    (htarget : target.id ∈ idsOf b.graph.nodes) :
    ∃ e ∈ (b.wire source target Role.files).2.graph.filings source.id, e.target = target.id := by
  obtain ⟨edge, hedge, hfrom, hto, hport⟩ :=
    exists_edge_wire h hsource htarget (Port.not_isSingularInput_files target.id)
  refine ⟨edge, Graph.mem_filings.2 ⟨hedge, hfrom, ?_⟩, hto⟩
  rw [hport]
  exact Port.matchesRole_files target.id

/-! ## Taking a file out of where it is -/

theorem isStructural_of_leadsIntoFolder (ht : b.Tidy) {e : Connection}
    (h : b.graph.leadsIntoFolder e = true) : b.isStructural e = true := by
  rw [Graph.leadsIntoFolder, Option.any_eq_true] at h
  obtain ⟨n, hlook, hfolder⟩ := h
  rw [isStructural, kindOf?, ht.nodes_eq, hlook]
  show (n.kind == .folder || n.kind == .code) = true
  rw [hfolder, Bool.true_or]

theorem filings_detach_of_ne (h : Followed c.before ids b) {id other : NodeId} (hne : other ≠ id) :
    (b.detach c id).graph.filings other = b.graph.filings other := by
  rw [Graph.filings, connections_detach_of_traced h.traced h.once h.apart, List.filter_filter]
  apply List.filter_congr
  intro e _
  by_cases hsource : e.source = other
  · have hnot : (b.structural c id).contains e = false := by
      rw [List.contains_eq_mem, decide_eq_false_iff_not]
      intro hmem
      exact hne (hsource.symm.trans (mem_structural.1 hmem).2.1)
    rw [hnot, Bool.not_false, Bool.and_true]
  · have hout : (e.source == other) = false := beq_eq_false_iff_ne.2 hsource
    rw [hout, Bool.false_and, Bool.false_and]

/-- The file leaves every folder in which it lay before the batch. -/
theorem mem_filings_detach (h : Followed c.before ids b) {id : NodeId} {e : Connection}
    (he : e ∈ (b.detach c id).graph.filings id) :
    e ∈ b.graph.filings id ∧ ¬(e ∈ c.before ∧ b.graph.leadsIntoFolder e = true) := by
  rw [Graph.mem_filings, connections_detach_of_traced h.traced h.once h.apart, List.mem_filter,
    Bool.not_eq_true', List.contains_eq_mem, decide_eq_false_iff_not] at he
  obtain ⟨⟨hmem, hkept⟩, hsource, hport⟩ := he
  refine ⟨Graph.mem_filings.2 ⟨hmem, hsource, hport⟩, ?_⟩
  rintro ⟨hbefore, hleads⟩
  exact hkept (mem_structural.2 ⟨hbefore, hsource, isStructural_of_leadsIntoFolder h.tidy hleads⟩)

/-! ## Folders -/

theorem find?_folder (h : b.Tidy) (title : Text) :
    (b.find? title [.folder]).map (·.id) = b.graph.folderId? title := by
  rw [find?, h.nodes_eq, Graph.folderId?]
  simp only [List.contains_cons, List.contains_nil, Bool.or_false]

/-- The folder is there, or it is the new last node. -/
theorem ensureFolder_cases (h : b.Tidy) (title : Text) (position : Position) :
    let made := b.ensureFolder title position
    b.graph.folderId? title = some made.1.id ∧ made.2.graph.nodes = b.graph.nodes ∨
      b.graph.folderId? title = none ∧ made.1.id ∉ idsOf b.graph.nodes ∧ made.1.title = title ∧
        made.1.kind = .folder ∧ made.2.graph.nodes = b.graph.nodes ++ [made.1] := by
  have hlook := find?_folder h title
  unfold ensureFolder
  split
  · next folder hfind =>
      rw [hfind] at hlook
      exact .inl ⟨hlook.symm, rfl⟩
  · next hfind =>
      rw [hfind] at hlook
      let request : NodeRequest := { kind := .folder, title := some title, position }
      exact .inr ⟨hlook.symm, h.id_add_notMem request rfl, rfl, rfl, h.nodes_add request rfl⟩

theorem nodes_ensureFolder (h : b.Tidy) (title : Text) (position : Position) :
    ∃ added, (b.ensureFolder title position).2.graph.nodes = b.graph.nodes ++ added ∧
      ∀ a ∈ added, a.kind = .folder ∧ a.title = title ∧ a.id ∉ idsOf b.graph.nodes := by
  obtain ⟨-, hsame⟩ | ⟨-, hnew, htitle, hkind, hmore⟩ := ensureFolder_cases h title position
  · exact ⟨[], by rw [hsame, List.append_nil], by simp⟩
  · refine ⟨[(b.ensureFolder title position).1], hmore, fun a ha => ?_⟩
    rw [List.mem_singleton.1 ha]
    exact ⟨hkind, htitle, hnew⟩

theorem growsTo_add (h : b.Tidy) (request : NodeRequest) (hid : request.id = none) :
    b.graph.GrowsTo (b.add request).2.graph := by
  refine .of_nodes_eq_append (h.nodes_add request hid) fun a ha => ?_
  rw [List.mem_singleton.1 ha]
  exact h.id_add_notMem request hid

theorem growsTo_ensureFolder (h : b.Tidy) (title : Text) (position : Position) :
    b.graph.GrowsTo (b.ensureFolder title position).2.graph := by
  obtain ⟨added, hadded, hnew⟩ := nodes_ensureFolder h title position
  exact .of_nodes_eq_append hadded fun a ha => (hnew a ha).2.2

@[simp] theorem connections_ensureFolder (b : Batch) (title : Text) (position : Position) :
    (b.ensureFolder title position).2.graph.connections = b.graph.connections := by
  unfold ensureFolder
  split
  · rfl
  · rfl

/-- The folder that is used is the first one with the title. -/
theorem folderId?_ensureFolder (h : b.Tidy) (title : Text) (position : Position) :
    (b.ensureFolder title position).2.graph.folderId? title =
      some (b.ensureFolder title position).1.id := by
  obtain ⟨hthere, hsame⟩ | ⟨hmissing, -, htitle, hkind, hmore⟩ :=
    ensureFolder_cases h title position
  · rw [Graph.folderId?, hsame]
    exact hthere
  · exact Graph.folderId?_append_new hmissing hmore htitle hkind

/-! ## Filing -/

@[simp] theorem nodes_linkAnchor (b : Batch) (c : BatchContext) (file folder : Node) :
    (b.linkAnchor c file folder).graph.nodes = b.graph.nodes := by
  unfold linkAnchor
  split
  · split
    · rfl
    · exact nodes_wire _ _ _ _
  · rfl

@[simp] theorem filings_linkAnchor (b : Batch) (c : BatchContext) (file folder : Node)
    (id : NodeId) : (b.linkAnchor c file folder).graph.filings id = b.graph.filings id := by
  unfold linkAnchor
  split
  · split
    · rfl
    · exact filings_wire_imports _ _ _
  · rfl

/-- Filing a file makes the folder if need be, and leaves the nodes alone otherwise. -/
theorem nodes_file (b : Batch) (c : BatchContext) (n : Node) (title : Text) :
    (b.file c n title).graph.nodes =
      (b.ensureFolder title (b.nearAnchor c c.placement.folderOffset)).2.graph.nodes := by
  let made := b.ensureFolder title (b.nearAnchor c c.placement.folderOffset)
  show (Batch.linkAnchor _ c n made.1).graph.nodes = made.2.graph.nodes
  rw [nodes_linkAnchor]
  show ((made.2.detach c n.id).wire n made.1 Role.files).2.graph.nodes = made.2.graph.nodes
  rw [nodes_wire, nodes_detach]

/-- What putting a file into a folder does to the graph. -/
structure FiledFrom (before : List Connection) (g : Graph) (id : NodeId) (title : Text)
    (g' : Graph) : Prop where
  /-- At most the folder is new. -/
  nodes : ∃ added, g'.nodes = g.nodes ++ added ∧
    ∀ a ∈ added, a.kind = .folder ∧ a.title = title ∧ a.id ∉ idsOf g.nodes
  others : ∀ other, other ≠ id → g'.filings other = g.filings other
  /-- Of the folders that the file lay in, only those stay that it came to during the batch. -/
  own : ∃ folder, g'.folderId? title = some folder ∧
    (∀ e ∈ g'.filings id, e.target = folder ∨
      e ∈ g.filings id ∧ ¬(e ∈ before ∧ g.leadsIntoFolder e = true)) ∧
    ∀ n ∈ g.nodes, n.id = id → n.kind = .code → ∃ e ∈ g'.filings id, e.target = folder

theorem FiledFrom.growsTo {g g' : Graph} {id : NodeId} {title : Text}
    (h : FiledFrom before g id title g') : g.GrowsTo g' := by
  obtain ⟨added, hnodes, hadded⟩ := h.nodes
  exact .of_nodes_eq_append hnodes fun a ha => (hadded a ha).2.2

theorem filedFrom_file (h : Followed c.before ids b) {n : Node}
    (hn : ∃ m ∈ b.graph.nodes, m.id = n.id ∧ m.kind = n.kind) (title : Text) :
    FiledFrom c.before b.graph n.id title (b.file c n title).graph := by
  let position := b.nearAnchor c c.placement.folderOffset
  let folder := (b.ensureFolder title position).1
  let b' := (b.ensureFolder title position).2
  obtain ⟨m, hm, hmid, hmkind⟩ := hn
  have hb' : Followed c.before ids b' := (keeps_followed c.before ids).ensureFolder h title position
  obtain ⟨added, hadded, hnew⟩ := nodes_ensureFolder h.tidy title position
  have hgrows : b.graph.GrowsTo b'.graph := growsTo_ensureFolder h.tidy title position
  have hnodes : (b.file c n title).graph.nodes = b'.graph.nodes := nodes_file b c n title
  have hfilings : ∀ id, (b.file c n title).graph.filings id =
      ((b'.detach c n.id).wire n folder Role.files).2.graph.filings id :=
    fun id => filings_linkAnchor _ c n folder id
  have hkept : ∀ id, b'.graph.filings id = b.graph.filings id := by
    intro id
    rw [Graph.filings, connections_ensureFolder]
    rfl
  have hfolder : b'.graph.folderId? title = some folder.id :=
    folderId?_ensureFolder h.tidy title position
  refine ⟨⟨added, hnodes.trans hadded, hnew⟩, ?_, folder.id, ?_, ?_, ?_⟩
  · intro other hother
    rw [hfilings, filings_wire_of_ne hother, filings_detach_of_ne hb' hother, hkept]
  · rw [Graph.folderId?, hnodes]
    exact hfolder
  · intro e he
    rw [hfilings] at he
    refine (mem_filings_wire he).symm.imp_right fun he => ?_
    obtain ⟨hmem, hleft⟩ := mem_filings_detach hb' he
    rw [hkept] at hmem
    have htarget := (h.sound.ends_live e (Graph.mem_filings.1 hmem).1).2
    rw [hgrows.leadsIntoFolder htarget] at hleft
    exact ⟨hmem, hleft⟩
  · intro m' hm' hmid' hcode
    have hsame : m' = m := eq_of_mem_of_id_eq h.sound.ids_nodup hm' hm (hmid'.trans hmid.symm)
    have hcode : n.kind = .code := by rw [← hmkind, ← hsame, hcode]
    obtain ⟨f, hf, hfid, -, -⟩ := Graph.exists_of_folderId? hfolder
    have hsource : n.id ∈ idsOf (b'.detach c n.id).graph.nodes := by
      rw [nodes_detach, hadded, idsOf_append, ← hmid]
      exact List.mem_append_left _ (mem_idsOf_of_mem hm)
    have htarget : folder.id ∈ idsOf (b'.detach c n.id).graph.nodes := by
      rw [nodes_detach, ← hfid]
      exact mem_idsOf_of_mem hf
    rw [hfilings]
    exact exists_filing_wire (Node.outputPort?_of_code hcode) hsource htarget

/-- A file that was only ever put into one folder during the batch, and is put there again or for
the first time, lies in no other folder. -/
theorem FiledFrom.filed {g g' : Graph} {id folder : NodeId} {title : Text}
    (h : FiledFrom before g id title g') (hsound : g.Sound) (hid : id ∈ idsOf g.nodes)
    (hfolder : g'.folderId? title = some folder)
    (hold : ∀ e ∈ g.filings id, g.leadsIntoFolder e = true → e ∈ before ∨ e.target = folder) :
    g'.Filed id folder := by
  obtain ⟨folder', hfolder', hown, hcode⟩ := h.own
  have hsame : folder' = folder := by
    rw [hfolder, Option.some.injEq] at hfolder'
    exact hfolder'.symm
  subst hsame
  constructor
  · intro e he hleads
    obtain htarget | ⟨hmem, hkept⟩ := hown e he
    · exact htarget
    · have htarget := (hsound.ends_live e (Graph.mem_filings.1 hmem).1).2
      rw [h.growsTo.leadsIntoFolder htarget] at hleads
      exact (hold e hmem hleads).resolve_left fun hbefore => hkept ⟨hbefore, hleads⟩
  · intro n hn hnid hkind
    obtain ⟨m, hm, hmid, hmkind, -⟩ := h.growsTo.exists_old hn (hnid ▸ hid)
    exact hcode m hm (hmid.trans hnid) (hmkind.trans hkind)

end Batch

/-! ## The path of a filed node -/

namespace Path

variable {g g' : Graph} {n : Node} {folder : NodeId} {title : Text}

theorem folderOf_eq_findSome? (g : Graph) (n : Node) :
    folderOf n g.nodes g.connections =
      (g.filings n.id).findSome? fun e =>
        (nodeWithId? g.nodes e.target).filter (·.kind == .folder) :=
  rfl

/-- A node of a folder lies below it, or at its title when it cannot lie in a folder. -/
theorem pathOf_of_filed (hsound : g.Sound) (hfolder : g.folderId? title = some folder)
    (hfiled : g.Filed n.id folder) :
    pathOf n g.nodes g.connections = title ++ "/" ++ n.title ∨
      pathOf n g.nodes g.connections = n.title := by
  cases h : folderOf n g.nodes g.connections with
  | none =>
      rw [pathOf, h]
      exact .inr rfl
  | some f =>
      rw [folderOf_eq_findSome?] at h
      obtain ⟨e, he, hlook⟩ := List.exists_of_findSome?_eq_some h
      obtain ⟨hlook, hkind⟩ := Option.filter_eq_some_iff.1 hlook
      have hleads : g.leadsIntoFolder e = true := by
        rw [Graph.leadsIntoFolder, hlook]
        exact hkind
      obtain ⟨m, hm, hmid, hmtitle, -⟩ := Graph.exists_of_folderId? hfolder
      rw [hfiled.only e he hleads, ← hmid, nodeWithId?_of_mem hsound.ids_nodup hm,
        Option.some.injEq] at hlook
      subst hlook
      rw [pathOf, folderOf_eq_findSome?, h]
      left
      show m.title ++ "/" ++ n.title = _
      rw [hmtitle]

/-- A code file of a folder lies below it. -/
theorem pathOf_of_filed_code (hsound : g.Sound) (hfolder : g.folderId? title = some folder)
    (hfiled : g.Filed n.id folder) (hn : n ∈ g.nodes) (hcode : n.kind = .code) :
    pathOf n g.nodes g.connections = title ++ "/" ++ n.title := by
  obtain ⟨e, he, htarget⟩ := hfiled.code n hn rfl hcode
  obtain ⟨m, hm, hmid, -, hmkind⟩ := Graph.exists_of_folderId? hfolder
  have hsome : (folderOf n g.nodes g.connections).isSome = true := by
    rw [folderOf_eq_findSome?, List.isSome_findSome?, List.any_eq_true]
    refine ⟨e, he, ?_⟩
    rw [htarget, ← hmid, nodeWithId?_of_mem hsound.ids_nodup hm, Option.filter_some]
    simp [hmkind]
  refine (pathOf_of_filed hsound hfolder hfiled).resolve_right fun htitle => ?_
  obtain ⟨f, hf⟩ := Option.isSome_iff_exists.1 hsome
  rw [pathOf, hf] at htitle
  have hlength := congrArg Text.length htitle
  simp only [Text.length_append] at hlength
  have : (Text.ofString "/").length = 1 := rfl
  omega

/-- While its filings stay, the path of a node stays. -/
theorem pathOf_eq_of_filings_eq (hfilings : g'.filings n.id = g.filings n.id) :
    pathOf n g'.nodes g'.connections = pathOf n g'.nodes g.connections := by
  rw [pathOf, folderOf_eq_findSome?, hfilings]
  rfl

end Path
end LiveCanvas
