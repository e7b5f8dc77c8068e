import LiveCanvas.Proofs.Edit.FolderEdges

/-!
# Where a file lies during a batch

Until a batch puts a file somewhere, the file has no edges into folders but those from before the
batch, and being taken out of where it is takes all of these away.  An edge that the batch makes has
an id and ports that no connection from before has as its id, so it stays as long as the file does.
-/

namespace LiveCanvas

/-- The connection puts its source into a folder, and its id was still to come. -/
structure Connection.PutsFrom (ids : IdSource) (e : Connection) : Prop where
  id : ∃ number, ids.next ≤ number ∧ e.id = IdSource.name idStem number
  sourcePort : e.sourcePort = Port.idOf e.source .output Role.dom
  targetPort : e.targetPort = Port.inputId e.target Role.files

theorem Connection.PutsFrom.not_isNamed {ids : IdSource} {connections : List Connection}
    {e edge : Connection} (h : e.PutsFrom ids) (hapart : IdsApart ids connections)
    (hedge : edge ∈ connections) : e.isNamed edge.id = false := by
  obtain ⟨number, hnumber, hid⟩ := h.id
  simp only [isNamed, Bool.or_eq_false_iff, beq_eq_false_iff_ne]
  refine ⟨⟨?_, ?_⟩, ?_⟩
  · exact hid ▸ hapart.unused edge hedge number hnumber
  · exact h.sourcePort ▸ hapart.ports edge hedge _ _ _
  · exact h.targetPort ▸ hapart.ports edge hedge _ _ _

namespace Batch

variable {before : List Connection} {ids : IdSource} {b b' : Batch} {c : BatchContext}
  {changes : NodeId → Prop} {id : NodeId}

/-! ## What stays the same -/

/-- The id is not among those to come, and a node that has it is of this kind. -/
structure Known (id : NodeId) (kind : Kind) (b : Batch) : Prop where
  taken : ∀ stem number, b.ids.next ≤ number → IdSource.name stem number ≠ id
  kind : ∀ n ∈ b.graph.nodes, n.id = id → n.kind = kind

theorem Known.modify {kind : Kind} (h : Known id kind b) (target : NodeId) (change : Node → Node)
    (hid : ∀ n, (change n).id = n.id) (hkind : ∀ n, (change n).kind = n.kind) :
    Known id kind (b.onGraph fun g => g.modifyNode target change) := by
  refine ⟨h.taken, fun n hn hnid => ?_⟩
  obtain ⟨m, hm, rfl⟩ := List.mem_map.1 hn
  by_cases htarget : m.id = target
  · rw [if_pos htarget, hid] at hnid
    rw [if_pos htarget, hkind]
    exact h.kind m hm hnid
  · rw [if_neg htarget] at hnid ⊢
    exact h.kind m hm hnid

theorem keeps_known (id : NodeId) (kind : Kind) : Keeps (Known id kind) where
  report _ _ _ _ h := ⟨h.taken, h.kind⟩
  add b request hid h := by
    refine ⟨fun stem number hnumber => h.taken stem number ?_, fun n hn hnid => ?_⟩
    · rw [next_add b hid] at hnumber
      exact Nat.le_of_succ_le hnumber
    · obtain hn | rfl := Graph.mem_placeNode hn
      · exact h.kind n hn hnid
      · have hnew := (id_create hid b.ids).1
        exact absurd (hnew.symm.trans hnid) (h.taken _ b.ids.next (Nat.le_refl _))
  remove b id h := by
    refine ⟨h.taken, fun n hn hnid => ?_⟩
    change n ∈ (b.graph.removeNode id).nodes at hn
    unfold Graph.removeNode at hn
    split at hn
    · obtain ⟨m, hm, rfl⟩ := List.mem_map.1 hn
      exact h.kind m (List.mem_filter.1 hm).1 hnid
    · exact h.kind n hn hnid
  wire b source target role h := by
    have hnext := next_le_wire b source target role
    refine ⟨fun stem number hnumber => h.taken stem number (Nat.le_trans hnext hnumber), ?_⟩
    rw [nodes_wire]
    exact h.kind
  disconnect _ _ h := ⟨h.taken, h.kind⟩
  setContent _ target content h :=
    h.modify target (fun n => { n with content }) (fun _ => rfl) (fun _ => rfl)
  setTitle _ target title h :=
    h.modify target (fun n => { n with title }) (fun _ => rfl) (fun _ => rfl)

/-- Every node of the graph is known by its kind. -/
theorem known_of_mem (h : b.Tidy) {n : Node} (hn : n ∈ b.graph.nodes) : Known n.id n.kind b where
  taken stem number hnumber heq := h.fresh.nodes stem number hnumber (heq ▸ mem_idsOf_of_mem hn)
  kind m hm hid := by rw [eq_of_mem_of_id_eq h.nodup hm hn hid]

/-- What is not there now and is no id to come will not be there: it could be of any kind. -/
theorem mem_idsOf_of_known (h : ∀ kind, Known id kind b → Known id kind b')
    (htaken : ∀ stem number, b.ids.next ≤ number → IdSource.name stem number ≠ id)
    (hlive : id ∈ idsOf b'.graph.nodes) : id ∈ idsOf b.graph.nodes := by
  by_contra hnot
  have hknown : ∀ kind, Known id kind b :=
    fun kind => ⟨htaken, fun n hn hid => absurd (hid ▸ mem_idsOf_of_mem hn) hnot⟩
  obtain ⟨n, hn, hid⟩ := mem_idsOf.1 hlive
  have hcode := (h .code (hknown .code)).kind n hn hid
  have hfolder := (h .folder (hknown .folder)).kind n hn hid
  rw [hcode] at hfolder
  cases hfolder

theorem Regular.known (h : Regular before ids b) {n : Node} (hn : n ∈ b.graph.nodes) :
    Known n.id n.kind b :=
  known_of_mem h.tidy hn

/-! ## Before the first placement -/

/-- No edit adds an edge into a folder. -/
theorem folderEdges_edits_subset (h : Edits before changes b b') {ids : IdSource}
    (hregular : Regular before ids b) (id : NodeId) :
    b'.graph.folderEdges id ⊆ b.graph.folderEdges id := by
  induction h with
  | refl => exact List.Subset.refl _
  | tail hedits hedit ih =>
      have hmiddle := (keeps_regular before ids).edits hedits hregular
      obtain ⟨keeps, hedges, -⟩ := hedit.folderEdges hmiddle.tidy hmiddle.sound id
      rw [hedges]
      exact fun e he => ih (List.mem_filter.1 he).1

/-- The file leaves every folder in which it lay before the batch. -/
theorem notMem_before_of_mem_folderEdges_detach (ht : b.Tidy) {e : Connection}
    (he : e ∈ (b.detach c id).graph.folderEdges id) : e ∉ c.before := by
  intro hold
  obtain ⟨hmem, hsource, hleads⟩ := Graph.mem_folderEdges.1 he
  rw [Graph.leadsIntoFolder, nodes_detach] at hleads
  have hstructural : e ∈ b.structural c id :=
    mem_structural.2 ⟨hold, hsource, isStructural_of_leadsIntoFolder ht hleads⟩
  exact notMem_detach_of_mem_structural hstructural hmem

/-! ## After the first placement -/

/-- The node has made its way into these folders during the batch, and lies in no other. -/
structure LiesIn (ids : IdSource) (id : NodeId) (kind : Kind) (folders : List NodeId) (b : Batch) :
    Prop where
  known : Known id kind b
  edges : id ∈ idsOf b.graph.nodes → kind.isFile = true →
    (b.graph.folderEdges id).map (·.target) = folders ∧
      ∀ e ∈ b.graph.folderEdges id, e.PutsFrom ids

/-- A wire into a folder is an edge, unless there is one already. -/
theorem folderEdges_wire_files (hnodup : (idsOf b.graph.nodes).Nodup) {source folder : Node}
    {port : Text} (hport : source.outputPort? = some port)
    (hsource : source.id ∈ idsOf b.graph.nodes) (hfolder : folder ∈ b.graph.nodes)
    (hkind : folder.kind = .folder) :
    let edge := newConnection source folder Role.files port (b.ids.fresh Connection.idStem).1
    (b.wire source folder Role.files).2.graph.folderEdges source.id =
      if Connection.isListed b.graph.connections edge then b.graph.folderEdges source.id
      else b.graph.folderEdges source.id ++ [edge] := by
  intro edge
  rw [Graph.folderEdges, leadsIntoFolder_wire, connections_wire_plural hport hsource
    (mem_idsOf_of_mem hfolder) (Port.not_isSingularInput_files folder.id)]
  split
  · rfl
  · have hout : (edge.source == source.id && b.graph.leadsIntoFolder edge) = true := by
      rw [Graph.leadsIntoFolder_of_mem (n := folder) hnodup hfolder rfl, hkind, Bool.and_eq_true]
      exact ⟨beq_self_eq_true _, rfl⟩
    rw [List.filter_append, List.filter_singleton, hout]
    rfl

namespace LiesIn

variable {kind : Kind} {folders : List NodeId}

theorem wire_of_ne (h : LiesIn ids id kind folders b) {source : Node} (hne : id ≠ source.id)
    (target : Node) (role : Role) : LiesIn ids id kind folders (b.wire source target role).2 := by
  refine ⟨(keeps_known id kind).wire b source target role h.known, ?_⟩
  rw [nodes_wire, folderEdges_wire_of_ne hne]
  exact h.edges

/-- Putting the file into a folder adds the folder, unless the file is there. -/
theorem put (h : LiesIn ids id kind folders.eraseDups b) (hregular : Regular before ids b)
    {source folder : Node} (hsource : source.id = id) (hkind : source.kind = kind)
    (hfolder : folder ∈ b.graph.nodes) (hfolderKind : folder.kind = .folder) :
    LiesIn ids id kind (folders ++ [folder.id]).eraseDups (b.wire source folder Role.files).2 := by
  refine ⟨(keeps_known id kind).wire b source folder Role.files h.known, fun hlive hfile => ?_⟩
  rw [nodes_wire] at hlive
  obtain ⟨htargets, hputs⟩ := h.edges hlive hfile
  subst hsource
  have hport : source.outputPort? = some (Port.idOf source.id .output Role.dom) :=
    Node.outputPort?_of_isFile (by rw [Node.isFile, hkind, hfile])
  let edge := newConnection source folder Role.files (Port.idOf source.id .output Role.dom)
    (b.ids.fresh Connection.idStem).1
  have hputsEdge : edge.PutsFrom ids :=
    ⟨⟨b.ids.next, hregular.traced.next_le, rfl⟩, rfl, rfl⟩
  have hlisted : Connection.isListed b.graph.connections edge = true ↔ folder.id ∈ folders := by
    rw [← List.mem_eraseDups, ← htargets, List.mem_map, Connection.isListed_iff]
    constructor
    · rintro ⟨other, hother, hkey⟩
      simp only [Connection.key, Prod.mk.injEq] at hkey
      refine ⟨other, Graph.mem_folderEdges.2 ⟨hother, hkey.1, ?_⟩, hkey.2.2.1⟩
      rw [Graph.leadsIntoFolder_of_mem hregular.sound.ids_nodup hfolder hkey.2.2.1, hfolderKind]
      rfl
    · rintro ⟨other, hother, htarget⟩
      obtain ⟨hmem, hfrom, -⟩ := Graph.mem_folderEdges.1 hother
      have hother := hputs other hother
      refine ⟨other, hmem, ?_⟩
      rw [Connection.key, hother.sourcePort, hother.targetPort, hfrom, htarget]
      rfl
  rw [folderEdges_wire_files hregular.sound.ids_nodup hport hlive hfolder hfolderKind,
    List.eraseDups_append]
  by_cases hmem : folder.id ∈ folders
  · have hnone : [folder.id].removeAll folders = [] := by simp [List.removeAll, hmem]
    rw [if_pos (hlisted.2 hmem), hnone, List.eraseDups_nil, List.append_nil]
    exact ⟨htargets, hputs⟩
  · have hone : [folder.id].removeAll folders = [folder.id] := by simp [List.removeAll, hmem]
    rw [if_neg fun hl => hmem (hlisted.1 hl), hone, List.map_append, htargets]
    refine ⟨rfl, fun e he => ?_⟩
    obtain he | he := List.mem_append.1 he
    · exact hputs e he
    · exact List.mem_singleton.1 he ▸ hputsEdge

theorem edit (h : LiesIn ids id kind folders b) (hregular : Regular before ids b)
    (hedit : Edit before changes b b') : LiesIn ids id kind folders b' := by
  refine ⟨(keeps_known id kind).edit hedit h.known, fun hlive hfile => ?_⟩
  have hlived : id ∈ idsOf b.graph.nodes :=
    mem_idsOf_of_known (fun kind => (keeps_known id kind).edit hedit) h.known.taken hlive
  obtain ⟨htargets, hputs⟩ := h.edges hlived hfile
  obtain ⟨keeps, hedges, hlost⟩ := hedit.folderEdges hregular.tidy hregular.sound id
  have hall : ∀ e ∈ b.graph.folderEdges id, keeps e = true := by
    intro e he
    by_contra hkeeps
    obtain hgone | ⟨edge, hedge, -, hnamed⟩ := hlost e he (Bool.not_eq_true _ ▸ hkeeps)
    · exact hgone hlive
    · rw [(hputs e he).not_isNamed hregular.apart hedge] at hnamed
      cases hnamed
  rw [hedges, List.filter_eq_self.2 hall]
  exact ⟨htargets, hputs⟩

theorem edits (h : LiesIn ids id kind folders b) (hregular : Regular before ids b)
    (hedits : Edits before changes b b') : LiesIn ids id kind folders b' := by
  induction hedits with
  | refl => exact h
  | tail hedits hedit ih =>
      exact ih.edit ((keeps_regular before ids).edits hedits hregular) hedit

end LiesIn

end Batch
end LiveCanvas
