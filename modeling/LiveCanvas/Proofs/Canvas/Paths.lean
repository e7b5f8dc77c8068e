import LiveCanvas.Canvas.Path
import LiveCanvas.Proofs.Canvas.NodeList
import LiveCanvas.Proofs.Text.Cut

/-!
# Paths in a changing project

A path is made of ids, kinds and titles of nodes and of the ends of connections.  Changes that leave
these alone leave every path as it is, and nodes that are added at the end and have no connections
yet lie at their titles.
-/

namespace LiveCanvas

/-- The change leaves alone what a path is made of. -/
structure KeepsNames (f : Node → Node) : Prop where
  id : ∀ n, (f n).id = n.id
  kind : ∀ n, (f n).kind = n.kind
  title : ∀ n, (f n).title = n.title

namespace KeepsNames

theorem refl : KeepsNames fun n => n := ⟨fun _ => rfl, fun _ => rfl, fun _ => rfl⟩

theorem comp {f f' : Node → Node} (h : KeepsNames f) (h' : KeepsNames f') : KeepsNames (f ∘ f') :=
  ⟨fun n => (h.id (f' n)).trans (h'.id n), fun n => (h.kind (f' n)).trans (h'.kind n),
    fun n => (h.title (f' n)).trans (h'.title n)⟩

theorem idsOf_map {f : Node → Node} (h : KeepsNames f) (nodes : List Node) :
    idsOf (nodes.map f) = idsOf nodes := by
  rw [idsOf, List.map_map]
  exact List.map_congr_left fun n _ => h.id n

end KeepsNames

/-- The change leaves alone where a connection leads. -/
structure KeepsEnds (f : Connection → Connection) : Prop where
  source : ∀ c, (f c).source = c.source
  target : ∀ c, (f c).target = c.target
  targetPort : ∀ c, (f c).targetPort = c.targetPort

theorem keepsEnds_id : KeepsEnds id := ⟨fun _ => rfl, fun _ => rfl, fun _ => rfl⟩

theorem nodeWithId?_map {f : Node → Node} (hid : ∀ n, (f n).id = n.id) (nodes : List Node)
    (id : NodeId) : nodeWithId? (nodes.map f) id = (nodeWithId? nodes id).map f := by
  rw [nodeWithId?, ← List.map_reverse, List.find?_map]
  simp only [Function.comp_def, hid]
  rfl

theorem nodeWithId?_append {nodes more : List Node} {id : NodeId} (h : id ∉ idsOf more) :
    nodeWithId? (nodes ++ more) id = nodeWithId? nodes id := by
  rw [nodeWithId?, List.reverse_append, List.find?_append]
  rw [find?_eq_none_of_notMem_idsOf (by simpa [idsOf] using h), Option.none_or]
  rfl

theorem nodeWithId?_of_mem {nodes : List Node} (hnodup : (idsOf nodes).Nodup) {n : Node}
    (hn : n ∈ nodes) : nodeWithId? nodes n.id = some n := by
  refine find?_of_nodup_map ?_ (List.mem_reverse.2 hn)
  rw [List.map_reverse, List.nodup_reverse]
  exact hnodup

/-- What feeds a role stays the same when nodes keep their ids and connections their ends. -/
theorem Traversal.allSources_map {f : Node → Node} {e : Connection → Connection}
    (hid : ∀ n, (f n).id = n.id) (he : KeepsEnds e) (nodes : List Node)
    (connections : List Connection) (node : NodeId) (role : Role) :
    allSources node role (nodes.map f) (connections.map e) =
      (allSources node role nodes connections).map f := by
  simp only [allSources, List.filter_map, Function.comp_def, feeds, he.target, he.targetPort,
    List.filterMap_map, List.map_filterMap, he.source, nodeWithId?_map hid]

namespace Path

/-! ## Splitting a path -/

theorem split_of_slash_notMem {path : Text} (h : .char '/' ∉ path.toList) :
    split path = (path, none) := by
  rw [split, Text.cutLast?_eq_none h]

/-- The file name of a path has no slash. -/
theorem slash_notMem_split (path : Text) : .char '/' ∉ (split path).1.toList := by
  unfold split
  split
  · next hcut =>
      intro hmem
      obtain ⟨front, back, -, -, hsome⟩ := Text.exists_cutLast? hmem
      rw [hsome] at hcut
      cases hcut
  · next front back hcut =>
      simpa using (Text.cutLast?_eq_some hcut).2

/-- A path with a folder is the folder, a slash and the file. -/
theorem split_eq_some {path file folder : Text} (h : split path = (file, some folder)) :
    path = folder ++ "/" ++ file ∧ .char '/' ∉ file.toList := by
  unfold split at h
  split at h
  · cases h
  · next front back hcut =>
      obtain ⟨hpath, hback⟩ := Text.cutLast?_eq_some hcut
      rw [Prod.mk.injEq] at h
      obtain ⟨rfl, hfolder⟩ := h
      split at hfolder
      · cases hfolder
      · rw [Option.some.injEq] at hfolder
        subst hfolder
        refine ⟨?_, by simpa using hback⟩
        rw [← Text.toList_inj, hpath]
        simp

/-! ## Changes of nodes and connections -/

section Map

variable {f : Node → Node} {e : Connection → Connection} (hf : KeepsNames f) (he : KeepsEnds e)
  (nodes : List Node) (connections : List Connection)

include hf he

theorem folderOf_map (n : Node) :
    folderOf (f n) (nodes.map f) (connections.map e) = (folderOf n nodes connections).map f := by
  simp only [folderOf, List.filter_map, Function.comp_def, he.source, he.targetPort, hf.id,
    List.findSome?_map, he.target, nodeWithId?_map hf.id, Option.filter_map, hf.kind]
  exact List.map_findSome?.symm

theorem pathOf_map (n : Node) :
    pathOf (f n) (nodes.map f) (connections.map e) = pathOf n nodes connections := by
  simp only [pathOf, folderOf_map hf he]
  cases folderOf n nodes connections with
  | none => exact hf.title n
  | some folder =>
      simp only [Option.map_some]
      rw [hf.title, hf.title]

theorem resolve_map (path : Text) :
    resolve path (nodes.map f) (connections.map e) = (resolve path nodes connections).map f := by
  simp only [resolve, List.find?_map, Function.comp_def, hf.title, pathOf_map hf he]
  cases nodes.find? fun n => n.title == path with
  | some n => rfl
  | none => rfl

end Map

/-! ## Nodes at the end -/

section Append

variable {nodes more : List Node} {connections : List Connection}

theorem folderOf_append (h : ∀ c ∈ connections, c.target ∉ idsOf more) (n : Node) :
    folderOf n (nodes ++ more) connections = folderOf n nodes connections := by
  unfold folderOf
  rw [← List.head?_filterMap, ← List.head?_filterMap]
  congr 1
  apply List.filterMap_congr
  intro c hc
  rw [nodeWithId?_append (h c (List.mem_filter.1 hc).1)]

theorem pathOf_append (h : ∀ c ∈ connections, c.target ∉ idsOf more) (n : Node) :
    pathOf n (nodes ++ more) connections = pathOf n nodes connections := by
  rw [pathOf, folderOf_append h]
  rfl

/-- A node that no connection leaves lies at its title. -/
theorem pathOf_of_no_source {n : Node} (h : ∀ c ∈ connections, c.source ≠ n.id) :
    pathOf n nodes connections = n.title := by
  have hnone : connections.filter (fun c => c.source == n.id &&
      Port.matchesRole c.targetPort Role.files) = [] := by
    rw [List.filter_eq_nil_iff]
    intro c hc
    simp [h c hc]
  rw [pathOf, folderOf, hnone]
  rfl

end Append

end Path
end LiveCanvas
