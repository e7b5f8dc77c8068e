import LiveCanvas.Canvas.Traversal
import LiveCanvas.Proofs.Canvas.Paths
import LiveCanvas.Proofs.Canvas.Ports

/-!
# Each node is visited once

A walk passes over the ids that it has visited.  So each id comes up once, and the closure of a node
has neither the node itself nor anything twice, whatever the lists of nodes and connections are.
With distinct ids nothing that waits is lost either: each visit takes one step of fuel and one id
off those that are left.
-/

namespace LiveCanvas
namespace Traversal

/-! ## The next node -/

section Next

variable {visited : List NodeId} {work : List Node} {n : Node}

/-- The next node of a walk was not visited. -/
theorem notMem_of_dropWhile_eq_cons {rest : List Node}
    (h : (work.dropWhile fun n => visited.contains n.id) = n :: rest) : n.id ∉ visited := by
  have hhead := List.head?_dropWhile_not (fun n : Node => visited.contains n.id) work
  rw [h] at hhead
  simpa using hhead

/-- What was not visited is not passed over. -/
theorem mem_dropWhile_of_notMem (hn : n ∈ work) (hfresh : n.id ∉ visited) :
    n ∈ work.dropWhile fun n => visited.contains n.id := by
  rw [← List.takeWhile_append_dropWhile (p := fun n : Node => visited.contains n.id) (l := work),
    List.mem_append] at hn
  refine hn.resolve_left fun hpassed => hfresh ?_
  simpa using List.mem_takeWhile_imp hpassed

end Next

/-! ## Nothing comes twice -/

/-- What is discovered was not visited before, and it is discovered once. -/
theorem discover_fresh (expand : Node → List Node) (fuel : Nat) (visited : List NodeId)
    (work : List Node) :
    (idsOf (discover expand fuel visited work)).Nodup ∧
      ∀ id ∈ idsOf (discover expand fuel visited work), id ∉ visited := by
  induction fuel generalizing visited work with
  | zero => simp [discover]
  | succ fuel ih =>
      rw [discover]
      split
      · simp
      · next n rest hwork =>
          have hfresh : n.id ∉ visited := notMem_of_dropWhile_eq_cons hwork
          obtain ⟨hnodup, hout⟩ := ih (n.id :: visited) (expand n ++ rest)
          rw [idsOf_cons, List.nodup_cons]
          refine ⟨⟨fun hid => hout _ hid List.mem_cons_self, hnodup⟩, ?_⟩
          intro id hid
          obtain rfl | hid := List.mem_cons.mp hid
          · exact hfresh
          · exact fun hvisited => hout id hid (List.mem_cons_of_mem _ hvisited)

/-- A node and what it depends on have distinct ids. -/
theorem nodup_idsOf_closure (root : Node) (nodes : List Node) (connections : List Connection) :
    (idsOf (root :: closure root nodes connections)).Nodup := by
  obtain ⟨hnodup, hout⟩ := discover_fresh (dependencies nodes connections) nodes.length [root.id]
    (dependencies nodes connections root)
  rw [idsOf_cons, List.nodup_cons]
  exact ⟨fun hroot => hout _ hroot (List.mem_singleton_self _), hnodup⟩

/-! ## Nothing is lost -/

/-- One more visited id leaves fewer that are not. -/
theorem length_unvisited_lt {ids visited : List NodeId} {id : NodeId} (hid : id ∈ ids)
    (hfresh : id ∉ visited) :
    (ids.filter (· ∉ id :: visited)).length < (ids.filter (· ∉ visited)).length := by
  have hless : ids.filter (· ∉ id :: visited) = (ids.filter (· ∉ visited)).filter (· ≠ id) := by
    rw [List.filter_filter]
    apply List.filter_congr
    intro other _
    simp
  rw [hless, List.length_filter_lt_length_iff_exists]
  exact ⟨id, List.mem_filter.mpr ⟨hid, by simpa using hfresh⟩, by simp⟩

section Complete

variable {expand : Node → List Node} {nodes : List Node} (hnodup : (idsOf nodes).Nodup)
  (hexpand : ∀ n, expand n ⊆ nodes)

include hnodup hexpand

/-- What waits is discovered, if there is a step for every id that was not visited. -/
theorem mem_discover {fuel : Nat} {visited : List NodeId} {work : List Node} (hwork : work ⊆ nodes)
    (hfuel : ((idsOf nodes).filter (· ∉ visited)).length ≤ fuel) {n : Node} (hn : n ∈ work)
    (hfresh : n.id ∉ visited) : n ∈ discover expand fuel visited work := by
  induction fuel generalizing visited work with
  | zero =>
      have hleft : n.id ∈ (idsOf nodes).filter (· ∉ visited) :=
        List.mem_filter.mpr ⟨mem_idsOf_of_mem (hwork hn), by simpa using hfresh⟩
      rw [List.length_eq_zero_iff.mp (Nat.le_zero.mp hfuel)] at hleft
      cases hleft
  | succ fuel ih =>
      have hwaits := mem_dropWhile_of_notMem hn hfresh
      have hlater : (work.dropWhile fun n => visited.contains n.id) ⊆ nodes :=
        fun m hm => hwork ((List.dropWhile_sublist _).subset hm)
      rw [discover]
      split
      · next hnone =>
          rw [hnone] at hwaits
          cases hwaits
      · next m rest hnext =>
          have hm := notMem_of_dropWhile_eq_cons hnext
          rw [hnext] at hwaits hlater
          obtain ⟨hmem, hrest⟩ := List.cons_subset.mp hlater
          obtain rfl | hwaits := List.mem_cons.mp hwaits
          · exact List.mem_cons_self
          · by_cases hid : n.id = m.id
            · rw [eq_of_mem_of_id_eq hnodup (hrest hwaits) hmem hid]
              exact List.mem_cons_self
            · have hless := length_unvisited_lt (mem_idsOf_of_mem hmem) hm
              refine List.mem_cons_of_mem _ (ih ?_ ?_ ?_ ?_)
              · exact List.append_subset.mpr ⟨hexpand m, hrest⟩
              · omega
              · exact List.mem_append_right _ hwaits
              · simpa [hid] using hfresh

end Complete

theorem mem_allSources_iff {nodes : List Node} {connections : List Connection} {id : NodeId}
    {role : Role} {n : Node} :
    n ∈ allSources id role nodes connections ↔
      ∃ c ∈ connections, feeds c id role = true ∧ nodeWithId? nodes c.source = some n := by
  simp only [allSources, List.mem_filterMap, List.mem_filter, and_assoc]

theorem allSources_subset (node : NodeId) (role : Role) (nodes : List Node)
    (connections : List Connection) : allSources node role nodes connections ⊆ nodes := by
  intro n hn
  obtain ⟨c, -, -, hlook⟩ := mem_allSources_iff.mp hn
  exact (nodeWithId?_eq_some hlook).1

/-- Sources are looked up by their ids. -/
theorem nodeWithId?_of_mem_allSources {nodes : List Node} {connections : List Connection}
    {id : NodeId} {role : Role} {n : Node} (hn : n ∈ allSources id role nodes connections) :
    nodeWithId? nodes n.id = some n := by
  obtain ⟨c, -, -, hlook⟩ := mem_allSources_iff.mp hn
  rw [(nodeWithId?_eq_some hlook).2]
  exact hlook

theorem dependencies_subset (nodes : List Node) (connections : List Connection) (n : Node) :
    dependencies nodes connections n ⊆ nodes := by
  intro m hm
  obtain ⟨source, hsource, hm⟩ := List.mem_flatMap.mp hm
  split at hm
  · exact allSources_subset _ _ _ _ hm
  · rw [List.mem_singleton.mp hm]
    exact allSources_subset _ _ _ _ hsource

theorem nodeWithId?_of_mem_dependencies {nodes : List Node} {connections : List Connection}
    {n m : Node} (hm : m ∈ dependencies nodes connections n) : nodeWithId? nodes m.id = some m := by
  obtain ⟨source, hsource, hm⟩ := List.mem_flatMap.mp hm
  split at hm
  · exact nodeWithId?_of_mem_allSources hm
  · rw [List.mem_singleton.mp hm]
    exact nodeWithId?_of_mem_allSources hsource

/-- What a node imports directly is among what it depends on. -/
theorem mem_closure_of_mem_dependencies {nodes : List Node} (hnodup : (idsOf nodes).Nodup)
    {connections : List Connection} {root n : Node} (hn : n ∈ dependencies nodes connections root)
    (hne : n.id ≠ root.id) : n ∈ closure root nodes connections := by
  refine mem_discover hnodup (dependencies_subset nodes connections)
    (dependencies_subset nodes connections root) ?_ hn (by simpa using hne)
  exact (List.length_filter_le _ _).trans_eq (by simp [idsOf])

/-! ## What a node imports directly -/

section Edges

variable {nodes : List Node} (hnodup : (idsOf nodes).Nodup) {connections : List Connection}
  {root n folder : Node} {e e' : Connection}

include hnodup

/-- A connection into a role of a node has its source among the sources. -/
theorem mem_allSources (hn : n ∈ nodes) (he : e ∈ connections) (hfrom : e.source = n.id)
    {role : Role} (hrole : Port.matchesRole e.targetPort role = true) :
    n ∈ allSources e.target role nodes connections := by
  refine mem_allSources_iff.mpr ⟨e, he, ?_, ?_⟩
  · rw [feeds, hrole, beq_self_eq_true, Bool.and_true]
  · rw [hfrom]
    exact nodeWithId?_of_mem hnodup hn

theorem mem_dependencies_of_import (hn : n ∈ nodes) (hkind : n.kind ≠ .folder)
    (he : e ∈ connections) (hfrom : e.source = n.id) (hto : e.target = root.id)
    (hrole : Port.matchesRole e.targetPort Role.imports = true) :
    n ∈ dependencies nodes connections root := by
  refine List.mem_flatMap.mpr ⟨n, ?_, ?_⟩
  · exact hto ▸ mem_allSources hnodup hn he hfrom hrole
  · rw [if_neg hkind]
    exact List.mem_singleton_self n

/-- What lies in a folder that is imported is imported. -/
theorem mem_dependencies_of_folder (hn : n ∈ nodes) (he : e ∈ connections) (hfrom : e.source = n.id)
    (hrole : Port.matchesRole e.targetPort Role.files = true) (hfolder : folder ∈ nodes)
    (hkind : folder.kind = .folder) (hto : e.target = folder.id) (he' : e' ∈ connections)
    (hfrom' : e'.source = folder.id) (hto' : e'.target = root.id)
    (hrole' : Port.matchesRole e'.targetPort Role.imports = true) :
    n ∈ dependencies nodes connections root := by
  refine List.mem_flatMap.mpr ⟨folder, ?_, ?_⟩
  · exact hto' ▸ mem_allSources hnodup hfolder he' hfrom' hrole'
  · rw [if_pos hkind, ← hto]
    exact mem_allSources hnodup hn he hfrom hrole

end Edges

end Traversal
end LiveCanvas
