import LiveCanvas.Canvas.Permission
import Mathlib.Data.List.Induction
import Mathlib.Data.List.Nodup

/-!
# Node lists and their ids

A graph keeps its nodes in a plain list in which an id is meant to stand once.  Here is what the
operations on nodes do to the ids and to the look-up by id: placing a node keeps every other one
where it was, and placing many of them one after the other leaves the last node of each id at the
place of the first.
-/

namespace LiveCanvas

/-- With distinct keys an entry is found by its key. -/
theorem find?_of_nodup_map {α β : Type} [BEq β] [LawfulBEq β] {key : α → β} {entries : List α}
    (hnodup : (entries.map key).Nodup) {a : α} (ha : a ∈ entries) :
    entries.find? (fun b => key b == key a) = some a := by
  have hsome : (entries.find? fun b => key b == key a).isSome = true := by
    rw [List.find?_isSome]
    exact ⟨a, ha, beq_self_eq_true (key a)⟩
  obtain ⟨b, hb⟩ := Option.isSome_iff_exists.1 hsome
  have hkey : key b = key a := by simpa using List.find?_some hb
  rw [hb, List.inj_on_of_nodup_map hnodup (List.mem_of_find?_eq_some hb) ha hkey]

/-- The ids of some nodes in order. -/
def idsOf (nodes : List Node) : List NodeId := nodes.map (·.id)

@[simp] theorem idsOf_nil : idsOf [] = [] := rfl

@[simp] theorem idsOf_cons (n : Node) (nodes : List Node) :
    idsOf (n :: nodes) = n.id :: idsOf nodes := rfl

@[simp] theorem idsOf_append (nodes more : List Node) :
    idsOf (nodes ++ more) = idsOf nodes ++ idsOf more := by
  simp [idsOf]

theorem mem_idsOf {nodes : List Node} {id : NodeId} :
    id ∈ idsOf nodes ↔ ∃ n ∈ nodes, n.id = id := by
  simp [idsOf]

theorem mem_idsOf_of_mem {nodes : List Node} {n : Node} (h : n ∈ nodes) : n.id ∈ idsOf nodes :=
  mem_idsOf.mpr ⟨n, h, rfl⟩

/-- With distinct ids a node is known by its id. -/
theorem eq_of_mem_of_id_eq {nodes : List Node} (hnodup : (idsOf nodes).Nodup) {n m : Node}
    (hn : n ∈ nodes) (hm : m ∈ nodes) (hid : n.id = m.id) : n = m :=
  List.inj_on_of_nodup_map hnodup hn hm hid

theorem find?_cons_id (n : Node) (nodes : List Node) (id : NodeId) :
    (n :: nodes).find? (fun m => m.id == id) =
      if n.id = id then some n else nodes.find? fun m => m.id == id := by
  by_cases h : n.id = id <;> simp [h]

theorem nodeWithId?_eq_some {nodes : List Node} {id : NodeId} {n : Node}
    (h : nodeWithId? nodes id = some n) : n ∈ nodes ∧ n.id = id :=
  ⟨List.mem_reverse.1 (List.mem_of_find?_eq_some h), by simpa using List.find?_some h⟩

theorem find?_eq_none_of_notMem_idsOf {nodes : List Node} {id : NodeId} (h : id ∉ idsOf nodes) :
    nodes.find? (fun n => n.id == id) = none := by
  rw [List.find?_eq_none]
  intro n hn hid
  exact h (mem_idsOf.mpr ⟨n, hn, by simpa using hid⟩)

/-- With distinct ids no other node has the id of one. -/
theorem filter_id_eq_singleton {nodes : List Node} (hnodup : (idsOf nodes).Nodup) {n : Node}
    (hn : n ∈ nodes) : nodes.filter (fun m => m.id == n.id) = [n] := by
  induction nodes with
  | nil => cases hn
  | cons first rest ih =>
      rw [idsOf_cons, List.nodup_cons] at hnodup
      obtain ⟨hfirst, hrest⟩ := hnodup
      obtain rfl | hn := List.mem_cons.mp hn
      · have hnone : rest.filter (fun m => m.id == n.id) = [] := by
          rw [List.filter_eq_nil_iff]
          intro m hm hid
          exact hfirst (mem_idsOf.mpr ⟨m, hm, by simpa using hid⟩)
        rw [List.filter_cons_of_pos (by simp), hnone]
      · have hne : first.id ≠ n.id := fun e => hfirst (e ▸ mem_idsOf_of_mem hn)
        rw [List.filter_cons_of_neg (by simpa using hne), ih hrest hn]

/-! ## Placing a node -/

namespace Graph

theorem idsOf_placeNode (nodes : List Node) (n : Node) :
    idsOf (placeNode nodes n) =
      if n.id ∈ idsOf nodes then idsOf nodes else idsOf nodes ++ [n.id] := by
  induction nodes with
  | nil => simp [placeNode]
  | cons first rest ih =>
      by_cases hfirst : first.id = n.id
      · simp [placeNode, hfirst]
      · have hne : n.id ≠ first.id := fun h => hfirst h.symm
        rw [placeNode, if_neg hfirst, idsOf_cons, ih, idsOf_cons]
        by_cases hmem : n.id ∈ idsOf rest
        · simp [hmem]
        · simp [hmem, hne]

theorem find?_placeNode (nodes : List Node) (n : Node) (id : NodeId) :
    (placeNode nodes n).find? (fun m => m.id == id) =
      if n.id = id then some n else nodes.find? fun m => m.id == id := by
  induction nodes with
  | nil => exact find?_cons_id n [] id
  | cons first rest ih =>
      by_cases hfirst : first.id = n.id
      · rw [placeNode, if_pos hfirst, find?_cons_id, find?_cons_id, hfirst]
        by_cases h : n.id = id <;> simp [h]
      · rw [placeNode, if_neg hfirst, find?_cons_id, find?_cons_id, ih]
        by_cases h : first.id = id
        · have hne : n.id ≠ id := fun e => hfirst (h.trans e.symm)
          simp [h, hne]
        · simp [h]

theorem placeNode_of_notMem {nodes : List Node} {n : Node} (h : n.id ∉ idsOf nodes) :
    placeNode nodes n = nodes ++ [n] := by
  induction nodes with
  | nil => rfl
  | cons first rest ih =>
      have hfirst : first.id ≠ n.id := fun e => h (by simp [e])
      have hrest : n.id ∉ idsOf rest := fun e => h (by simp [e])
      rw [placeNode, if_neg hfirst, ih hrest, List.cons_append]

theorem mem_placeNode {nodes : List Node} {n m : Node} (h : n ∈ placeNode nodes m) :
    n ∈ nodes ∨ n = m := by
  induction nodes with
  | nil => exact .inr (List.mem_singleton.1 h)
  | cons first rest ih =>
      unfold placeNode at h
      split at h
      · obtain rfl | hrest := List.mem_cons.1 h
        · exact .inr rfl
        · exact .inl (List.mem_cons_of_mem _ hrest)
      · obtain rfl | hrest := List.mem_cons.1 h
        · exact .inl List.mem_cons_self
        · exact (ih hrest).imp_left (List.mem_cons_of_mem _)

theorem mem_idsOf_placeNode {nodes : List Node} {n : Node} {id : NodeId} :
    id ∈ idsOf (placeNode nodes n) ↔ id ∈ idsOf nodes ∨ id = n.id := by
  rw [idsOf_placeNode]
  by_cases h : n.id ∈ idsOf nodes
  · rw [if_pos h]
    exact ⟨.inl, fun hid => hid.elim (fun hid => hid) fun e => e ▸ h⟩
  · rw [if_neg h, List.mem_append, List.mem_singleton]

theorem nodup_idsOf_placeNode {nodes : List Node} (n : Node) (h : (idsOf nodes).Nodup) :
    (idsOf (placeNode nodes n)).Nodup := by
  rw [idsOf_placeNode]
  by_cases hmem : n.id ∈ idsOf nodes
  · rwa [if_pos hmem]
  · rw [if_neg hmem, ← List.concat_eq_append]
    exact h.concat hmem

/-! ## Placing many nodes one after the other -/

theorem nodup_idsOf_foldl_placeNode (more : List Node) {nodes : List Node}
    (h : (idsOf nodes).Nodup) : (idsOf (more.foldl placeNode nodes)).Nodup := by
  induction more generalizing nodes with
  | nil => exact h
  | cons n more ih => exact ih (nodup_idsOf_placeNode n h)

/-- Where an id repeats, the first one gives the place. -/
theorem idsOf_foldl_placeNode (nodes : List Node) :
    idsOf (nodes.foldl placeNode []) = (idsOf nodes).eraseDups := by
  induction nodes using List.reverseRecOn with
  | nil => rfl
  | append_singleton nodes n ih =>
      rw [List.foldl_concat, idsOf_placeNode, ih, idsOf_append, List.eraseDups_append]
      simp only [List.mem_eraseDups]
      by_cases hmem : n.id ∈ idsOf nodes
      · simp [hmem, List.removeAll]
      · simp [hmem, List.removeAll, List.eraseDups_cons]

/-- Where an id repeats, the last node counts. -/
theorem find?_foldl_placeNode (nodes : List Node) (id : NodeId) :
    (nodes.foldl placeNode []).find? (fun n => n.id == id) = nodeWithId? nodes id := by
  induction nodes using List.reverseRecOn with
  | nil => rfl
  | append_singleton nodes n ih =>
      rw [List.foldl_concat, find?_placeNode, ih]
      by_cases h : n.id = id <;> simp [nodeWithId?, h]

/-! ## Looking a node up -/

theorem hasNode_iff {g : Graph} {id : NodeId} : g.hasNode id = true ↔ id ∈ idsOf g.nodes := by
  simp [hasNode, idsOf]

theorem node?_eq_some {g : Graph} {id : NodeId} {n : Node} (h : g.node? id = some n) :
    n ∈ g.nodes ∧ n.id = id :=
  ⟨List.mem_of_find?_eq_some h, by simpa using List.find?_some h⟩

theorem mem_idsOf_of_node? {g : Graph} {id : NodeId} {n : Node} (h : g.node? id = some n) :
    id ∈ idsOf g.nodes := by
  obtain ⟨hmem, hid⟩ := node?_eq_some h
  exact hid ▸ mem_idsOf_of_mem hmem

theorem node?_eq_none_iff {g : Graph} {id : NodeId} :
    g.node? id = none ↔ id ∉ idsOf g.nodes := by
  constructor
  · intro h hid
    obtain ⟨n, hn, rfl⟩ := mem_idsOf.mp hid
    exact absurd (beq_self_eq_true n.id) (List.find?_eq_none.mp h n hn)
  · exact find?_eq_none_of_notMem_idsOf

theorem node?_of_mem {g : Graph} (hnodup : (idsOf g.nodes).Nodup) {n : Node} (hn : n ∈ g.nodes) :
    g.node? n.id = some n :=
  find?_of_nodup_map hnodup hn

theorem filterMap_node? {g : Graph} (hnodup : (idsOf g.nodes).Nodup) :
    (idsOf g.nodes).filterMap g.node? = g.nodes := by
  rw [idsOf, List.filterMap_map]
  exact (List.filterMap_congr fun _ hn => node?_of_mem hnodup hn).trans List.filterMap_some

/-- With distinct ids the nodes are known by the ids in order and the node under each of them. -/
theorem nodes_ext {g g' : Graph} (hnodup : (idsOf g.nodes).Nodup)
    (hids : idsOf g.nodes = idsOf g'.nodes)
    (hsame : ∀ id ∈ idsOf g.nodes, g.node? id = g'.node? id) : g.nodes = g'.nodes := by
  calc g.nodes = (idsOf g.nodes).filterMap g.node? := (filterMap_node? hnodup).symm
    _ = (idsOf g.nodes).filterMap g'.node? := List.filterMap_congr hsame
    _ = (idsOf g'.nodes).filterMap g'.node? := by rw [hids]
    _ = g'.nodes := filterMap_node? (hids ▸ hnodup)

/-- Every node is changed, and keeps its id. -/
theorem node?_of_nodes_eq_map {g g' : Graph} {change : Node → Node}
    (hid : ∀ n, (change n).id = n.id) (h : g'.nodes = g.nodes.map change) (id : NodeId) :
    g'.node? id = (g.node? id).map change := by
  rw [node?, h, List.find?_map]
  simp only [Function.comp_def, hid]
  rfl

@[simp] theorem node?_addNode (g : Graph) (n : Node) (id : NodeId) :
    (g.addNode n).node? id = if n.id = id then some n else g.node? id :=
  find?_placeNode g.nodes n id

/-- A change of one node that keeps its id keeps all ids. -/
theorem idsOf_modifyNode {g : Graph} {id : NodeId} {change : Node → Node}
    (hid : ∀ n, (change n).id = n.id) : idsOf (g.modifyNode id change).nodes = idsOf g.nodes := by
  unfold modifyNode idsOf
  rw [List.map_map]
  apply List.map_congr_left
  intro n _
  by_cases h : n.id = id <;> simp [h, hid]

theorem node?_modifyNode_of_ne {g : Graph} {id other : NodeId} (h : id ≠ other)
    (change : Node → Node) (hid : ∀ n, (change n).id = n.id) :
    (g.modifyNode other change).node? id = g.node? id := by
  unfold node? modifyNode
  induction g.nodes with
  | nil => rfl
  | cons n nodes ih =>
      rw [List.map_cons, find?_cons_id, find?_cons_id, ih]
      by_cases hother : n.id = other
      · have hne : n.id ≠ id := fun e => h (e.symm.trans hother)
        rw [if_pos hother, hid, if_neg hne, if_neg hne]
      · rw [if_neg hother]

/-- To change several nodes one after the other is one change of each node, when none of them comes
twice or the change made twice is the change made once. -/
theorem foldl_modifyNode {ids : List NodeId} (change : Node → Node)
    (honce : ids.Nodup ∨ ∀ n, change (change n) = change n) (hid : ∀ n, (change n).id = n.id)
    (g : Graph) :
    ids.foldl (fun g id => g.modifyNode id change) g =
      { g with nodes := g.nodes.map fun n => if n.id ∈ ids then change n else n } := by
  induction ids generalizing g with
  | nil => simp
  | cons first ids ih =>
      rw [List.foldl_cons, ih (honce.imp_left List.Nodup.of_cons)]
      simp only [modifyNode, List.map_map]
      congr 2
      funext n
      by_cases hn : n.id = first
      · obtain hnodup | hagain := honce
        · have hfirst : first ∉ ids := (List.nodup_cons.1 hnodup).1
          simp [hn, hid, hfirst]
        · by_cases hmem : first ∈ ids <;> simp [hn, hid, hagain, hmem]
      · simp [hn]

/-- A node is seen without the removed one in its context. -/
theorem node?_removeNode_of_ne {g : Graph} {id other : NodeId} (h : id ≠ other) :
    ∃ change : Node → Node, (g.removeNode other).node? id = (g.node? id).map change ∧
      ∀ n, ∃ contextIds, change n = { n with contextIds } := by
  by_cases hhas : g.hasNode other = true
  · refine ⟨forgetInContext other, ?_, fun n => ⟨_, rfl⟩⟩
    rw [removeNode, if_pos hhas]
    unfold node?
    rw [List.find?_map, List.find?_filter]
    congr 2
    funext n
    by_cases hid : n.id = id
    · simp [forgetInContext, hid, h]
    · simp [forgetInContext, hid]
  · refine ⟨fun n => n, ?_, fun n => ⟨n.contextIds, rfl⟩⟩
    rw [removeNode, if_neg hhas]
    exact Option.map_id'.symm ▸ rfl

end Graph
end LiveCanvas
