import LiveCanvas.Collab.Reconcile
import LiveCanvas.Proofs.Canvas.NodeList
import LiveCanvas.Proofs.Reading

/-!
# Sound graphs

A graph is sound when an id stands for one node, every connection leads between nodes of the graph,
no edge is there twice, and no input that takes one connection has more.  This module shows that
every operation on a graph keeps it sound.  Two of them need more than a look at the connections:
removing a node has to take the connections of that node along, and a snapshot exchanges the nodes
first and puts the connections right afterwards, so in between only the ids are known to be good.
-/

namespace LiveCanvas
namespace Graph

/-- What every graph keeps to, whatever is done to it. -/
structure Sound (g : Graph) : Prop where
  /-- An id stands for one node. -/
  ids_nodup : (idsOf g.nodes).Nodup
  /-- Both ends of a connection are nodes of the graph. -/
  ends_live : ∀ c ∈ g.connections, c.source ∈ idsOf g.nodes ∧ c.target ∈ idsOf g.nodes
  /-- No edge is there twice. -/
  keys_nodup : (g.connections.map Connection.key).Nodup
  /-- An input that takes one connection has one at most. -/
  singular_once : ∀ port, Port.isSingularInput port = true →
    g.connections.countP (fun c => c.targetPort == port) ≤ 1

theorem hasEnds_iff {g : Graph} {c : Connection} :
    g.hasEnds c = true ↔ c.source ∈ idsOf g.nodes ∧ c.target ∈ idsOf g.nodes := by
  rw [hasEnds, Bool.and_eq_true, hasNode_iff, hasNode_iff]

namespace Sound

/-- Without connections only the ids matter. -/
theorem of_no_connections {g : Graph} (hids : (idsOf g.nodes).Nodup) (hnone : g.connections = []) :
    g.Sound := by
  constructor
  · exact hids
  · simp [hnone]
  · simp [hnone]
  · simp [hnone]

/-- Fewer connections are sound as long as their ends stay. -/
theorem of_sublist {g g' : Graph} (h : g.Sound) (hids : (idsOf g'.nodes).Nodup)
    (hsub : g'.connections.Sublist g.connections)
    (hlive : ∀ c ∈ g'.connections, c.source ∈ idsOf g'.nodes ∧ c.target ∈ idsOf g'.nodes) :
    g'.Sound := by
  constructor
  · exact hids
  · exact hlive
  · exact h.keys_nodup.sublist (hsub.map Connection.key)
  · intro port hport
    exact Nat.le_trans hsub.countP_le (h.singular_once port hport)

/-- Only ids and connections matter. -/
theorem of_same {g g' : Graph} (h : g.Sound) (hids : idsOf g'.nodes = idsOf g.nodes)
    (hconnections : g'.connections = g.connections) : g'.Sound := by
  apply h.of_sublist
  · rw [hids]
    exact h.ids_nodup
  · rw [hconnections]
  · intro c hc
    rw [hids]
    exact h.ends_live c (hconnections ▸ hc)

/-! ## Nodes -/

theorem addNode {g : Graph} (h : g.Sound) (n : Node) : (g.addNode n).Sound := by
  apply h.of_sublist
  · exact nodup_idsOf_placeNode n h.ids_nodup
  · exact List.Sublist.refl _
  · intro c hc
    obtain ⟨hsource, htarget⟩ := h.ends_live c hc
    exact ⟨mem_idsOf_placeNode.mpr (.inl hsource), mem_idsOf_placeNode.mpr (.inl htarget)⟩

theorem modifyNode {g : Graph} (h : g.Sound) {id : NodeId} {change : Node → Node}
    (hid : ∀ n, (change n).id = n.id) : (g.modifyNode id change).Sound :=
  h.of_same (idsOf_modifyNode hid) rfl

end Sound

/-- Removing a node takes its id away and no other. -/
theorem idsOf_removeNode {g : Graph} {id : NodeId} (h : g.hasNode id = true) :
    idsOf (g.removeNode id).nodes = (idsOf g.nodes).filter (· != id) := by
  rw [removeNode, if_pos h]
  simp [idsOf, forgetInContext, List.filter_map, Function.comp_def]

namespace Sound

theorem removeNode {g : Graph} (h : g.Sound) (id : NodeId) : (g.removeNode id).Sound := by
  by_cases hid : g.hasNode id = true
  · have hconnections : (g.removeNode id).connections =
        g.connections.filter fun c => !c.touches id := by
      rw [Graph.removeNode, if_pos hid]
    apply h.of_sublist
    · rw [idsOf_removeNode hid]
      exact h.ids_nodup.filter _
    · rw [hconnections]
      exact List.filter_sublist
    · intro c hc
      rw [hconnections, List.mem_filter] at hc
      obtain ⟨hc, htouches⟩ := hc
      have hends := h.ends_live c hc
      simp only [Connection.touches, Bool.not_eq_true', Bool.or_eq_false_iff,
        beq_eq_false_iff_ne] at htouches
      rw [idsOf_removeNode hid]
      simp [hends, htouches]
  · rwa [Graph.removeNode, if_neg hid]

/-! ## Connections -/

theorem connect {g : Graph} (h : g.Sound) (c : Connection) : (g.connect c).Sound := by
  by_cases hadmits : g.admits c = true
  · rw [Graph.connect, if_pos hadmits]
    rw [admits, Bool.and_eq_true, Connection.admits, Bool.and_eq_true, Bool.not_eq_true',
      Bool.not_eq_true'] at hadmits
    obtain ⟨hends, hlisted, hblocked⟩ := hadmits
    constructor
    · exact h.ids_nodup
    · intro other hother
      rcases List.mem_append.mp hother with hother | hother
      · exact h.ends_live other hother
      · rw [List.mem_singleton.mp hother]
        exact hasEnds_iff.mp hends
    · rw [List.map_append, List.map_singleton, ← List.concat_eq_append]
      apply h.keys_nodup.concat
      intro hkey
      obtain ⟨other, hother, hkey⟩ := List.mem_map.mp hkey
      rw [Connection.isListed_iff.mpr ⟨other, hother, hkey⟩] at hlisted
      contradiction
    · intro port hport
      rw [List.countP_append, List.countP_singleton]
      by_cases htarget : c.targetPort = port
      · -- the port is free, or else the connection would have been refused
        have hfree : g.connections.countP (fun other => other.targetPort == port) = 0 := by
          rw [List.countP_eq_zero]
          intro other hother hsame
          have hsame : other.targetPort = c.targetPort := by
            rw [htarget]
            simpa using hsame
          rw [Connection.isBlocked_iff.mpr ⟨htarget ▸ hport, other, hother, hsame⟩] at hblocked
          contradiction
        simp [hfree, htarget]
      · simpa [htarget] using h.singular_once port hport
  · rwa [Graph.connect, if_neg hadmits]

theorem connectAll {g : Graph} (h : g.Sound) (connections : List Connection) :
    (connections.foldl Graph.connect g).Sound := by
  induction connections generalizing g with
  | nil => exact h
  | cons c connections ih => exact ih (h.connect c)

theorem disconnect {g : Graph} (h : g.Sound) (name : Text) : (g.disconnect name).Sound := by
  have hsub : (Connection.without g.connections name).Sublist g.connections :=
    List.filter_sublist
  exact h.of_sublist h.ids_nodup hsub fun c hc => h.ends_live c (hsub.subset hc)

end Sound

/-! ## Whole graphs -/

theorem sound_build (nodes : List Node) (connections : List Connection) :
    (build nodes connections).Sound := by
  have hnodes : ∀ g : Graph, g.Sound → (nodes.foldl addNode g).Sound := by
    induction nodes with
    | nil => exact fun _ h => h
    | cons n nodes ih => exact fun g h => ih _ (h.addNode n)
  exact (hnodes {} (.of_no_connections List.nodup_nil rfl)).connectAll connections

/-- What reading a graph comes to: the nodes and connections are added one after the other, and the
rest of the object touches neither. -/
theorem exists_build_of_ofFields {fields : Fields Value} {g : Graph}
    (h : ofFields fields = .ok g) :
    ∃ nodes connections running pan zoom,
      g = { build nodes connections with running, pan, zoom } := by
  simp only [ofFields, bind_eq_ok_iff, pure_eq_ok_iff] at h
  obtain ⟨_, -, nodes, -, _, -, connections, -, _, -, _, -, _, -, _, -, rfl⟩ := h
  exact ⟨nodes, connections, _, _, _, rfl⟩

theorem sound_of_ofValue {v : Value} {g : Graph} (h : ofValue v = .ok g) : g.Sound := by
  obtain ⟨fields, -, hfields⟩ := bind_eq_ok_iff.mp h
  obtain ⟨nodes, connections, _, _, _, rfl⟩ := exists_build_of_ofFields hfields
  exact (sound_build nodes connections).of_same rfl rfl

/-! ## Snapshots -/

/-- Taking over nodes leaves each id once, whatever the snapshot repeats.  The connections still
have to be put right. -/
theorem nodup_idsOf_mergeNodes (g : Graph) (nodes : List Node) :
    (idsOf (g.mergeNodes nodes).nodes).Nodup :=
  nodup_idsOf_foldl_placeNode _ List.nodup_nil

/-- The connections of a snapshot are added one by one to none. -/
theorem sound_mergeConnections_some {g : Graph} (hids : (idsOf g.nodes).Nodup)
    (connections : List Connection) : (g.mergeConnections (some connections)).Sound :=
  (Sound.of_no_connections (g := { g with connections := [] }) hids rfl).connectAll connections

/-- Without connections in the snapshot those with a missing end go. -/
theorem sound_mergeConnections_none {g before : Graph} (hbefore : before.Sound)
    (hids : (idsOf g.nodes).Nodup) (hsame : g.connections = before.connections) :
    (g.mergeConnections none).Sound := by
  apply hbefore.of_sublist
  · exact hids
  · rw [← hsame]
    exact List.filter_sublist
  · intro c hc
    exact hasEnds_iff.mp (List.mem_filter.mp hc).2

theorem Sound.merge {g : Graph} (h : g.Sound) (s : Incoming) : (g.merge s).Sound := by
  obtain ⟨nodes, connections, running, pan, zoom⟩ := s
  cases nodes with
  | none =>
      cases connections with
      | none => exact (sound_mergeConnections_none h h.ids_nodup rfl).of_same rfl rfl
      | some connections =>
          exact (sound_mergeConnections_some h.ids_nodup connections).of_same rfl rfl
  | some nodes =>
      have hids := nodup_idsOf_mergeNodes g nodes
      cases connections with
      | none => exact (sound_mergeConnections_none h hids rfl).of_same rfl rfl
      | some connections => exact (sound_mergeConnections_some hids connections).of_same rfl rfl

end Graph
end LiveCanvas
