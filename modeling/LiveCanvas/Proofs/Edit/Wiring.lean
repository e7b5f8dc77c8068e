import LiveCanvas.Proofs.Canvas.Ports
import LiveCanvas.Proofs.Edit.Tidy

/-!
# What a batch does to connections

A batch takes a file out of where it is by the ids of connections from before the batch, and a name
takes away every connection that has it as its id or as a port.  When those ids name nothing else,
exactly the connections meant are taken away.  What a batch adds has a fresh id and ports that are
built from the ids of its ends, so it is never hit by accident.
-/

namespace LiveCanvas

/-- The ids of the connections name one connection each, and none of their ports. -/
structure Batch.NamedOnce (connections : List Connection) : Prop where
  nodup : (connections.map (·.id)).Nodup
  ports : ∀ e ∈ connections, ∀ e' ∈ connections, e.id ≠ e'.sourcePort ∧ e.id ≠ e'.targetPort

/-- The ids of the connections name one connection each, and no port. -/
structure Connection.NamesApart (connections : List Connection) : Prop
    extends Batch.NamedOnce connections where
  made : ∀ c ∈ connections, ∀ node direction role, c.id ≠ Port.idOf node direction role

/-- The connections have ids that a batch gives to no connection and to no port. -/
structure Connection.IdsApart (ids : IdSource) (connections : List Connection) : Prop where
  ports : ∀ e ∈ connections, ∀ node direction role, e.id ≠ Port.idOf node direction role
  unused : ∀ e ∈ connections, ∀ number, ids.next ≤ number → e.id ≠ IdSource.name idStem number

/-- The connection has an id that was still to come, and ports with built ids. -/
structure Connection.MadeFrom (ids : IdSource) (c : Connection) : Prop where
  id : ∃ number, ids.next ≤ number ∧ c.id = IdSource.name idStem number
  sourcePort : ∃ direction role, c.sourcePort = Port.idOf c.source direction role
  targetPort : ∃ role, c.targetPort = Port.inputId c.target role

namespace Graph

theorem connections_foldl_disconnect (g : Graph) (edges : List Connection) :
    (edges.foldl (fun g edge => g.disconnect edge.id) g).connections =
      g.connections.filter fun c => edges.all fun edge => !c.isNamed edge.id := by
  induction edges generalizing g with
  | nil => simp
  | cons edge edges ih =>
      rw [List.foldl_cons, ih]
      simp only [disconnect, Connection.without, List.filter_filter, List.all_cons]
      congr 1
      funext c
      rw [Bool.and_comm]

theorem nodes_foldl_disconnect (g : Graph) (edges : List Connection) :
    (edges.foldl (fun g edge => g.disconnect edge.id) g).nodes = g.nodes := by
  induction edges generalizing g with
  | nil => rfl
  | cons edge edges ih => rw [List.foldl_cons, ih, nodes_disconnect]

/-- The connections that put a node into something, in order. -/
def filings (g : Graph) (id : NodeId) : List Connection :=
  g.connections.filter fun c => c.source == id && Port.matchesRole c.targetPort Role.files

theorem mem_filings {g : Graph} {id : NodeId} {c : Connection} :
    c ∈ g.filings id ↔ c ∈ g.connections ∧ c.source = id ∧
      Port.matchesRole c.targetPort Role.files = true := by
  simp [filings]

end Graph

namespace Batch

/-- The id of a connection is the name of that connection only. -/
theorem NamedOnce.eq_of_isNamed {connections : List Connection} (h : NamedOnce connections)
    {edge e : Connection} (hedge : edge ∈ connections) (he : e ∈ connections)
    (hnamed : e.isNamed edge.id = true) : e = edge := by
  simp only [Connection.isNamed, Bool.or_eq_true, beq_iff_eq] at hnamed
  obtain (hid | hport) | hport := hnamed
  · exact List.inj_on_of_nodup_map h.nodup he hedge hid.symm
  · exact absurd hport (h.ports edge hedge e he).1
  · exact absurd hport (h.ports edge hedge e he).2

/-- Every connection was there before the batch or was made during it. -/
structure Traced (before : List Connection) (ids : IdSource) (b : Batch) : Prop where
  next_le : ids.next ≤ b.ids.next
  origin : ∀ e ∈ b.graph.connections, e ∈ before ∨ e.MadeFrom ids

/-! ## Wiring -/

theorem connections_wire_none {b : Batch} {source : Node} (h : source.outputPort? = none)
    (target : Node) (role : Role) : (b.wire source target role).2 = b := by
  rw [wire, h]

theorem connections_wire {b : Batch} {source : Node} {port : Text}
    (h : source.outputPort? = some port) (target : Node) (role : Role) :
    (b.wire source target role).2.graph.connections =
      (b.graph.connect (newConnection source target role port
        (b.ids.fresh Connection.idStem).1)).connections := by
  rw [wire, h]

@[simp] theorem nodes_wire (b : Batch) (source target : Node) (role : Role) :
    (b.wire source target role).2.graph.nodes = b.graph.nodes := by
  unfold wire
  split
  · rfl
  · exact Graph.nodes_connect _ _

/-- Wiring adds one connection at the end or leaves the connections as they are. -/
theorem connections_wire_cases (b : Batch) (source target : Node) (role : Role) :
    (b.wire source target role).2.graph.connections = b.graph.connections ∨
      ∃ edge, (b.wire source target role).2.graph.connections = b.graph.connections ++ [edge] ∧
        edge.source = source.id ∧ edge.target = target.id ∧
        edge.targetPort = Port.inputId target.id role ∧ edge.MadeFrom b.ids := by
  cases h : source.outputPort? with
  | none => exact .inl (by rw [connections_wire_none h])
  | some port =>
      rw [connections_wire h, Graph.connect]
      split
      · obtain ⟨direction, sourceRole, hport⟩ := Node.exists_outputPort? h
        refine .inr ⟨_, rfl, rfl, rfl, rfl, ?_⟩
        exact ⟨⟨b.ids.next, Nat.le_refl _, rfl⟩, ⟨direction, sourceRole, hport⟩, ⟨role, rfl⟩⟩
      · exact .inl rfl

/-- An input that takes any number of connections takes one that is not there yet. -/
theorem connections_wire_plural {b : Batch} {source target : Node} {role : Role} {port : Text}
    (h : source.outputPort? = some port) (hsource : source.id ∈ idsOf b.graph.nodes)
    (htarget : target.id ∈ idsOf b.graph.nodes)
    (hplural : Port.isSingularInput (Port.inputId target.id role) = false) :
    let edge := newConnection source target role port (b.ids.fresh Connection.idStem).1
    (b.wire source target role).2.graph.connections =
      if Connection.isListed b.graph.connections edge then b.graph.connections
      else b.graph.connections ++ [edge] := by
  intro edge
  have hends : b.graph.hasEnds edge = true := Graph.hasEnds_iff.2 ⟨hsource, htarget⟩
  have hfree : Connection.isBlocked b.graph.connections edge = false := by
    rw [Connection.isBlocked, Bool.and_eq_false_iff]
    exact .inl hplural
  rw [connections_wire h, Graph.connect, Graph.admits, Connection.admits, hends, hfree,
    Bool.true_and, Bool.not_false, Bool.and_true]
  cases hlisted : Connection.isListed b.graph.connections edge with
  | true => rfl
  | false => rfl

/-- After wiring two nodes of the graph the edge is there, if not new then from before; only an
input that takes one connection could refuse it. -/
theorem exists_edge_wire {b : Batch} {source target : Node} {role : Role} {port : Text}
    (h : source.outputPort? = some port) (hsource : source.id ∈ idsOf b.graph.nodes)
    (htarget : target.id ∈ idsOf b.graph.nodes)
    (hplural : Port.isSingularInput (Port.inputId target.id role) = false) :
    ∃ edge ∈ (b.wire source target role).2.graph.connections, edge.source = source.id ∧
      edge.target = target.id ∧ edge.targetPort = Port.inputId target.id role := by
  rw [connections_wire_plural h hsource htarget hplural]
  split
  · next hlisted =>
      obtain ⟨other, hother, hkey⟩ := Connection.isListed_iff.1 hlisted
      simp only [Connection.key, newConnection, Prod.mk.injEq] at hkey
      exact ⟨other, hother, hkey.1, hkey.2.2.1, hkey.2.2.2⟩
  · exact ⟨_, List.mem_append_right _ List.mem_cons_self, rfl, rfl, rfl⟩

theorem next_add (b : Batch) {request : NodeRequest} (hid : request.id = none) :
    (b.add request).2.ids.next = b.ids.next + 1 := by
  show (request.create b.ids).2.next = b.ids.next + 1
  rw [(id_create hid b.ids).2]
  rfl

theorem next_le_wire (b : Batch) (source target : Node) (role : Role) :
    b.ids.next ≤ (b.wire source target role).2.ids.next := by
  unfold Batch.wire
  split
  · exact Nat.le_refl _
  · exact Nat.le_succ _

theorem keeps_traced (before : List Connection) (ids : IdSource) :
    Keeps (Traced before ids) where
  report _ _ _ _ h := ⟨h.next_le, h.origin⟩
  add b request hid h := by
    refine ⟨?_, h.origin⟩
    rw [next_add b hid]
    exact Nat.le_succ_of_le h.next_le
  remove b id h := by
    refine ⟨h.next_le, fun e he => h.origin e ?_⟩
    change e ∈ (b.graph.removeNode id).connections at he
    unfold Graph.removeNode at he
    split at he
    · exact (List.mem_filter.1 he).1
    · exact he
  wire b source target role h := by
    have hnext := next_le_wire b source target role
    refine ⟨Nat.le_trans h.next_le hnext, ?_⟩
    intro e he
    obtain hsame | ⟨edge, hmore, -, -, -, hmade⟩ := connections_wire_cases b source target role
    · exact h.origin e (hsame ▸ he)
    · rw [hmore, List.mem_append, List.mem_singleton] at he
      obtain he | rfl := he
      · exact h.origin e he
      · obtain ⟨number, hnumber, hname⟩ := hmade.id
        exact .inr ⟨⟨number, Nat.le_trans h.next_le hnumber, hname⟩, hmade.sourcePort,
          hmade.targetPort⟩
  disconnect _ _ h := ⟨h.next_le, fun e he => h.origin e (List.mem_filter.1 he).1⟩
  setContent _ _ _ h := ⟨h.next_le, h.origin⟩
  setTitle _ _ _ h := ⟨h.next_le, h.origin⟩

/-! ## Taking a file out of where it is -/

section Detach

variable {before : List Connection} {ids : IdSource} {b : Batch}

/-- The id of a connection from before the batch names that connection only. -/
theorem Traced.eq_of_isNamed (h : Traced before ids b) (honce : NamedOnce before)
    (hapart : Connection.IdsApart ids before) {edge e : Connection} (hedge : edge ∈ before)
    (he : e ∈ b.graph.connections) (hnamed : e.isNamed edge.id = true) : e = edge := by
  obtain hbefore | hmade := h.origin e he
  · exact honce.eq_of_isNamed hedge hbefore hnamed
  · simp only [Connection.isNamed, Bool.or_eq_true, beq_iff_eq] at hnamed
    rcases hnamed with (hid | hport) | hport
    · obtain ⟨number, hnumber, hname⟩ := hmade.id
      exact absurd (hid.trans hname) (hapart.unused edge hedge number hnumber)
    · obtain ⟨direction, role, hmade⟩ := hmade.sourcePort
      exact absurd (hport.trans hmade) (hapart.ports edge hedge _ _ _)
    · obtain ⟨role, hmade⟩ := hmade.targetPort
      exact absurd (hport.trans hmade) (hapart.ports edge hedge _ _ _)

theorem mem_structural {c : BatchContext} {id : NodeId} {e : Connection} :
    e ∈ b.structural c id ↔ e ∈ c.before ∧ e.source = id ∧ b.isStructural e = true := by
  simp [structural]

@[simp] theorem nodes_detach (b : Batch) (c : BatchContext) (id : NodeId) :
    (b.detach c id).graph.nodes = b.graph.nodes :=
  Graph.nodes_foldl_disconnect _ _

/-- Whatever is named by a connection that put the file somewhere before the batch is taken away. -/
theorem connections_detach (b : Batch) (c : BatchContext) (id : NodeId) :
    (b.detach c id).graph.connections =
      b.graph.connections.filter fun e => (b.structural c id).all fun edge => !e.isNamed edge.id :=
  Graph.connections_foldl_disconnect _ _

theorem mem_connections_detach {c : BatchContext} {id : NodeId} {e : Connection} :
    e ∈ (b.detach c id).graph.connections ↔
      e ∈ b.graph.connections ∧ ∀ edge ∈ b.structural c id, e.isNamed edge.id = false := by
  simp only [connections_detach, List.mem_filter, List.all_eq_true, Bool.not_eq_true']

/-- A connection that put the file somewhere is named by its own id. -/
theorem notMem_detach_of_mem_structural {c : BatchContext} {id : NodeId} {e : Connection}
    (h : e ∈ b.structural c id) : e ∉ (b.detach c id).graph.connections := by
  intro hmem
  have hself := (mem_connections_detach.1 hmem).2 e h
  simp [Connection.isNamed] at hself

/-- When ids name one connection each, only such connections are taken away. -/
theorem connections_detach_of_traced {c : BatchContext} (h : Traced c.before ids b)
    (honce : NamedOnce c.before) (hapart : Connection.IdsApart ids c.before) (id : NodeId) :
    (b.detach c id).graph.connections =
      b.graph.connections.filter fun e => !(b.structural c id).contains e := by
  rw [connections_detach]
  apply List.filter_congr
  intro e he
  rw [Bool.eq_iff_iff, List.all_eq_true, Bool.not_eq_true', List.contains_eq_mem,
    decide_eq_false_iff_not]
  constructor
  · intro hnone hmem
    have hself : e.isNamed e.id = true := by simp [Connection.isNamed]
    have hnot := hnone e hmem
    rw [hself] at hnot
    cases hnot
  · intro hnot edge hedge
    rw [Bool.not_eq_true']
    by_contra hnamed
    rw [Bool.not_eq_false] at hnamed
    rw [h.eq_of_isNamed honce hapart (mem_structural.1 hedge).1 he hnamed] at hnot
    exact hnot hedge

end Detach

end Batch
end LiveCanvas
