import LiveCanvas.Canvas.Connection
import LiveCanvas.Proofs.Canvas.Ports

/-!
# Ports of different nodes

The id of a node may have hyphens and may even look like the id of a port, but a role has none.  So
node, direction and role can all be told from the id of a port, and no two ports have the same one.
Where connections use the ports of their own ends, an input that takes one connection is taken only
by a connection into this very node, and what is done to a port of one node leaves the connections
of other nodes alone.
-/

namespace LiveCanvas
namespace Port

variable {node node' : NodeId} {direction direction' : Direction} {role role' : Role}
  {port : Text}

theorem idOf_eq_idOf_iff (h : .char '-' ∉ role.toList) (h' : .char '-' ∉ role'.toList) :
    idOf node direction role = idOf node' direction' role' ↔
      node = node' ∧ direction = direction' ∧ role = role' := by
  constructor
  · intro heq
    have hrole : role = role' := by
      rw [← roleOf_idOf h node direction, heq, roleOf_idOf h']
    have hdirection : direction = direction' := by
      rw [← Option.some_inj, ← directionOf?_idOf h node direction, heq, directionOf?_idOf h']
    subst hrole hdirection
    -- direction and role are the same, so the node is what the ids have in front of them
    simp only [idOf, Text.append_left_inj] at heq
    exact ⟨heq, rfl, rfl⟩
  · rintro ⟨rfl, rfl, rfl⟩
    rfl

/-- The id is that of a port of the node. -/
def IsOf (node : NodeId) (port : Text) : Prop :=
  ∃ direction role, .char '-' ∉ role.toList ∧ port = idOf node direction role

theorem isOf_idOf (h : .char '-' ∉ role.toList) : IsOf node (idOf node direction role) :=
  ⟨direction, role, h, rfl⟩

/-- No id is that of a port of two nodes. -/
theorem IsOf.node_eq (h : IsOf node port) (h' : IsOf node' port) : node = node' := by
  obtain ⟨direction, role, hrole, rfl⟩ := h
  obtain ⟨direction', role', hrole', heq⟩ := h'
  exact ((idOf_eq_idOf_iff hrole hrole').1 heq).1

/-- Of the ports of a node only the input for a document takes one connection at most. -/
theorem IsOf.isSingularInput_iff (h : IsOf node port) :
    isSingularInput port = true ↔ port = inputId node Role.dom := by
  obtain ⟨direction, role, hrole, rfl⟩ := h
  rw [isSingularInput_idOf hrole node direction, inputId, idOf_eq_idOf_iff hrole (by decide),
    eq_self, true_and]

end Port

/-- The connection leaves a port of its source and enters a port of its target. -/
structure Connection.UsesOwnPorts (c : Connection) : Prop where
  source : Port.IsOf c.source c.sourcePort
  target : Port.IsOf c.target c.targetPort

namespace Connection

variable {connections : List Connection} {c : Connection} {node : NodeId} {port : Text}

/-- The connection that stands in the way enters the document input of its own target. -/
theorem isBlocked_iff_of_usesOwnPorts (hown : ∀ other ∈ connections, other.UsesOwnPorts) :
    isBlocked connections c = true ↔ ∃ other ∈ connections, other.targetPort = c.targetPort ∧
      c.targetPort = Port.inputId other.target Role.dom := by
  rw [isBlocked_iff]
  constructor
  · rintro ⟨hsingular, other, hother, hport⟩
    rw [← hport, (hown other hother).target.isSingularInput_iff, hport] at hsingular
    exact ⟨other, hother, hport, hsingular⟩
  · rintro ⟨other, hother, hport, hdom⟩
    refine ⟨?_, other, hother, hport⟩
    rw [← hport, (hown other hother).target.isSingularInput_iff, hport, hdom]

/-- What stands in the way of a connection into a port of a node enters the same node. -/
theorem isBlocked_iff_of_isOf (hown : ∀ other ∈ connections, other.UsesOwnPorts)
    (hport : Port.IsOf node c.targetPort) :
    isBlocked connections c = true ↔ c.targetPort = Port.inputId node Role.dom ∧
      ∃ other ∈ connections, other.target = node ∧ other.targetPort = c.targetPort := by
  rw [isBlocked_iff, hport.isSingularInput_iff]
  refine and_congr_right fun _ => exists_congr fun other => and_congr_right fun hother => ?_
  constructor
  · intro hsame
    exact ⟨(hown other hother).target.node_eq (hsame ▸ hport), hsame⟩
  · exact fun h => h.2

/-- Cutting a port of a node leaves the connections of other nodes alone, unless one of them has the
id of the port for its own. -/
theorem mem_without_of_usesOwnPorts (hc : c ∈ connections) (hown : c.UsesOwnPorts)
    (hport : Port.IsOf node port) (hid : c.id ≠ port) (htouches : c.touches node = false) :
    c ∈ without connections port := by
  simp only [touches, Bool.or_eq_false_iff, beq_eq_false_iff_ne] at htouches
  have hsource : port ≠ c.sourcePort := by
    rintro rfl
    exact htouches.1 (hown.source.node_eq hport)
  have htarget : port ≠ c.targetPort := by
    rintro rfl
    exact htouches.2 (hown.target.node_eq hport)
  rw [mem_without]
  exact ⟨hc, by simp [isNamed, hid.symm, hsource, htarget]⟩

end Connection

/-- Role and direction are read back from the id of a port.  The id tells the node as well, whatever
hyphens that has, so ports of different nodes differ, and just the inputs for a document take one
connection at most.  Where connections use the ports of their own ends, such an input refuses a
connection because of one into the same port of the same node and for no other reason. -/
theorem Port.idOf_faithful {role : Role} (hrole : .char '-' ∉ role.toList) (node : NodeId)
    (direction : Direction) :
    let port := idOf node direction role
    roleOf port = role ∧ directionOf? port = some direction ∧
    (∀ node' direction' role', .char '-' ∉ role'.toList →
      (port = idOf node' direction' role' ↔
        node = node' ∧ direction = direction' ∧ role = role')) ∧
    (∀ node', IsOf node' port → node' = node) ∧
    (isSingularInput port = true ↔ direction = .input ∧ role = Role.dom) ∧
    ∀ connections : List Connection, (∀ other ∈ connections, other.UsesOwnPorts) →
      ∀ c : Connection,
        (Connection.isBlocked connections c = true ↔ ∃ other ∈ connections,
          other.targetPort = c.targetPort ∧ c.targetPort = inputId other.target Role.dom) ∧
        (c.targetPort = port →
          (Connection.isBlocked connections c = true ↔ direction = .input ∧ role = Role.dom ∧
            ∃ other ∈ connections, other.target = node ∧ other.targetPort = port)) := by
  intro port
  have hport : IsOf node port := isOf_idOf hrole
  refine ⟨roleOf_idOf hrole node direction, directionOf?_idOf hrole node direction,
    fun node' direction' role' hrole' => idOf_eq_idOf_iff hrole hrole',
    fun node' hport' => hport'.node_eq hport, isSingularInput_idOf hrole node direction, ?_⟩
  intro connections hown c
  refine ⟨Connection.isBlocked_iff_of_usesOwnPorts hown, fun hc => ?_⟩
  rw [Connection.isBlocked_iff_of_isOf hown (hc ▸ hport), hc, ← hport.isSingularInput_iff,
    isSingularInput_idOf hrole node direction, and_assoc]

/-- The id of one node is the beginning of a port id of another, and the input of the first is free
while that of the second is taken. -/
theorem Port.idOf_faithful_hyphens :
    let taken : Connection := ⟨"x", "m", "m-out-dom", "p-in", "p-in-in-dom"⟩
    let c : Connection := ⟨"y", "m", "m-out-dom", "p", "p-in-dom"⟩
    .char '-' ∉ Role.dom.toList ∧ taken.UsesOwnPorts ∧
    roleOf "p-in-dom" = Role.dom ∧ directionOf? "p-in-dom" = some .input ∧
    "p-in-dom" ≠ idOf "p-in" .input Role.dom ∧ isSingularInput "p-in-dom" = true ∧
    Connection.isBlocked [taken] c = false := by
  intro taken c
  have hrole : .char '-' ∉ Role.dom.toList := by decide
  have htaken : taken.UsesOwnPorts :=
    ⟨⟨.output, Role.dom, hrole, by decide⟩, ⟨.input, Role.dom, hrole, by decide⟩⟩
  obtain ⟨hroleOf, hdirection, hnodes, -, hsingular, hrule⟩ := idOf_faithful hrole "p" .input
  refine ⟨hrole, htaken, hroleOf, hdirection, ?_, hsingular.2 ⟨rfl, rfl⟩, ?_⟩
  · intro heq
    exact absurd ((hnodes "p-in" .input Role.dom hrole).1 heq).1 (by decide)
  · have hown : ∀ other ∈ [taken], other.UsesOwnPorts := by simp [htaken]
    rw [Bool.eq_false_iff, Ne, (hrule [taken] hown c).2 rfl]
    rintro ⟨-, -, other, hother, htarget, -⟩
    obtain rfl := List.mem_singleton.1 hother
    exact absurd htarget (by decide)

end LiveCanvas
