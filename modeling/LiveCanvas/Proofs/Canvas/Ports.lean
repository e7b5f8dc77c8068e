import LiveCanvas.Canvas.Port
import LiveCanvas.Proofs.Text.Cut

/-!
# Reading port ids

The role and the direction of a port are the last two parts of its id, so they are read back
whatever hyphens the id of the node has.
-/

namespace LiveCanvas
namespace Port

theorem toList_idOf (node : NodeId) (direction : Direction) (role : Role) :
    (idOf node direction role).toList =
      (node.toList ++ .char '-' :: direction.wire.toList) ++ .char '-' :: role.toList := by
  simp [idOf]

/-- What has no hyphen is no id of a port. -/
theorem ne_idOf_of_hyphen_notMem {name : Text} (h : .char '-' ∉ name.toList) (node : NodeId)
    (direction : Direction) (role : Role) : name ≠ idOf node direction role := by
  rintro rfl
  rw [toList_idOf] at h
  exact h (List.mem_append_right _ List.mem_cons_self)

theorem roleOf_idOf {role : Role} (h : .char '-' ∉ role.toList) (node : NodeId)
    (direction : Direction) : roleOf (idOf node direction role) = role := by
  rw [roleOf, toList_idOf, Text.afterLast_append _ h, Text.ofList_toList]

theorem directionOf?_idOf {role : Role} (h : .char '-' ∉ role.toList) (node : NodeId)
    (direction : Direction) : directionOf? (idOf node direction role) = some direction := by
  have hwire : .char '-' ∉ direction.wire.toList := by
    cases direction <;> decide
  rw [directionOf?, toList_idOf, Text.cutLast?_append _ h]
  simp only
  rw [Text.cutLast?_append _ hwire]
  show directionOfPart? direction.wire.toList = some direction
  cases direction <;> decide

/-! ## The roles of inputs -/

/-- Whether an input is for a role does not depend on the node. -/
theorem matchesRole_inputId {role : Role} (h : .char '-' ∉ role.toList) (node : NodeId)
    (sought : Role) :
    matchesRole (inputId node role) sought =
      Text.occursIn (Text.lower sought).toList (Text.lower role).toList := by
  rw [matchesRole, inputId, roleOf_idOf h]

theorem matchesRole_files (node : NodeId) :
    matchesRole (inputId node Role.files) Role.files = true := by
  rw [matchesRole_inputId (by decide)]
  decide

theorem matchesRole_imports (node : NodeId) :
    matchesRole (inputId node Role.imports) Role.imports = true := by
  rw [matchesRole_inputId (by decide)]
  decide

theorem not_matchesRole_imports (node : NodeId) :
    matchesRole (inputId node Role.imports) Role.files = false := by
  rw [matchesRole_inputId (by decide)]
  decide

/-- Just the inputs for a document take one connection at most. -/
theorem isSingularInput_idOf {role : Role} (h : .char '-' ∉ role.toList) (node : NodeId)
    (direction : Direction) :
    isSingularInput (idOf node direction role) = true ↔ direction = .input ∧ role = Role.dom := by
  rw [isSingularInput, directionOf?_idOf h, roleOf_idOf h]
  simp [singularRoles]

theorem not_isSingularInput_inputId {role : Role} (h : .char '-' ∉ role.toList)
    (hrole : role ≠ Role.dom) (node : NodeId) : isSingularInput (inputId node role) = false := by
  rw [Bool.eq_false_iff, Ne, inputId, isSingularInput_idOf h]
  exact fun hdom => hrole hdom.2

theorem not_isSingularInput_files (node : NodeId) :
    isSingularInput (inputId node Role.files) = false :=
  not_isSingularInput_inputId (by decide) (by decide) node

theorem not_isSingularInput_imports (node : NodeId) :
    isSingularInput (inputId node Role.imports) = false :=
  not_isSingularInput_inputId (by decide) (by decide) node

end Port

/-- Every port of a node has the id that is built from its direction and role. -/
theorem Kind.id_of_mem_ports {kind : Kind} {node : NodeId} {p : Port} (h : p ∈ kind.ports node) :
    p.id = Port.idOf node p.direction p.role := by
  cases kind <;> simp only [ports, List.mem_cons, List.not_mem_nil, or_false] at h
  · rcases h with rfl | rfl <;> rfl
  · rcases h with rfl | rfl <;> rfl
  · rw [h]; rfl
  · rw [h]; rfl
  · rw [h]; rfl
  · rw [h]; rfl
  · rcases h with rfl | rfl <;> rfl

/-- What a node is wired from is one of its own ports. -/
theorem Node.exists_outputPort? {n : Node} {port : Text} (h : n.outputPort? = some port) :
    ∃ direction role, port = Port.idOf n.id direction role := by
  obtain ⟨p, hp, rfl⟩ := Option.map_eq_some_iff.1 h
  exact ⟨p.direction, p.role, Kind.id_of_mem_ports (List.mem_of_find?_eq_some hp)⟩

theorem Node.outputPort?_of_code {n : Node} (h : n.kind = .code) :
    n.outputPort? = some (Port.idOf n.id .output Role.dom) := by
  rw [outputPort?, h]
  rfl

/-- Files of every kind are wired from the same output. -/
theorem Node.outputPort?_of_isFile {n : Node} (h : n.isFile = true) :
    n.outputPort? = some (Port.idOf n.id .output Role.dom) := by
  unfold isFile at h
  unfold outputPort?
  cases hkind : n.kind <;> rw [hkind] at h <;> first | rfl | cases h

end LiveCanvas
