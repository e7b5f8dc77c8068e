import LiveCanvas.Proofs.Canvas.Ports
import LiveCanvas.Proofs.Canvas.Sound

/-!
# Typed connections

Ports are never stored, so a connection may name ports that its ends do not have.  It is well-typed
when it leads from an output of its source to an input of its target that takes the kind of the
source.  That depends on the ids and kinds of the ends only, and on no kind but these two.
-/

namespace LiveCanvas

namespace Connection

/-- The connection leaves an output that nodes of this kind have. -/
def LeavesOutput (c : Connection) (source : Kind) : Prop :=
  ∃ p ∈ source.ports c.source, p.id = c.sourcePort ∧ p.direction = .output

/-- The connection enters an input that nodes of the second kind have and that takes the first. -/
def EntersInput (c : Connection) (source target : Kind) : Prop :=
  ∃ p ∈ target.ports c.target, p.id = c.targetPort ∧ p.direction = .input ∧
    p.acceptsKind source = true

instance (c : Connection) (source : Kind) : Decidable (c.LeavesOutput source) :=
  inferInstanceAs (Decidable (∃ p ∈ _, _))

instance (c : Connection) (source target : Kind) : Decidable (c.EntersInput source target) :=
  inferInstanceAs (Decidable (∃ p ∈ _, _))

variable {c : Connection} {source target : Kind}

theorem leavesOutput_of_outputPort? {n : Node} (hport : n.outputPort? = some c.sourcePort)
    (hsource : c.source = n.id) : c.LeavesOutput n.kind := by
  obtain ⟨p, hp, hid⟩ := Option.map_eq_some_iff.1 hport
  rw [LeavesOutput, hsource]
  exact ⟨p, List.mem_of_find?_eq_some hp, hid, by simpa using List.find?_some hp⟩

theorem entersInput_folder_iff : c.EntersInput source .folder ↔
    c.targetPort = Port.inputId c.target Role.files ∧ source.isFile = true := by
  unfold EntersInput
  simp only [Kind.ports, List.mem_cons, List.not_mem_nil, or_false, exists_eq_or_imp,
    exists_eq_left, Port.input, Port.output, Port.acceptsKind, Port.inputId]
  cases source <;> simp [Kind.isFile, eq_comm]

theorem entersInput_code_iff : c.EntersInput source .code ↔
    c.targetPort = Port.inputId c.target Role.imports ∧ source ∈ Kind.importable := by
  unfold EntersInput
  simp only [Kind.ports, List.mem_cons, List.not_mem_nil, or_false, exists_eq_or_imp,
    exists_eq_left, Port.input, Port.output, Port.acceptsKind, Port.inputId]
  cases source <;> simp [Kind.importable, eq_comm]

/-- Only folders have an input for files. -/
theorem EntersInput.eq_folder (h : c.EntersInput source target)
    (hfiles : Port.matchesRole c.targetPort Role.files = true) : target = .folder := by
  have hother : ∀ role ∈ [Role.imports, Role.dom, Role.source], .char '-' ∉ role.toList ∧
      Text.occursIn (Text.lower Role.files).toList (Text.lower role).toList = false := by
    decide
  have hnone : ∀ role ∈ [Role.imports, Role.dom, Role.source],
      c.targetPort ≠ Port.inputId c.target role := by
    intro role hrole hport
    obtain ⟨hyphen, hout⟩ := hother role hrole
    rw [hport, Port.matchesRole_inputId hyphen, hout] at hfiles
    cases hfiles
  obtain ⟨p, hp, hid, hinput, -⟩ := h
  cases target with
  | folder => rfl
  | code =>
      simp only [Kind.ports, List.mem_cons, List.not_mem_nil, or_false] at hp
      obtain rfl | rfl := hp
      · exact absurd hid.symm (hnone Role.imports (by decide))
      · cases hinput
  | preview =>
      simp only [Kind.ports, List.mem_cons, List.not_mem_nil, or_false] at hp
      obtain rfl | rfl := hp
      · exact absurd hid.symm (hnone Role.dom (by decide))
      · cases hinput
  | terminal =>
      obtain rfl := List.mem_singleton.1 hp
      exact absurd hid.symm (hnone Role.source (by decide))
  | packageSearch | image | note =>
      obtain rfl := List.mem_singleton.1 hp
      cases hinput
  | chat => cases hp

end Connection

/-! ## Well-typed graphs -/

namespace Graph

/-- The target of the connection has the input that it enters, which takes the source's kind. -/
def Accepts (g : Graph) (c : Connection) : Prop :=
  ∃ source ∈ g.nodes, ∃ target ∈ g.nodes, source.id = c.source ∧ target.id = c.target ∧
    c.EntersInput source.kind target.kind

/-- The connection leads from an output of its source to an input that takes the source's kind. -/
def WellTyped (g : Graph) (c : Connection) : Prop :=
  ∃ source ∈ g.nodes, ∃ target ∈ g.nodes, source.id = c.source ∧ target.id = c.target ∧
    c.LeavesOutput source.kind ∧ c.EntersInput source.kind target.kind

instance (g : Graph) : DecidablePred g.Accepts := fun _ =>
  inferInstanceAs (Decidable (∃ source ∈ g.nodes, ∃ target ∈ g.nodes, _))

instance (g : Graph) : DecidablePred g.WellTyped := fun _ =>
  inferInstanceAs (Decidable (∃ source ∈ g.nodes, ∃ target ∈ g.nodes, _))

/-- Every connection of the graph is well-typed. -/
def Typed (g : Graph) : Prop := ∀ c ∈ g.connections, g.WellTyped c

variable {g g' : Graph} {c : Connection}

theorem WellTyped.accepts (h : g.WellTyped c) : g.Accepts c := by
  obtain ⟨source, hsource, target, htarget, hfrom, hto, -, henters⟩ := h
  exact ⟨source, hsource, target, htarget, hfrom, hto, henters⟩

/-- A connection stays well-typed while its ends keep their kinds. -/
theorem WellTyped.of_kept (h : g.WellTyped c) (hkept : ∀ n ∈ g.nodes, c.touches n.id = true →
    ∃ m ∈ g'.nodes, m.id = n.id ∧ m.kind = n.kind) : g'.WellTyped c := by
  obtain ⟨source, hsource, target, htarget, hfrom, hto, hleaves, henters⟩ := h
  obtain ⟨source', hsource', hfrom', hkind⟩ :=
    hkept source hsource (by simp [Connection.touches, hfrom])
  obtain ⟨target', htarget', hto', hkind'⟩ :=
    hkept target htarget (by simp [Connection.touches, hto])
  exact ⟨source', hsource', target', htarget', hfrom'.trans hfrom, hto'.trans hto,
    hkind ▸ hleaves, hkind ▸ hkind' ▸ henters⟩

namespace Typed

/-- Fewer connections are well-typed while all nodes keep their kinds. -/
theorem of_kept (h : g.Typed) (hsub : g'.connections ⊆ g.connections)
    (hkept : ∀ n ∈ g.nodes, ∃ m ∈ g'.nodes, m.id = n.id ∧ m.kind = n.kind) : g'.Typed :=
  fun c hc => (h c (hsub hc)).of_kept fun n hn _ => hkept n hn

theorem addNode (h : g.Typed) {n : Node} (hnew : n.id ∉ idsOf g.nodes) : (g.addNode n).Typed := by
  refine h.of_kept (List.Subset.refl _) fun m hm => ⟨m, ?_, rfl, rfl⟩
  show m ∈ placeNode g.nodes n
  rw [placeNode_of_notMem hnew]
  exact List.mem_append_left _ hm

theorem modifyNode (h : g.Typed) (id : NodeId) {change : Node → Node}
    (hid : ∀ n, (change n).id = n.id) (hkind : ∀ n, (change n).kind = n.kind) :
    (g.modifyNode id change).Typed := by
  refine h.of_kept (List.Subset.refl _) fun n hn => ⟨_, List.mem_map_of_mem hn, ?_, ?_⟩
  · split
    · exact hid n
    · rfl
  · split
    · exact hkind n
    · rfl

/-- A removed node takes its connections along, and no other loses an end. -/
theorem removeNode (h : g.Typed) (id : NodeId) : (g.removeNode id).Typed := by
  unfold Graph.removeNode
  split
  · intro c hc
    obtain ⟨hc, htouches⟩ := List.mem_filter.1 hc
    refine (h c hc).of_kept fun n hn hend => ⟨forgetInContext id n, ?_, rfl, rfl⟩
    have hne : n.id ≠ id := by
      rintro rfl
      rw [hend] at htouches
      cases htouches
    exact List.mem_map_of_mem (List.mem_filter.2 ⟨hn, by simpa using hne⟩)
  · exact h

theorem disconnect (h : g.Typed) (name : Text) : (g.disconnect name).Typed :=
  h.of_kept (List.filter_subset_self _) fun n hn => ⟨n, hn, rfl, rfl⟩

theorem connect (h : g.Typed) (hc : g.hasEnds c = true → g.WellTyped c) : (g.connect c).Typed := by
  unfold Graph.connect
  split
  · next hadmits =>
      intro e he
      obtain he | he := List.mem_append.1 he
      · exact h e he
      · rw [List.mem_singleton.1 he]
        exact hc (Bool.and_eq_true_iff.1 hadmits).1
  · exact h

end Typed

end Graph
end LiveCanvas
