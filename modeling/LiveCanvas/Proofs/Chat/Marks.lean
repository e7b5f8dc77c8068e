import LiveCanvas.Chat.Overlap
import LiveCanvas.Proofs.Canvas.NodeList

/-!
# How a turn begins

Whatever is asked of an assistant, a turn begins in one way: a chat is told the message, and then
the nodes that the turn works on are marked as loading.  They are nodes of the graph, and marking
them is one change of each node, as is taking the marks away at the end.
-/

namespace LiveCanvas

namespace Graph

theorem node?_modifyNode_self {g : Graph} {id : NodeId} {n : Node} (hn : g.node? id = some n)
    {change : Node → Node} (hid : ∀ n, (change n).id = n.id) :
    (g.modifyNode id change).node? id = some (change n) := by
  have hkept : ∀ n : Node, (if n.id = id then change n else n).id = n.id := by
    intro n
    split
    · exact hid n
    · rfl
  rw [node?_of_nodes_eq_map hkept rfl, hn, Option.map_some, if_pos (node?_eq_some hn).2]

/-- The node with a mark put on it or taken away, if it is one of those meant. -/
def markIn (ids : List NodeId) (isLoading : Bool) (n : Node) : Node :=
  if n.id ∈ ids then { n with isLoading } else n

@[simp] theorem id_markIn (ids : List NodeId) (isLoading : Bool) (n : Node) :
    (markIn ids isLoading n).id = n.id := by
  unfold markIn
  split <;> rfl

@[simp] theorem kind_markIn (ids : List NodeId) (isLoading : Bool) (n : Node) :
    (markIn ids isLoading n).kind = n.kind := by
  unfold markIn
  split <;> rfl

@[simp] theorem content_markIn (ids : List NodeId) (isLoading : Bool) (n : Node) :
    (markIn ids isLoading n).content = n.content := by
  unfold markIn
  split <;> rfl

@[simp] theorem messages_markIn (ids : List NodeId) (isLoading : Bool) (n : Node) :
    (markIn ids isLoading n).messages = n.messages := by
  unfold markIn
  split <;> rfl

theorem isLoading_markIn (ids : List NodeId) (isLoading : Bool) (n : Node) :
    (markIn ids isLoading n).isLoading = if n.id ∈ ids then isLoading else n.isLoading := by
  unfold markIn
  split <;> rfl

/-- Marking several nodes one after the other is one change of each node. -/
theorem setLoadingAll_eq (g : Graph) (ids : List NodeId) (isLoading : Bool) :
    g.setLoadingAll ids isLoading = { g with nodes := g.nodes.map (markIn ids isLoading) } :=
  foldl_modifyNode (fun n => { n with isLoading }) (.inr fun _ => rfl) (fun _ => rfl) g

@[simp] theorem idsOf_setLoadingAll (g : Graph) (ids : List NodeId) (isLoading : Bool) :
    idsOf (g.setLoadingAll ids isLoading).nodes = idsOf g.nodes := by
  simp [setLoadingAll_eq, idsOf, Function.comp_def]

theorem node?_setLoadingAll (g : Graph) (ids : List NodeId) (isLoading : Bool) (id : NodeId) :
    (g.setLoadingAll ids isLoading).node? id = (g.node? id).map (markIn ids isLoading) :=
  node?_of_nodes_eq_map (id_markIn ids isLoading) (by rw [setLoadingAll_eq]) id

end Graph

namespace TurnRequest

/-- The kind of the turn. -/
def kind : TurnRequest → TurnKind
  | send chat _ => .send chat
  | generate file _ => .generate file
  | fix _ _ => .fix

/-- The graph after a chat was told the message. -/
def told (g : Graph) : TurnRequest → Graph
  | send chat text => g.addMessage chat ⟨.user, text⟩
  | generate _ _ | fix _ _ => g

end TurnRequest

/-! ## What is marked -/

section Loading

variable {nodes : List Node} {connections : List Connection}

theorem mem_idsOf_of_nodeWithId? {id : NodeId} {n : Node} (h : nodeWithId? nodes id = some n) :
    n.id ∈ idsOf nodes :=
  mem_idsOf_of_mem (nodeWithId?_eq_some h).1

theorem Traversal.mem_idsOf_of_mem_related {start : NodeId} {kind : Option Kind} {n : Node}
    (h : n ∈ related start nodes connections kind) : n.id ∈ idsOf nodes := by
  obtain ⟨id, -, hlook⟩ := List.mem_filterMap.1 (List.mem_of_mem_filter h)
  exact mem_idsOf_of_nodeWithId? hlook

theorem Path.mem_idsOf_of_folderOf {n folder : Node}
    (h : folderOf n nodes connections = some folder) : folder.id ∈ idsOf nodes := by
  obtain ⟨c, -, hlook⟩ := List.exists_of_findSome?_eq_some h
  exact mem_idsOf_of_nodeWithId? (Option.filter_eq_some_iff.1 hlook).1

end Loading

namespace Turn

variable {g begun : Graph} {turn : Turn} {a : Assistant}

/-- Keeping the first node of each id adds no other nodes. -/
theorem filesBehind_subset (g : Graph) (preview : NodeId) {n : Node}
    (hn : n ∈ filesBehind g preview) : n.id ∈ idsOf g.nodes := by
  have hfold : ∀ (more found : List Node), (∀ n ∈ more, n.id ∈ idsOf g.nodes) →
      (∀ n ∈ found, n.id ∈ idsOf g.nodes) →
      ∀ n ∈ more.foldl (fun found n =>
        if found.any (·.id == n.id) then found else found ++ [n]) found, n.id ∈ idsOf g.nodes := by
    intro more
    induction more with
    | nil => exact fun _ _ hfound => hfound
    | cons first more ih =>
        intro found hmore hfound
        rw [List.forall_mem_cons] at hmore
        refine ih _ hmore.2 fun n hn => ?_
        dsimp only at hn
        split at hn
        · exact hfound n hn
        · obtain hn | hn := List.mem_append.1 hn
          · exact hfound n hn
          · rw [List.mem_singleton.1 hn]
            exact hmore.1
  refine hfold _ [] (fun n hn => ?_) (by simp) n hn
  obtain ⟨c, -, hn⟩ := List.mem_flatMap.1 hn
  exact Traversal.mem_idsOf_of_mem_related hn

theorem chatLoading_subset (g : Graph) (chat : Node) (files : List Node) :
    chatLoading g (scope g chat) files ⊆ idsOf g.nodes := by
  intro id hid
  obtain hid | hid := List.mem_append.1 hid
  · obtain ⟨n, hn, rfl⟩ := List.mem_map.1 hid
    obtain ⟨other, -, hlook⟩ := List.mem_filterMap.1 hn
    exact mem_idsOf_of_mem (Graph.node?_eq_some hlook).1
  · obtain ⟨file, -, hfiled⟩ := List.mem_filterMap.1 hid
    obtain ⟨folder, hfolder, rfl⟩ := Option.map_eq_some_iff.1 hfiled
    exact Path.mem_idsOf_of_folderOf hfolder

theorem beginSend_eq_some {chat : NodeId} {text : Text}
    (h : beginSend g chat text = some (turn, begun)) :
    turn.kind = .send chat ∧ turn.loading ⊆ idsOf g.nodes ∧
      begun = turn.mark (g.addMessage chat ⟨.user, text⟩) := by
  obtain ⟨n, -, hbegun⟩ := Option.map_eq_some_iff.1 h
  cases hbegun
  exact ⟨rfl, chatLoading_subset g n _, rfl⟩

theorem beginGenerate_eq_some {file : NodeId} {request : Option Text}
    (h : beginGenerate a g file request = some (turn, begun)) :
    turn.kind = .generate file ∧ turn.loading ⊆ idsOf g.nodes ∧ begun = turn.mark g := by
  obtain ⟨n, -, hbegun⟩ := Option.map_eq_some_iff.1 h
  cases hbegun
  refine ⟨rfl, fun id hid => ?_, rfl⟩
  obtain ⟨m, hm, rfl⟩ := List.mem_map.1 hid
  exact Traversal.mem_idsOf_of_mem_related (List.mem_of_mem_filter hm)

theorem beginFix_eq_some {terminal : NodeId} {error : Text}
    (h : beginFix g terminal error = some (turn, begun)) :
    turn.kind = .fix ∧ turn.loading ⊆ idsOf g.nodes ∧ begun = turn.mark g := by
  obtain ⟨preview, -, hbegun⟩ := Option.bind_eq_some_iff.1 h
  split at hbegun
  · cases hbegun
  · next files _ =>
      cases hbegun
      refine ⟨rfl, fun id hid => ?_, rfl⟩
      obtain ⟨n, hn, rfl⟩ := List.mem_map.1 hid
      exact filesBehind_subset g preview.id hn

end Turn

/-- How a turn begins, whatever it is about. -/
theorem TurnRequest.begin?_eq_some {a : Assistant} {g begun : Graph} {request : TurnRequest}
    {turn : Turn} (h : request.begin? a g = some (turn, begun)) :
    turn.kind = request.kind ∧ turn.loading ⊆ idsOf g.nodes ∧
      begun = turn.mark (request.told g) := by
  cases request with
  | send chat text => exact Turn.beginSend_eq_some h
  | generate file request => exact Turn.beginGenerate_eq_some h
  | fix terminal error => exact Turn.beginFix_eq_some h

end LiveCanvas
