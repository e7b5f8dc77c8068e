import LiveCanvas.Proofs.Edit.Filing
import LiveCanvas.Proofs.Edit.Target

/-!
# Writing a file

A file is written in two steps: it gets its content, being made if the path leads nowhere, and then
it is put into the folder that the path names, unless its path begins with that folder already.
-/

namespace LiveCanvas

/-- A node when the node with an id gets new content. -/
def Node.putContent (id : NodeId) (content : Text) (n : Node) : Node :=
  if n.id = id then { n with content } else n

namespace Node

theorem content_putContent_self (n : Node) (content : Text) :
    (n.putContent n.id content).content = content := by
  rw [putContent, if_pos rfl]

theorem putContent_of_ne {n : Node} {id : NodeId} (h : n.id ≠ id) (content : Text) :
    n.putContent id content = n :=
  if_neg h

/-- A new content is no new name. -/
theorem keepsNames_putContent (id : NodeId) (content : Text) :
    KeepsNames (putContent id content) := by
  constructor
  · intro n
    unfold putContent
    split
    · rfl
    · rfl
  · intro n
    unfold putContent
    split
    · rfl
    · rfl
  · intro n
    unfold putContent
    split
    · rfl
    · rfl

end Node

/-- A file of the graph got the content, or was made with it. -/
inductive Put (before : List Connection) (path content : Text) (g : Graph) : Graph → Prop
  | overwritten (g' : Graph) (n : Node) (found : Path.target? path g.nodes before = some n)
      (nodes : g'.nodes = g.nodes.map (Node.putContent n.id content))
      (connections : g'.connections = g.connections) : Put before path content g g'
  | made (g' : Graph) (n : Node) (missing : Path.target? path g.nodes before = none)
      (nodes : g'.nodes = g.nodes ++ [n]) (connections : g'.connections = g.connections)
      (kind : n.kind = .code) (title : n.title = (Path.split path).1)
      (written : n.content = content) (new : n.id ∉ idsOf g.nodes) : Put before path content g g'

/-- The file to which the path leads is in the folder that the path names, or was put there. -/
inductive Placed (before : List Connection) (path : Text) (g g' : Graph) : Prop
  | stays (move : Path.move? path g.nodes before = none) (nodes : g'.nodes = g.nodes)
      (filings : ∀ id, g'.filings id = g.filings id)
  | moves (id : NodeId) (folder : Text) (move : Path.move? path g.nodes before = some (id, folder))
      (filed : Batch.FiledFrom before g id folder g')

namespace Batch

variable {before : List Connection} {ids : IdSource} {b : Batch} {c : BatchContext}
  {path content : Text}

/-- A file is looked up among the nodes as they are and by the connections as they were. -/
theorem find?_code (h : b.Tidy) (title : Text) : b.find? title [.code] =
    b.graph.nodes.find? fun n => n.title == title && n.kind == .code := by
  rw [find?, h.nodes_eq]
  simp only [List.contains_cons, List.contains_nil, Bool.or_false]

theorem decideUpdate_of_none (h : b.Tidy) (content : Text)
    (hnone : Path.target? path b.graph.nodes c.before = none) :
    b.decideUpdate c path content =
      .ok (.create (Path.split path).1 content (Path.split path).2) := by
  unfold Path.target? at hnone
  unfold decideUpdate
  rw [h.nodes_eq]
  cases hresolve : Path.resolve path b.graph.nodes c.before with
  | some n =>
      rw [hresolve] at hnone
      cases hnone
  | none =>
      rw [hresolve] at hnone
      simp only [find?_code h, hnone]

theorem decideUpdate_of_some (h : b.Tidy) (content : Text) {n : Node}
    (hsome : Path.target? path b.graph.nodes c.before = some n) :
    b.decideUpdate c path content =
      if c.permits b.graph n.id then
        .ok (.overwrite n content ((Path.split path).2.filter fun folder =>
          !Path.isBelow folder n b.graph.nodes c.before))
      else .error (.locked (Path.split path).1) := by
  have hlies : ∀ folder, b.liesIn c n folder =
      Path.isBelow folder n b.graph.nodes c.before := by
    intro folder
    rw [liesIn, h.nodes_eq]
    rfl
  unfold Path.target? at hsome
  unfold decideUpdate
  rw [h.nodes_eq]
  cases hresolve : Path.resolve path b.graph.nodes c.before with
  | some m =>
      rw [hresolve, Option.some.injEq] at hsome
      subst hsome
      simp only [hlies]
  | none =>
      rw [hresolve] at hsome
      simp only [find?_code h, hsome, hlies]

/-- A write that is not refused makes a file or overwrites the one to which its path leads. -/
theorem decideUpdate_eq_ok (h : b.Tidy) {action : Action}
    (hok : b.decideUpdate c path content = .ok action) :
    (Path.target? path b.graph.nodes c.before = none ∧
      action = .create (Path.split path).1 content (Path.split path).2) ∨
    ∃ n, Path.target? path b.graph.nodes c.before = some n ∧ c.permits b.graph n.id = true ∧
      action = .overwrite n content ((Path.split path).2.filter fun folder =>
        !Path.isBelow folder n b.graph.nodes c.before) := by
  cases htarget : Path.target? path b.graph.nodes c.before with
  | none =>
      rw [decideUpdate_of_none h content htarget] at hok
      exact .inl ⟨rfl, (Except.ok.inj hok).symm⟩
  | some n =>
      rw [decideUpdate_of_some h content htarget] at hok
      split at hok
      · next hpermits => exact .inr ⟨n, rfl, hpermits, (Except.ok.inj hok).symm⟩
      · cases hok

/-- A write that moves a file overwrites it and puts it into the folder. -/
theorem decideUpdate_of_move? (h : b.Tidy) (content : Text) {n : Node} {folder : Text}
    (htarget : Path.target? path b.graph.nodes c.before = some n)
    (hmove : Path.move? path b.graph.nodes c.before = some (n.id, folder))
    (hpermits : c.permits b.graph n.id = true) :
    b.decideUpdate c path content = .ok (.overwrite n content (some folder)) := by
  rw [Path.move?_of_target? htarget, Option.map_eq_some_iff] at hmove
  obtain ⟨folder', hfilter, heq⟩ := hmove
  obtain rfl := congrArg Prod.snd heq
  rw [decideUpdate_of_some h content htarget, hfilter, if_pos hpermits]

@[simp] theorem nodes_feedAnchor (b : Batch) (c : BatchContext) (n : Node) :
    (b.feedAnchor c n).graph.nodes = b.graph.nodes := by
  unfold feedAnchor
  split
  · exact nodes_wire _ _ _ _
  · rfl

@[simp] theorem filings_feedAnchor (b : Batch) (c : BatchContext) (n : Node) (id : NodeId) :
    (b.feedAnchor c n).graph.filings id = b.graph.filings id := by
  unfold feedAnchor
  split
  · exact filings_wire_imports _ _ _
  · rfl

theorem placed_overwrite (h : Followed c.before ids b) {n : Node}
    (htarget : Path.target? path b.graph.nodes c.before = some n) :
    ∃ mid : Graph, mid.Sound ∧ Put c.before path content b.graph mid ∧
      Placed c.before path mid (b.perform c (.overwrite n content ((Path.split path).2.filter
        fun folder => !Path.isBelow folder n b.graph.nodes c.before))).graph := by
  let b' := (b.onGraph fun g => g.setContent n.id content).noteChange (.updated n.title) n.id
  have hnames := Node.keepsNames_putContent n.id content
  have hb' : Followed c.before ids b' := (keeps_followed c.before ids).noteChange
    ((keeps_followed c.before ids).setContent b n.id content h) _ _
  have hmove : Path.move? path b'.graph.nodes c.before =
      ((Path.split path).2.filter fun folder =>
        !Path.isBelow folder n b.graph.nodes c.before).map fun folder => (n.id, folder) :=
    (Path.move?_map path b.graph.nodes c.before hnames).trans (Path.move?_of_target? htarget)
  refine ⟨b'.graph, hb'.sound, .overwritten _ n htarget rfl rfl, ?_⟩
  cases hfolder : (Path.split path).2.filter fun folder =>
      !Path.isBelow folder n b.graph.nodes c.before with
  | none =>
      rw [hfolder] at hmove
      exact .stays hmove rfl fun _ => rfl
  | some folder =>
      rw [hfolder] at hmove
      have hn := List.mem_map_of_mem (f := Node.putContent n.id content)
        (Path.mem_of_target? htarget)
      exact .moves n.id folder hmove
        (filedFrom_file hb' ⟨_, hn, hnames.id n, hnames.kind n⟩ folder)

theorem placed_create (h : Followed c.before ids b)
    (hends : ∀ e ∈ c.before, e.source ∈ idsOf b.graph.nodes ∧ e.target ∈ idsOf b.graph.nodes)
    (htarget : Path.target? path b.graph.nodes c.before = none) :
    ∃ mid : Graph, mid.Sound ∧ Put c.before path content b.graph mid ∧
      Placed c.before path mid
        (b.perform c (.create (Path.split path).1 content (Path.split path).2)).graph := by
  let title := (Path.split path).1
  let request : NodeRequest := { kind := .code, title := some title, content := some content,
                                 position := b.nearAnchor c c.placement.fileOffset }
  let n := (b.add request).1
  let b' := (b.add request).2.noteChange (.created title) n.id
  have hnodes : b'.graph.nodes = b.graph.nodes ++ [n] := h.tidy.nodes_add request rfl
  have hnew : n.id ∉ idsOf b.graph.nodes := h.tidy.id_add_notMem request rfl
  have hb' : Followed c.before ids b' := (keeps_followed c.before ids).noteChange
    ((keeps_followed c.before ids).add b request rfl h) _ _
  have hapart : ∀ e ∈ c.before, e.source ≠ n.id ∧ e.target ≠ n.id := by
    intro e he
    obtain ⟨hsource, htarget⟩ := hends e he
    exact ⟨fun hid => hnew (hid ▸ hsource), fun hid => hnew (hid ▸ htarget)⟩
  have hmove : Path.move? path b'.graph.nodes c.before =
      (Path.split path).2.map fun folder => (n.id, folder) := by
    rw [hnodes]
    exact Path.move?_append_new hapart rfl rfl htarget
  refine ⟨b'.graph, hb'.sound, .made _ n htarget hnodes rfl rfl rfl rfl hnew, ?_⟩
  cases hfolder : (Path.split path).2 with
  | none =>
      rw [hfolder] at hmove
      exact .stays hmove (nodes_feedAnchor b' c n) (filings_feedAnchor b' c n)
  | some folder =>
      rw [hfolder] at hmove
      have hn : n ∈ b'.graph.nodes := by
        rw [hnodes]
        exact List.mem_append_right _ (List.mem_singleton_self n)
      exact .moves n.id folder hmove (filedFrom_file hb' ⟨n, hn, rfl, rfl⟩ folder)

/-- A write that is not refused puts the content and then places the file. -/
theorem placed_updateFile (h : Followed c.before ids b)
    (hends : ∀ e ∈ c.before, e.source ∈ idsOf b.graph.nodes ∧ e.target ∈ idsOf b.graph.nodes)
    (hallowed : ∀ refusal, b.decideUpdate c path content ≠ .error refusal) :
    ∃ mid : Graph, mid.Sound ∧ Put c.before path content b.graph mid ∧
      Placed c.before path mid (b.apply c (.updateFile path content)).graph := by
  cases htarget : Path.target? path b.graph.nodes c.before with
  | none =>
      rw [apply, decide, decideUpdate_of_none h.tidy content htarget]
      exact placed_create h hends htarget
  | some n =>
      have hdecide := decideUpdate_of_some h.tidy content htarget
      split at hdecide
      · rw [apply, decide, hdecide]
        exact placed_overwrite h htarget
      · exact absurd hdecide (hallowed _)

end Batch
end LiveCanvas
