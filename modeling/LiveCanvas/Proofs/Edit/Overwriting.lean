import LiveCanvas.Proofs.Edit.Descent

/-!
# What a batch overwrites

Only one action writes into a node that is there already: the overwriting to which an `updateFile`
comes when its path leads to a node.  So the contents after a batch are known from the writes alone:
a node has the content that was written into it last, or the one it had.  The path may lead to a
node of any kind.  Whatever is no file is written into by the calls whose paths resolve to it, and
by no other ones.
-/

namespace LiveCanvas

/-- What an action writes into a node that is there. -/
def Action.write? : Action → Option (NodeId × Text)
  | overwrite n content _ => some (n.id, content)
  | _ => none

/-- The content of a node after some writes, each into the node with an id. -/
def contentAfter (writes : List (NodeId × Text)) (id : NodeId) (content : Text) : Text :=
  writes.foldl (fun content write => if write.1 = id then write.2 else content) content

section ContentAfter

variable {writes more : List (NodeId × Text)} {id : NodeId} {content : Text}

@[simp] theorem contentAfter_nil : contentAfter [] id content = content := rfl

theorem contentAfter_append : contentAfter (writes ++ more) id content =
    contentAfter more id (contentAfter writes id content) :=
  List.foldl_append

/-- Only what is written into the node becomes its content. -/
theorem contentAfter_eq_or_mem :
    contentAfter writes id content = content ∨ (id, contentAfter writes id content) ∈ writes := by
  induction writes using List.reverseRecOn with
  | nil => exact .inl rfl
  | append_singleton writes write ih =>
      have hstep : contentAfter (writes ++ [write]) id content =
          if write.1 = id then write.2 else contentAfter writes id content := contentAfter_append
      rw [hstep]
      split
      · next hid =>
          subst hid
          exact .inr (List.mem_append_right _ (List.mem_singleton_self _))
      · exact ih.imp_right (List.mem_append_left _)

end ContentAfter

/-- The nodes that were there before and still are have the contents that the writes leave. -/
def Overwrites (writes : List (NodeId × Text)) (nodes nodes' : List Node) : Prop :=
  ∀ n ∈ nodes, ∀ m ∈ nodes', m.id = n.id → m.content = contentAfter writes n.id n.content

namespace Batch

variable {b : Batch} {c : BatchContext} {calls : List Value} {call : Value}

/-- What a call writes into a node that is there. -/
def write? (b : Batch) (c : BatchContext) (call : Value) : Option (NodeId × Text) :=
  match Command.ofCall call with
  | .error _ => none
  | .ok command =>
    match b.decide c command with
    | .error _ => none
    | .ok action => action.write?

/-- What the calls of a batch write into nodes that are there, in order. -/
def writes (b : Batch) (c : BatchContext) : List Value → List (NodeId × Text)
  | [] => []
  | call :: calls => (b.write? c call).toList ++ (b.applyCall c call).writes c calls

/-! ## One action -/

section NodeLists

variable {nodes kept added : List Node} (hnodup : (idsOf nodes).Nodup)
include hnodup

/-- Contents are known when nodes are changed in their places and new ones come at the end. -/
theorem overwrites_of_nodes_eq {writes : List (NodeId × Text)} {change : Node → Node}
    (hkept : kept ⊆ nodes) (hid : ∀ n, (change n).id = n.id)
    (hcontent : ∀ n, (change n).content = contentAfter writes n.id n.content)
    (hnew : ∀ a ∈ added, a.id ∉ idsOf nodes) :
    Overwrites writes nodes (kept.map change ++ added) := by
  intro n hn m hm heq
  obtain hold | hadded := List.mem_append.1 hm
  · obtain ⟨k, hk, rfl⟩ := List.mem_map.1 hold
    rw [hid] at heq
    obtain rfl := eq_of_mem_of_id_eq hnodup (hkept hk) hn heq
    exact hcontent k
  · exact absurd (heq ▸ mem_idsOf_of_mem hn) (hnew m hadded)

theorem overwrites_append (hnew : ∀ a ∈ added, a.id ∉ idsOf nodes) :
    Overwrites [] nodes (nodes ++ added) := by
  have hsame : Overwrites [] nodes (nodes.map (fun n => n) ++ added) :=
    overwrites_of_nodes_eq hnodup (List.Subset.refl nodes) (fun _ => rfl) (fun _ => rfl) hnew
  rwa [List.map_id'] at hsame

theorem overwrites_map {writes : List (NodeId × Text)} {change : Node → Node}
    (hkept : kept ⊆ nodes) (hid : ∀ n, (change n).id = n.id)
    (hcontent : ∀ n, (change n).content = contentAfter writes n.id n.content) :
    Overwrites writes nodes (kept.map change) := by
  have hsame : Overwrites writes nodes (kept.map change ++ []) :=
    overwrites_of_nodes_eq hnodup hkept hid hcontent (by simp)
  rwa [List.append_nil] at hsame

theorem overwrites_refl : Overwrites [] nodes nodes := by
  have hsame : Overwrites [] nodes (nodes ++ []) := overwrites_append hnodup (by simp)
  rwa [List.append_nil] at hsame

end NodeLists

theorem overwrites_ensureFolder (ht : b.Tidy) (title : Text) (position : Position) :
    Overwrites [] b.graph.nodes (b.ensureFolder title position).2.graph.nodes := by
  obtain ⟨added, hadded, hnew⟩ := nodes_ensureFolder ht title position
  rw [hadded]
  exact overwrites_append ht.nodup fun a ha => (hnew a ha).2.2

theorem overwrites_overwrite (ht : b.Tidy) (c : BatchContext) (n : Node) (content : Text)
    (folder : Option Text) :
    Overwrites [(n.id, content)] b.graph.nodes
      (b.perform c (.overwrite n content folder)).graph.nodes := by
  let written := (b.onGraph fun g => g.setContent n.id content).noteChange (.updated n.title) n.id
  have hwritten : written.Tidy :=
    keeps_tidy.noteChange (keeps_tidy.setContent b n.id content ht) _ _
  have hnames := Node.keepsNames_putContent n.id content
  have hcontent : ∀ m : Node,
      (m.putContent n.id content).content = contentAfter [(n.id, content)] m.id m.content := by
    intro m
    by_cases hid : m.id = n.id
    · rw [Node.putContent, if_pos hid]
      exact (if_pos hid.symm).symm
    · rw [Node.putContent_of_ne hid]
      exact (if_neg (Ne.symm hid)).symm
  cases folder with
  | none => exact overwrites_map ht.nodup (List.Subset.refl _) hnames.id hcontent
  | some title =>
      obtain ⟨added, hadded, hnew⟩ :=
        nodes_ensureFolder hwritten title (written.nearAnchor c c.placement.folderOffset)
      have hids : idsOf written.graph.nodes = idsOf b.graph.nodes := hnames.idsOf_map _
      show Overwrites _ _ (written.file c n title).graph.nodes
      rw [nodes_file, hadded]
      exact overwrites_of_nodes_eq ht.nodup (List.Subset.refl _) hnames.id hcontent
        fun a ha => hids ▸ (hnew a ha).2.2

theorem overwrites_create (ht : b.Tidy) (c : BatchContext) (title content : Text)
    (folder : Option Text) :
    Overwrites [] b.graph.nodes (b.perform c (.create title content folder)).graph.nodes := by
  let request : NodeRequest := { kind := .code, title := some title, content := some content,
                                 position := b.nearAnchor c c.placement.fileOffset }
  let n := (b.add request).1
  let made := (b.add request).2.noteChange (.created title) n.id
  have hnodes : made.graph.nodes = b.graph.nodes ++ [n] := ht.nodes_add request rfl
  have hnew : n.id ∉ idsOf b.graph.nodes := ht.id_add_notMem request rfl
  cases folder with
  | none =>
      show Overwrites _ _ (made.feedAnchor c n).graph.nodes
      rw [nodes_feedAnchor, hnodes]
      exact overwrites_append ht.nodup (by simpa using hnew)
  | some folder =>
      have hmade : made.Tidy := keeps_tidy.noteChange (ht.add request rfl) _ _
      obtain ⟨added, hadded, hlater⟩ :=
        nodes_ensureFolder hmade folder (made.nearAnchor c c.placement.folderOffset)
      show Overwrites _ _ (made.file c n folder).graph.nodes
      rw [nodes_file, hadded, hnodes, List.append_assoc]
      refine overwrites_append ht.nodup fun a ha => ?_
      obtain rfl | ha := List.mem_cons.1 ha
      · exact hnew
      · have hapart := (hlater a ha).2.2
        rw [hnodes, idsOf_append] at hapart
        exact fun hold => hapart (List.mem_append_left _ hold)

theorem overwrites_move (ht : b.Tidy) (c : BatchContext) (n : Node) (folder : Option Text) :
    Overwrites [] b.graph.nodes (b.perform c (.move n folder)).graph.nodes := by
  have hnodes := nodes_detach b c n.id
  cases folder with
  | none =>
      show Overwrites _ _ (b.detach c n.id).graph.nodes
      rw [hnodes]
      exact overwrites_refl ht.nodup
  | some title =>
      let offset := c.placement.moveFolderOffset
      let position := n.position.offset offset.x offset.y
      let made := (b.detach c n.id).ensureFolder title position
      have hmade := overwrites_ensureFolder (keeps_tidy.detach ht c n.id) title position
      show Overwrites _ _ (made.2.wire n made.1 Role.files).2.graph.nodes
      rw [nodes_wire]
      rwa [hnodes] at hmade

/-- An action leaves the contents that its write leaves, if it has one. -/
theorem overwrites_perform (ht : b.Tidy) (c : BatchContext) {action : Action}
    (hknown : action.KnownIn b.nodes) :
    Overwrites action.write?.toList b.graph.nodes (b.perform c action).graph.nodes := by
  cases action with
  | overwrite n content folder => exact overwrites_overwrite ht c n content folder
  | create title content folder => exact overwrites_create ht c title content folder
  | move n folder => exact overwrites_move ht c n folder
  | rename n oldTitle newTitle =>
      refine overwrites_map ht.nodup (List.Subset.refl _) (fun m => ?_) fun m => ?_
      · split
        · rfl
        · rfl
      · split
        · rfl
        · rfl
  | delete n title =>
      have hn : n.id ∈ idsOf b.graph.nodes := mem_idsOf_of_mem (ht.nodes_eq ▸ hknown.1)
      show Overwrites _ _ (b.remove n.id).graph.nodes
      rw [nodes_remove hn]
      exact overwrites_map ht.nodup (List.filter_subset_self _) (fun _ => rfl) fun _ => rfl
  | place source folder =>
      show Overwrites _ _ ((b.detach c source.id).wire source folder Role.files).2.graph.nodes
      rw [nodes_wire, nodes_detach]
      exact overwrites_refl ht.nodup
  | importInto source target =>
      have hnodes : (b.perform c (.importInto source target)).graph.nodes = b.graph.nodes := by
        simp only [perform]
        split
        · exact nodes_wire _ _ _ _
        · exact nodes_wire _ _ _ _
      rw [hnodes]
      exact overwrites_refl ht.nodup

/-! ## One call -/

theorem write?_of_decide {command : Command} {action : Action}
    (hcall : Command.ofCall call = .ok command) (hdecide : b.decide c command = .ok action) :
    b.write? c call = action.write? := by
  rw [write?, hcall]
  simp only [hdecide]

theorem write?_of_refused {refusal : Refusal} (h : b.refusal? c call = some refusal) :
    b.write? c call = none := by
  rw [refusal?] at h
  rw [write?]
  cases hcall : Command.ofCall call with
  | error e => rfl
  | ok command =>
      simp only [hcall] at h ⊢
      cases hdecide : b.decide c command with
      | error refusal => rfl
      | ok action =>
          simp only [hdecide] at h
          cases h

theorem overwrites_applyCall (ht : b.Tidy) (c : BatchContext) (call : Value) :
    Overwrites (b.write? c call).toList b.graph.nodes (b.applyCall c call).graph.nodes := by
  cases hrefusal : b.refusal? c call with
  | some refusal =>
      rw [applyCall_of_refused hrefusal, write?_of_refused hrefusal]
      exact overwrites_refl ht.nodup
  | none =>
      obtain ⟨command, action, hcall, hdecide, hperform⟩ := exists_applyCall_eq_perform hrefusal
      rw [hperform, write?_of_decide hcall hdecide]
      exact overwrites_perform ht c (decided_of_decide ht hdecide).known

/-- A call writes into a node just if it writes a file whose path leads there, and may change it. -/
theorem write?_eq_some_iff (ht : b.Tidy) {id : NodeId} {content : Text} :
    b.write? c call = some (id, content) ↔
      ∃ path n, Command.ofCall call = .ok (.updateFile path content) ∧
        Path.target? path b.graph.nodes c.before = some n ∧ n.id = id ∧
          c.permits b.graph id = true := by
  constructor
  · intro hwrite
    cases hrefusal : b.refusal? c call with
    | some refusal =>
        rw [write?_of_refused hrefusal] at hwrite
        cases hwrite
    | none =>
        obtain ⟨command, action, hcall, hdecide, -⟩ := exists_applyCall_eq_perform hrefusal
        rw [write?_of_decide hcall hdecide] at hwrite
        cases comesTo_of_decide ht hdecide with
        | @overwrite path content n found permitted =>
            cases hwrite
            exact ⟨path, n, hcall, found, rfl, permitted⟩
        | create | delete | move | rename | place | importInto => cases hwrite
  · rintro ⟨path, n, hcall, htarget, rfl, hpermits⟩
    have hdecide := decideUpdate_of_some ht content htarget
    rw [if_pos hpermits] at hdecide
    exact write?_of_decide hcall hdecide

/-- What is no code file is written into just by the calls whose paths resolve to it. -/
theorem write?_eq_some_iff_resolve (ht : b.Tidy) {n : Node} (hn : n ∈ b.graph.nodes)
    (hcode : n.kind ≠ .code) {content : Text} :
    b.write? c call = some (n.id, content) ↔
      ∃ path, Command.ofCall call = .ok (.updateFile path content) ∧
        Path.resolve path b.graph.nodes c.before = some n ∧ c.permits b.graph n.id = true := by
  rw [write?_eq_some_iff ht]
  refine exists_congr fun path => ⟨?_, ?_⟩
  · rintro ⟨m, hcall, htarget, hid, hpermits⟩
    obtain rfl := eq_of_mem_of_id_eq ht.nodup (Path.mem_of_target? htarget) hn hid
    exact ⟨hcall, (Path.target?_eq_some_iff_resolve hcode).1 htarget, hpermits⟩
  · rintro ⟨hcall, hresolve, hpermits⟩
    exact ⟨n, hcall, (Path.target?_eq_some_iff_resolve hcode).2 hresolve, rfl, hpermits⟩

/-! ## Several calls -/

theorem writes_concat (b : Batch) (c : BatchContext) (calls : List Value) (call : Value) :
    b.writes c (calls ++ [call]) = b.writes c calls ++
      ((calls.foldl (fun b call => b.applyCall c call) b).write? c call).toList := by
  induction calls generalizing b with
  | nil => simp [writes]
  | cons first calls ih =>
      simp only [List.cons_append, writes, ih, List.foldl_cons, List.append_assoc]

/-- Each write is that of one call, in the batch as the calls before it left it. -/
theorem mem_writes_iff {write : NodeId × Text} : write ∈ b.writes c calls ↔
    ∃ earlier call later, calls = earlier ++ call :: later ∧
      (earlier.foldl (fun b call => b.applyCall c call) b).write? c call = some write := by
  induction calls generalizing b with
  | nil => simp [writes]
  | cons first calls ih =>
      rw [writes, List.mem_append, Option.mem_toList, ih]
      constructor
      · rintro (hfirst | ⟨earlier, call, later, rfl, hwrite⟩)
        · exact ⟨[], first, calls, rfl, hfirst⟩
        · exact ⟨first :: earlier, call, later, rfl, hwrite⟩
      · rintro ⟨earlier, call, later, hcalls, hwrite⟩
        cases earlier with
        | nil =>
            rw [List.nil_append, List.cons.injEq] at hcalls
            obtain ⟨rfl, -⟩ := hcalls
            exact .inl hwrite
        | cons first' earlier =>
            rw [List.cons_append, List.cons.injEq] at hcalls
            obtain ⟨rfl, hcalls⟩ := hcalls
            exact .inr ⟨earlier, call, later, hcalls, hwrite⟩

end Batch

/-! ## Whole batches -/

section Batches

variable {g : Graph} {ids : IdSource} (hnodup : (idsOf g.nodes).Nodup) (hfresh : ids.FreshFor g)
  (setting : BatchSetting) (calls : List Value)
include hnodup hfresh

/-- The contents after a batch are those that its writes leave. -/
theorem overwrites_runBatch :
    Overwrites ((Batch.start g ids).writes (setting.context g) calls) g.nodes
      (runBatch setting g ids calls).graph.nodes := by
  induction calls using List.reverseRecOn with
  | nil => exact Batch.overwrites_refl hnodup
  | append_singleton calls call ih =>
      have ht := tidy_runBatch hnodup hfresh setting calls
      intro n hn m hm hid
      rw [runBatch_concat] at hm
      -- a node with the id was there before the call too, because the id was not to come any more
      obtain ⟨k, hk, hrevised, -⟩ | hmade :=
        (Batch.Descends.applyCall ht (setting.context g) call).origin m hm
      · have hkn : k.id = n.id := hrevised.id_eq.symm.trans hid
        have hstep := Batch.overwrites_applyCall ht (setting.context g) call k hk m hm
          (hid.trans hkn.symm)
        rw [Batch.writes_concat, contentAfter_append, ← ih n hn k hk hkn, hstep, hkn]
        rfl
      · have hpast := (hfresh.isPast (mem_idsOf_of_mem hn)).mono
          (descends_runBatch hnodup hfresh setting calls).next_le
        exact absurd hid (hmade.id_ne hpast)

/-- Whatever is no file is there after a batch, and its content is the one that was written into it
last, or the one it had.  Nothing is written into it but by the calls that write a file, resolve to
it by title or path when their turn comes, and are permitted to change it. -/
theorem content_runBatch_of_not_isFile {n : Node} (hn : n ∈ g.nodes) (hfile : n.isFile = false) :
    let writes := (Batch.start g ids).writes (setting.context g) calls
    (∃ m, (runBatch setting g ids calls).graph.node? n.id = some m ∧ m.kind = n.kind ∧
      m.content = contentAfter writes n.id n.content ∧
      (m.content = n.content ∨ (n.id, m.content) ∈ writes)) ∧
    ∀ content, (n.id, content) ∈ writes ↔
      ∃ earlier call later path, calls = earlier ++ call :: later ∧
        Command.ofCall call = .ok (.updateFile path content) ∧
        let before := (runBatch setting g ids earlier).graph
        (∃ t, Path.resolve path before.nodes g.connections = some t ∧ t.id = n.id) ∧
          setting.permits before n.id = true := by
  intro writes
  have hcode : n.kind ≠ .code := by
    intro hcode
    rw [Node.isFile, hcode] at hfile
    cases hfile
  have hnode : g.node? n.id = some n := Graph.node?_of_mem hnodup hn
  refine ⟨?_, fun content => ?_⟩
  · obtain ⟨m, hafter, hrevised⟩ := exists_node?_runBatch hnodup hfresh setting calls hnode hcode
    have hcontent : m.content = contentAfter writes n.id n.content :=
      overwrites_runBatch hnodup hfresh setting calls n hn m (Graph.node?_eq_some hafter).1
        hrevised.id_eq
    refine ⟨m, hafter, hrevised.kind_eq, hcontent, ?_⟩
    rw [hcontent]
    exact contentAfter_eq_or_mem
  · rw [Batch.mem_writes_iff]
    refine exists_congr fun earlier => exists_congr fun call => exists_congr fun later => ?_
    -- the node as the earlier calls left it
    obtain ⟨k, hk, hrevised⟩ := exists_node?_runBatch hnodup hfresh setting earlier hnode hcode
    obtain ⟨hkmem, hkid⟩ := Graph.node?_eq_some hk
    have ht := tidy_runBatch hnodup hfresh setting earlier
    have hkcode : k.kind ≠ .code := hrevised.kind_eq ▸ hcode
    rw [← hkid]
    constructor
    · rintro ⟨rfl, hwrite⟩
      obtain ⟨path, hcall, hresolve, hpermits⟩ :=
        (Batch.write?_eq_some_iff_resolve ht hkmem hkcode).1 hwrite
      exact ⟨path, rfl, hcall, ⟨k, hresolve, rfl⟩, hpermits⟩
    · rintro ⟨path, rfl, hcall, ⟨t, hresolve, htid⟩, hpermits⟩
      obtain rfl := eq_of_mem_of_id_eq ht.nodup (Path.mem_of_resolve hresolve) hkmem htid
      exact ⟨rfl, (Batch.write?_eq_some_iff_resolve ht hkmem hkcode).2
        ⟨path, hcall, hresolve, hpermits⟩⟩

end Batches

/-- A preview is written into twice. -/
theorem content_runBatch_of_preview :
    let g := Graph.build [{ id := "p", kind := .preview, title := "Preview" }] []
    let update (code : Text) : Value :=
      .object [("name", .text "updateFile"),
        ("args", .object [("filename", .text "Preview"), ("code", .text code)])]
    let calls := [update "x", update "y"]
    ∃ m, (runBatch {} g {} calls).graph.node? "p" = some m ∧ m.kind = .preview ∧
      m.content = "y" := by
  intro g update calls
  have hnodup : (idsOf g.nodes).Nodup := by decide +kernel
  have hfresh : IdSource.FreshFor {} g :=
    .of_not_endsInDigit {} (by decide +kernel) (by decide +kernel)
  have hpreview : { id := "p", kind := .preview, title := "Preview" } ∈ g.nodes :=
    List.mem_cons_self
  have hwrites : (Batch.start g {}).writes (BatchSetting.context {} g) calls =
      [(.ofString "p", .ofString "x"), (.ofString "p", .ofString "y")] := by
    decide +kernel
  obtain ⟨⟨m, hnode, hkind, hcontent, -⟩, -⟩ :=
    content_runBatch_of_not_isFile hnodup hfresh {} calls hpreview rfl
  rw [hwrites] at hcontent
  exact ⟨m, hnode, hkind, hcontent⟩

/-- One call overwrites the preview that has its path as a title, and no file is made. -/
theorem content_of_overwritten_preview :
    let g := Graph.build
      [{ id := "p", kind := .preview, title := "Preview", content := "state" }] []
    let call : Value := .object [("name", .text "updateFile"),
      ("args", .object [("filename", .text "Preview"), ("code", .text "x")])]
    (runBatch {} g {} [call]).graph.nodes.map (fun n => (n.id, n.kind, n.content)) =
      [(.ofString "p", .preview, .ofString "x")] := by
  decide +kernel

end LiveCanvas
