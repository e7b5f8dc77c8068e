import LiveCanvas.Proofs.Chat.FailedTurn
import LiveCanvas.Proofs.Payload.Fits

/-!
# What a repair may do

The answer to a repair is not trusted: it may hold any text and any calls.  Calls that do not ask
for a file to be written are dropped, and one that does writes or makes a file, and may put it into
a folder.  So the nodes stay where they are and what they are; only contents change, where that is
permitted, and only code files and folders are new.
-/

namespace LiveCanvas

/-- The node with perhaps another mark and, where that is allowed, another content. -/
def Node.WrittenTo (may : NodeId → Prop) (n m : Node) : Prop :=
  ∃ content isLoading, m = { n with content, isLoading } ∧ (content ≠ n.content → may n.id)

namespace Node.WrittenTo

variable {may may' : NodeId → Prop} {n m k : Node}

theorem refl (n : Node) : n.WrittenTo may n :=
  ⟨n.content, n.isLoading, rfl, fun hne => absurd rfl hne⟩

theorem id_eq (h : n.WrittenTo may m) : m.id = n.id := by
  obtain ⟨_, _, rfl, -⟩ := h
  rfl

theorem trans (h : n.WrittenTo may m) (h' : m.WrittenTo may' k) (hmay : may' n.id → may n.id) :
    n.WrittenTo may k := by
  obtain ⟨content, _, rfl, hwritten⟩ := h
  obtain ⟨content', isLoading', rfl, hwritten'⟩ := h'
  refine ⟨content', isLoading', rfl, fun hne => ?_⟩
  -- the content differs from the one in the middle, or the one in the middle from the first
  by_cases hsame : content' = content
  · exact hwritten (hsame ▸ hne)
  · exact hmay (hwritten' hsame)

end Node.WrittenTo

namespace Graph

/-- Files were written and nothing else was done to the nodes: those that were there are there, in
their order and as they were but for marks and contents, and what is new comes after them. -/
def WrittenTo (may : NodeId → Prop) (g g' : Graph) : Prop :=
  ∃ written made, g'.nodes = g.nodes.map written ++ made ∧
    (∀ n ∈ g.nodes, n.WrittenTo may (written n)) ∧
    ∀ m ∈ made, (m.kind = .code ∨ m.kind = .folder) ∧ m.id ∉ idsOf g.nodes

namespace WrittenTo

variable {may may' : NodeId → Prop} {g g' g'' : Graph}

theorem of_nodes_eq_map {written : Node → Node} (hnodes : g'.nodes = g.nodes.map written)
    (hwritten : ∀ n ∈ g.nodes, n.WrittenTo may (written n)) : g.WrittenTo may g' :=
  ⟨written, [], by rw [hnodes, List.append_nil], hwritten, by simp⟩

theorem of_nodes_eq_append {made : List Node} (hnodes : g'.nodes = g.nodes ++ made)
    (hmade : ∀ m ∈ made, (m.kind = .code ∨ m.kind = .folder) ∧ m.id ∉ idsOf g.nodes) :
    g.WrittenTo may g' :=
  ⟨fun n => n, made, by rw [hnodes, List.map_id'], fun n _ => .refl n, hmade⟩

theorem of_nodes_eq (hnodes : g'.nodes = g.nodes) : g.WrittenTo may g' :=
  of_nodes_eq_map (hnodes.trans (List.map_id' g.nodes).symm) fun n _ => .refl n

theorem refl (g : Graph) : g.WrittenTo may g :=
  of_nodes_eq rfl

/-- What was there is there. -/
theorem idsOf_subset (h : g.WrittenTo may g') : idsOf g.nodes ⊆ idsOf g'.nodes := by
  obtain ⟨written, made, hnodes, hwritten, -⟩ := h
  intro id hid
  obtain ⟨n, hn, rfl⟩ := mem_idsOf.1 hid
  rw [hnodes, idsOf_append, ← (hwritten n hn).id_eq]
  exact List.mem_append_left _ (mem_idsOf_of_mem (List.mem_map_of_mem hn))

theorem trans (h : g.WrittenTo may g') (h' : g'.WrittenTo may' g'')
    (hmay : ∀ id ∈ idsOf g.nodes, may' id → may id) : g.WrittenTo may g'' := by
  have hkept := h.idsOf_subset
  obtain ⟨written, made, hnodes, hwritten, hmade⟩ := h
  obtain ⟨written', made', hnodes', hwritten', hmade'⟩ := h'
  rw [hnodes] at hwritten'
  refine ⟨fun n => written' (written n), made.map written' ++ made', ?_, fun n hn => ?_, ?_⟩
  · rw [hnodes', hnodes, List.map_append, List.map_map, List.append_assoc]
    rfl
  · have hfirst := hwritten n hn
    have hlater := hwritten' _ (List.mem_append_left _ (List.mem_map_of_mem hn))
    exact hfirst.trans hlater (hmay n.id (mem_idsOf_of_mem hn))
  · intro m hm
    obtain hm | hm := List.mem_append.1 hm
    · -- made first and then written, which keeps its kind and its id
      obtain ⟨n, hn, rfl⟩ := List.mem_map.1 hm
      obtain ⟨_, _, hlater, -⟩ := hwritten' n (List.mem_append_right _ hn)
      rw [hlater]
      exact hmade n hn
    · exact ⟨(hmade' m hm).1, fun hold => (hmade' m hm).2 (hkept hold)⟩

/-- Who may change what is not changed. -/
theorem permits_eq (h : g.WrittenTo may g') (hnodup : (idsOf g'.nodes).Nodup)
    (identity : Option Text) {id : NodeId} (hid : id ∈ idsOf g.nodes) :
    g'.permits identity id = g.permits identity id := by
  obtain ⟨written, made, hnodes, hwritten, -⟩ := h
  cases hlook : g.node? id with
  | none => exact absurd hid (node?_eq_none_iff.1 hlook)
  | some n =>
      obtain ⟨hn, rfl⟩ := node?_eq_some hlook
      have hkept := hwritten n hn
      have hthere : g'.node? n.id = some (written n) := by
        rw [← hkept.id_eq]
        refine node?_of_mem hnodup ?_
        rw [hnodes]
        exact List.mem_append_left _ (List.mem_map_of_mem hn)
      obtain ⟨_, _, hsame, -⟩ := hkept
      rw [permits, permits, hlook, hthere, hsame]
      rfl

end WrittenTo
end Graph

/-! ## Calls -/

namespace Command

variable {tool : Tool} {command : Command}

theorem toolOf?_of_isText {v : Value} (h : v.isText tool.name = true) : toolOf? v = some tool := by
  cases v with
  | text name =>
      obtain rfl : name = tool.name := beq_iff_eq.1 h
      exact Tool.ofName?_name tool
  | null | bool | number | list | object => cases h

theorem tool_of_ofArguments {arguments : Fields Value}
    (h : ofArguments tool arguments = .fits command) : command.tool = tool := by
  cases tool with
  | deleteFile =>
      obtain ⟨title, -, rfl⟩ := Checked.map_eq_fits_iff.1 h
      rfl
  | updateFile | moveFile | renameFile | connectFiles =>
      obtain ⟨_, second, hfirst, -, rfl⟩ := Checked.seq_eq_fits_iff.1 h
      obtain ⟨first, -, rfl⟩ := Checked.map_eq_fits_iff.1 hfirst
      rfl

/-- A call comes to the edit that it names or to nothing, whatever its arguments hold. -/
theorem tool_of_ofCall {fields : Fields Value}
    (hname : (Value.field fields "name").isText tool.name = true)
    (h : ofCall (.object fields) = .ok command) : command.tool = tool := by
  simp only [ofCall, toolOf?_of_isText hname] at h
  split at h
  · split at h
    · next hfits =>
        cases h
        exact tool_of_ofArguments hfits
    · cases h
  · cases h

theorem exists_eq_updateFile (h : command.tool = .updateFile) :
    ∃ path content, command = .updateFile path content := by
  cases command with
  | updateFile path content => exact ⟨path, content, rfl⟩
  | deleteFile | moveFile | renameFile | connectFiles => cases h

end Command

/-- A call that asks for a file to be written comes to that or to nothing. -/
theorem exists_updateFile_of_isUpdate {call : Value} {command : Command}
    (hupdate : Turn.isUpdate call = true) (hcall : Command.ofCall call = .ok command) :
    ∃ path content, command = .updateFile path content := by
  cases call with
  | object fields => exact Command.exists_eq_updateFile (Command.tool_of_ofCall hupdate hcall)
  | null | bool | number | text | list => cases hupdate

namespace Batch

variable {b : Batch} {c : BatchContext}

/-- Filing a file makes a folder at most. -/
theorem writtenTo_file {may : NodeId → Prop} (ht : b.Tidy) (c : BatchContext) (n : Node)
    (folder : Text) : b.graph.WrittenTo may (b.file c n folder).graph := by
  obtain ⟨made, hnodes, hmade⟩ := nodes_ensureFolder ht folder _
  refine .of_nodes_eq_append ((nodes_file b c n folder).trans hnodes) fun m hm => ?_
  obtain ⟨hkind, -, hnew⟩ := hmade m hm
  exact ⟨.inr hkind, hnew⟩

theorem writtenTo_overwrite (ht : b.Tidy) {n : Node} (hpermits : c.permits b.graph n.id = true)
    (content : Text) (folder : Option Text) :
    b.graph.WrittenTo (fun id => c.permits b.graph id = true)
      (b.perform c (.overwrite n content folder)).graph := by
  let b' := (b.onGraph fun g => g.setContent n.id content).noteChange (.updated n.title) n.id
  have hwritten : b.graph.WrittenTo (fun id => c.permits b.graph id = true) b'.graph := by
    refine .of_nodes_eq_map rfl fun m _ => ?_
    dsimp only
    split
    · next hid => exact ⟨content, m.isLoading, rfl, fun _ => hid ▸ hpermits⟩
    · exact .refl m
  cases folder with
  | none => exact hwritten
  | some folder =>
      have htidy : b'.Tidy :=
        keeps_tidy.noteChange (keeps_tidy.setContent b n.id content ht) (.updated n.title) n.id
      exact hwritten.trans (writtenTo_file htidy c n folder) fun _ _ h => h

theorem writtenTo_create {may : NodeId → Prop} (ht : b.Tidy) (title content : Text)
    (folder : Option Text) :
    b.graph.WrittenTo may (b.perform c (.create title content folder)).graph := by
  let request : NodeRequest := { kind := .code, title := some title, content := some content,
                                 position := b.nearAnchor c c.placement.fileOffset }
  let n := (b.add request).1
  let b' := (b.add request).2.noteChange (.created title) n.id
  have hmade : b.graph.WrittenTo may b'.graph := by
    refine .of_nodes_eq_append (ht.nodes_add request rfl) fun m hm => ?_
    rw [List.mem_singleton.1 hm]
    exact ⟨.inl rfl, ht.id_add_notMem request rfl⟩
  cases folder with
  | none => exact hmade.trans (.of_nodes_eq (nodes_feedAnchor b' c n)) fun _ _ h => h
  | some folder =>
      have htidy : b'.Tidy :=
        keeps_tidy.noteChange (keeps_tidy.add b request rfl ht) (.created title) n.id
      exact hmade.trans (writtenTo_file htidy c n folder) fun _ _ h => h

/-- A call that asks for a file to be written does nothing else, whatever it holds. -/
theorem writtenTo_applyCall (ht : b.Tidy) {call : Value} (hupdate : Turn.isUpdate call = true) :
    b.graph.WrittenTo (fun id => c.permits b.graph id = true) (b.applyCall c call).graph := by
  cases hrefusal : b.refusal? c call with
  | some refusal =>
      rw [applyCall_of_refused hrefusal]
      exact .refl b.graph
  | none =>
      obtain ⟨command, action, hcall, hdecide, hperform⟩ := exists_applyCall_eq_perform hrefusal
      obtain ⟨path, content, rfl⟩ := exists_updateFile_of_isUpdate hupdate hcall
      rw [hperform]
      obtain ⟨-, rfl⟩ | ⟨n, -, hpermits, rfl⟩ := decideUpdate_eq_ok ht hdecide
      · exact writtenTo_create ht _ _ _
      · exact writtenTo_overwrite ht hpermits _ _

end Batch

/-- A batch of such calls writes files and does nothing else. -/
theorem writtenTo_runBatch {g : Graph} {ids : IdSource} (hnodup : (idsOf g.nodes).Nodup)
    (hfresh : ids.FreshFor g) {setting : BatchSetting} {identity : Option Text}
    (hpermits : setting.permits = fun g id => g.permits identity id) {calls : List Value}
    (hupdates : ∀ call ∈ calls, Turn.isUpdate call = true) :
    g.WrittenTo (fun id => g.permits identity id = true) (runBatch setting g ids calls).graph := by
  induction calls using List.reverseRecOn with
  | nil => exact .refl g
  | append_singleton earlier call ih =>
      have hearlier := ih fun call hcall => hupdates call (List.mem_append_left _ hcall)
      have htidy := tidy_runBatch hnodup hfresh setting earlier
      have hcall : Turn.isUpdate call = true := hupdates call (by simp)
      rw [runBatch_concat]
      -- the call asks about the graph as it is by then, where the locks are those of the start
      refine hearlier.trans (Batch.writtenTo_applyCall htidy hcall) fun id hid hmay => ?_
      rw [← hearlier.permits_eq htidy.nodup identity hid]
      simpa only [BatchSetting.context, hpermits] using hmay

/-! ## Turns -/

theorem Graph.writtenTo_setLoadingAll {may : NodeId → Prop} (g : Graph) (ids : List NodeId)
    (isLoading : Bool) : g.WrittenTo may (g.setLoadingAll ids isLoading) := by
  rw [setLoadingAll_eq]
  refine .of_nodes_eq_map rfl fun n _ => ?_
  unfold markIn
  split
  · exact ⟨n.content, isLoading, rfl, fun hne => absurd rfl hne⟩
  · exact .refl n

/-- Whatever came back, the end of a repair writes files and does nothing else. -/
theorem Turn.writtenTo_finish {turn : Turn} (hkind : turn.kind = .fix) (a : Assistant) {g : Graph}
    {ids : IdSource} (hnodup : (idsOf g.nodes).Nodup) (hfresh : ids.FreshFor g)
    (answer : Except ServiceError Reply) :
    g.WrittenTo (fun id => g.permits a.identity id = true) (turn.finish a g ids answer).graph := by
  have happlied : g.WrittenTo (fun id => g.permits a.identity id = true)
      (turn.apply a g ids answer).graph := by
    unfold Turn.apply
    cases answer with
    | error e =>
        rw [hkind]
        exact .refl g
    | ok reply =>
        rw [hkind]
        exact writtenTo_runBatch hnodup hfresh rfl fun call hcall => (List.mem_filter.1 hcall).2
  exact happlied.trans (Graph.writtenTo_setLoadingAll _ turn.loading false) fun _ _ h => h

namespace Workspace

/-- Nothing that fires takes ids. -/
theorem ids_fireDue (w : Workspace) (setup : WorkspaceSetup) (time : Float) (fuel : Nat) :
    (w.fireDue setup time fuel).ids = w.ids := by
  induction fuel generalizing w with
  | zero => rfl
  | succ fuel ih =>
      rw [fireDue]
      split
      · next timer _ =>
          rw [ih]
          cases timer <;> rfl
      · rfl

/-- Waiting for the service takes no ids. -/
theorem ids_call (setup : WorkspaceSetup) (limit : Float) (turn : Turn) (keys : List Text)
    (talk : Talk) :
    (Failover.call limit (attempt setup limit turn) keys talk).2.workspace.ids =
      talk.workspace.ids := by
  have hattempt : ∀ key (later : Talk), later.workspace.ids = talk.workspace.ids →
      (attempt setup limit turn key later).2.workspace.ids = talk.workspace.ids := by
    intro key later hlater
    unfold attempt
    split
    · exact (ids_fireDue later.workspace setup _ 2).trans hlater
    · exact hlater
  exact Failover.call_keeps hattempt limit keys rfl

end Workspace

/-- A repair, with nothing else going on, writes files and does nothing else, whatever the service
answers to whichever key: every node stays in its place, as it was but for the mark and the content,
the content of one that may not be changed stays too, and what is new are code files and folders. -/
theorem fix_only_writes (w : Workspace) (setup : WorkspaceSetup) (a : Assistant)
    (keys : List Text) (limit : Float) (answers : List ServiceAnswer) (terminal : NodeId)
    (error : Text) (hquiet : w.inbox.isArmed = false) (hnodup : (idsOf w.graph.nodes).Nodup)
    (hfresh : w.ids.FreshFor w.graph) :
    w.graph.WrittenTo (fun id => w.graph.permits a.identity id = true)
      (w.turn setup a keys limit answers
        ((TurnRequest.fix terminal error).begin? a w.graph)).workspace.graph := by
  let may := fun id => w.graph.permits a.identity id = true
  cases hbegin : (TurnRequest.fix terminal error).begin? a w.graph with
  | none => exact .refl w.graph
  | some pair =>
      obtain ⟨turn, begun⟩ := pair
      obtain ⟨hkind, -, rfl⟩ := TurnRequest.begin?_eq_some hbegin
      -- whatever the service does meanwhile, the answer finds the graph with the marks of the turn
      let asked := Failover.call limit (Workspace.attempt setup limit turn) keys
        { workspace := { w with graph := turn.mark w.graph }, answers }
      have hgraph : asked.2.workspace.graph = turn.mark w.graph :=
        (Workspace.Quiet.call setup limit turn keys ⟨rfl, hquiet⟩).1
      have hids : asked.2.workspace.ids = w.ids := Workspace.ids_call setup limit turn keys _
      have hmarked : w.graph.WrittenTo may (turn.mark w.graph) :=
        w.graph.writtenTo_setLoadingAll turn.loading true
      have hmarkedNodup : (idsOf (turn.mark w.graph).nodes).Nodup :=
        (Graph.idsOf_setLoadingAll w.graph turn.loading true).symm ▸ hnodup
      have hended := turn.writtenTo_finish hkind a hmarkedNodup
        (Graph.freshFor_setLoadingAll hfresh turn.loading true) asked.1
      show w.graph.WrittenTo may
        (turn.finish a asked.2.workspace.graph asked.2.workspace.ids asked.1).graph
      rw [hgraph, hids]
      refine hmarked.trans hended fun id hid hmay => ?_
      rwa [hmarked.permits_eq hmarkedNodup a.identity hid] at hmay

/-- The answer deletes a file, has a call whose arguments are no object, and writes four times: into
the broken page, into a file that Bob has locked, into the preview, which is found by its title, and
into a new file of a new folder.  The first key is busy. -/
theorem fix_only_writes_mixed_answer :
    let g : Graph := {
      nodes := [{ id := "t", kind := .terminal, title := "Terminal" },
        { id := "p", kind := .preview, title := "Preview" },
        { id := "a", kind := .code, title := "a.html", content := "old" },
        { id := "b", kind := .code, title := "b.js", content := "old",
          lock := some (.text "bob") }]
      connections := [⟨"x", "a", "a-out-dom", "p", "p-in-dom"⟩,
        ⟨"y", "p", "p-out-logs", "t", "t-in-source"⟩] }
    let w : Workspace := { graph := g }
    let setup : WorkspaceSetup := { compile := fun _ _ _ => .error .noFields }
    let a : Assistant := { identity := some "ada" }
    let write (path : Text) : Value := .object [("name", .text "updateFile"),
      ("args", .object [("filename", .text path), ("code", .text "new")])]
    let reply : Reply := {
      calls := [.object [("name", .text "deleteFile"),
          ("args", .object [("filename", .text "a.html")])],
        .object [("name", .text "updateFile"), ("args", .text "b.js")],
        write "a.html", write "b.js", write "Preview", write "lib/c.js"] }
    let answers : List ServiceAnswer :=
      [{ delay := 1, outcome := .failed { message := "busy", statusCode := some 429 } },
        { delay := 1, outcome := .answered reply }]
    let r := w.turn setup a ["k1", "k2"] 60 answers ((TurnRequest.fix "t" "boom").begin? a g)
    w.inbox.isArmed = false ∧ (idsOf g.nodes).Nodup ∧ w.ids.FreshFor g ∧
      g.WrittenTo (fun id => g.permits a.identity id = true) r.workspace.graph ∧
      r.workspace.graph.nodes.map (fun n => (n.title, n.content)) =
        [⟨"Terminal", ""⟩, ⟨"Preview", "new"⟩, ⟨"a.html", "new"⟩, ⟨"b.js", "old"⟩,
          ⟨"c.js", "new"⟩, ⟨"lib", ""⟩] := by
  intro g w setup a write reply answers r
  have hnodup : (idsOf g.nodes).Nodup := by decide
  have hfresh : w.ids.FreshFor g := .of_not_endsInDigit {} (by decide +kernel) (by decide +kernel)
  refine ⟨rfl, hnodup, hfresh, ?_, by decide +kernel⟩
  exact fix_only_writes w setup a ["k1", "k2"] 60 answers "t" "boom" rfl hnodup hfresh

end LiveCanvas
