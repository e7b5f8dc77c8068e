import LiveCanvas.Proofs.Chat.Marks
import LiveCanvas.Proofs.Edit.Descent

/-!
# How a turn ends

The end of a turn applies what came back to the graph as it is then, and takes the marks of the turn
away.  Two things are said of it here, whatever came back and whatever has happened since the turn
began.  No mark changes but those of the turn.  And a chat keeps every message that it has: the chat
of the turn is told one more, and the other chats are told nothing.
-/

namespace LiveCanvas

namespace Graph

/-- Marks take no ids. -/
theorem freshFor_setLoadingAll {ids : IdSource} {g : Graph} (h : ids.FreshFor g)
    (loading : List NodeId) (isLoading : Bool) :
    ids.FreshFor (g.setLoadingAll loading isLoading) := by
  refine h.of_subset (by simp) ?_
  rw [setLoadingAll_eq]
  exact fun _ hc => hc

/-- A node with this id is there and marked as loading. -/
def isMarked (g : Graph) (id : NodeId) : Bool :=
  (g.node? id).any (·.isLoading)

/-- How the marks of a graph come from those of an earlier one: those of the earlier nodes stay, and
no new node has one. -/
structure Advances (ids : IdSource) (g : Graph) (ids' : IdSource) (g' : Graph) : Prop where
  next_le : ids.next ≤ ids'.next
  nodup : (idsOf g'.nodes).Nodup
  fresh : ids'.FreshFor g'
  origin : ∀ m ∈ g'.nodes,
    (∃ n ∈ g.nodes, n.id = m.id ∧ n.isLoading = m.isLoading) ∨ m.MadeAfter ids

namespace Advances

variable {ids ids' ids'' : IdSource} {g g' g'' : Graph}

theorem refl (hnodup : (idsOf g.nodes).Nodup) (hfresh : ids.FreshFor g) : Advances ids g ids g :=
  ⟨Nat.le_refl _, hnodup, hfresh, fun m hm => .inl ⟨m, hm, rfl, rfl⟩⟩

theorem trans (h : Advances ids g ids' g') (h' : Advances ids' g' ids'' g'') :
    Advances ids g ids'' g'' where
  next_le := Nat.le_trans h.next_le h'.next_le
  nodup := h'.nodup
  fresh := h'.fresh
  origin k hk := by
    obtain ⟨m, hm, hid, hmark⟩ | hmade := h'.origin k hk
    · obtain ⟨n, hn, hid', hmark'⟩ | hmade := h.origin m hm
      · exact .inl ⟨n, hn, hid'.trans hid, hmark'.trans hmark⟩
      · obtain ⟨stem, number, hnumber, hname⟩ := hmade.id
        exact .inr ⟨⟨stem, number, hnumber, hid ▸ hname⟩, hmark ▸ hmade.isLoading⟩
    · exact .inr (hmade.mono h.next_le)

theorem modifyNode (h : Advances ids g ids' g') {id : NodeId} {change : Node → Node}
    (hid : ∀ n, (change n).id = n.id) (hmark : ∀ n, (change n).isLoading = n.isLoading) :
    Advances ids g ids' (g'.modifyNode id change) := by
  have hids : idsOf (g'.modifyNode id change).nodes = idsOf g'.nodes := idsOf_modifyNode hid
  have hfresh : ids'.FreshFor (g'.modifyNode id change) :=
    h.fresh.of_subset (by simp [hids]) fun _ hc => hc
  refine h.trans ⟨Nat.le_refl _, hids ▸ h.nodup, hfresh, fun m hm => ?_⟩
  obtain ⟨n, hn, rfl⟩ := List.mem_map.1 hm
  refine .inl ⟨n, hn, ?_⟩
  split
  · exact ⟨(hid n).symm, (hmark n).symm⟩
  · exact ⟨rfl, rfl⟩

theorem runBatch (h : Advances ids g ids' g') (setting : BatchSetting) (calls : List Value) :
    Advances ids g (runBatch setting g' ids' calls).ids (runBatch setting g' ids' calls).graph := by
  have htidy := tidy_runBatch h.nodup h.fresh setting calls
  have hdescends := descends_runBatch h.nodup h.fresh setting calls
  refine h.trans ⟨hdescends.next_le, htidy.nodup, htidy.fresh, fun m hm => ?_⟩
  obtain ⟨n, hn, ⟨_, _, _, rfl⟩, -⟩ | hmade := hdescends.origin m hm
  · exact .inl ⟨n, hn, rfl, rfl⟩
  · exact .inr hmade

/-- A node is marked as it was before, or is new and has no mark. -/
theorem isLoading_eq (h : Advances ids g ids' g') (hnodup : (idsOf g.nodes).Nodup)
    (hfresh : ids.FreshFor g) {m : Node} (hm : m ∈ g'.nodes) : m.isLoading = g.isMarked m.id := by
  obtain ⟨n, hn, hid, hmark⟩ | hmade := h.origin m hm
  · rw [isMarked, ← hid, node?_of_mem hnodup hn, Option.any_some, hmark]
  · have hnew : m.id ∉ idsOf g.nodes := fun hmem => hmade.id_ne (hfresh.isPast hmem) rfl
    rw [isMarked, node?_eq_none_iff.2 hnew, Option.any_none, hmade.isLoading]

theorem nodup_setLoadingAll (h : Advances ids g ids' g') (loading : List NodeId)
    (isLoading : Bool) : (idsOf (g'.setLoadingAll loading isLoading).nodes).Nodup := by
  rw [idsOf_setLoadingAll]
  exact h.nodup

theorem fresh_setLoadingAll (h : Advances ids g ids' g') (loading : List NodeId)
    (isLoading : Bool) : ids'.FreshFor (g'.setLoadingAll loading isLoading) :=
  freshFor_setLoadingAll h.fresh loading isLoading

/-- Marks that are set at the end of the work leave the others as they were. -/
theorem isLoading_setLoadingAll (h : Advances ids g ids' g') (hnodup : (idsOf g.nodes).Nodup)
    (hfresh : ids.FreshFor g) {loading : List NodeId} {isLoading : Bool} {m : Node}
    (hm : m ∈ (g'.setLoadingAll loading isLoading).nodes) :
    m.isLoading = if m.id ∈ loading then isLoading else g.isMarked m.id := by
  rw [setLoadingAll_eq] at hm
  obtain ⟨n, hn, rfl⟩ := List.mem_map.1 hm
  rw [isLoading_markIn, id_markIn, h.isLoading_eq hnodup hfresh hn]

end Advances

/-! ## Conversations -/

/-- The chat is there and has these messages. -/
def Says (g : Graph) (chat : NodeId) (messages : List Message) : Prop :=
  ∃ n, g.node? chat = some n ∧ n.kind = .chat ∧ n.messages = messages

namespace Says

variable {g : Graph} {chat : NodeId} {messages : List Message}

theorem modifyNode (h : g.Says chat messages) (id : NodeId) (change : Node → Node)
    (retold : List Message → List Message) (hid : ∀ n, (change n).id = n.id)
    (hkind : ∀ n, (change n).kind = n.kind)
    (hmessages : ∀ n, (change n).messages = retold n.messages) :
    (g.modifyNode id change).Says chat (if id = chat then retold messages else messages) := by
  obtain ⟨n, hn, hchat, rfl⟩ := h
  by_cases hself : id = chat
  · subst hself
    refine ⟨change n, node?_modifyNode_self hn hid, (hkind n).trans hchat, ?_⟩
    rw [if_pos rfl, hmessages]
  · rw [if_neg hself]
    exact ⟨n, (node?_modifyNode_of_ne (Ne.symm hself) change hid).trans hn, hchat, rfl⟩

theorem addMessage (h : g.Says chat messages) (id : NodeId) (message : Message) :
    (g.addMessage id message).Says chat
      (if id = chat then messages ++ [message] else messages) :=
  h.modifyNode id _ (· ++ [message]) (fun _ => rfl) (fun _ => rfl) fun _ => rfl

theorem setLastMessage (h : g.Says chat messages) (id : NodeId) (text : Text) :
    (g.setLastMessage id text).Says chat (if id = chat then retell messages text else messages) :=
  h.modifyNode id _ (retell · text) (fun _ => rfl) (fun _ => rfl) fun _ => rfl

theorem setContent (h : g.Says chat messages) (id : NodeId) (content : Text) :
    (g.setContent id content).Says chat messages := by
  have hsame := h.modifyNode id (fun n => { n with content }) (fun kept => kept) (fun _ => rfl)
    (fun _ => rfl) fun _ => rfl
  rwa [ite_self] at hsame

theorem setLoadingAll (h : g.Says chat messages) (ids : List NodeId) (isLoading : Bool) :
    (g.setLoadingAll ids isLoading).Says chat messages := by
  obtain ⟨n, hn, hchat, rfl⟩ := h
  refine ⟨markIn ids isLoading n, ?_, ?_, messages_markIn ids isLoading n⟩
  · rw [node?_setLoadingAll, hn, Option.map_some]
  · rw [kind_markIn, hchat]

/-- A batch never removes a chat, and tells it nothing. -/
theorem runBatch (h : g.Says chat messages) {ids : IdSource} (hnodup : (idsOf g.nodes).Nodup)
    (hfresh : ids.FreshFor g) (setting : BatchSetting) (calls : List Value) :
    (runBatch setting g ids calls).graph.Says chat messages := by
  obtain ⟨n, hn, hchat, rfl⟩ := h
  obtain ⟨m, hm, _, _, _, rfl⟩ :=
    exists_node?_runBatch hnodup hfresh setting calls hn (by simp [hchat])
  exact ⟨_, hm, hchat, rfl⟩

end Says

theorem retell_concat (messages : List Message) (last : Message) (text : Text) :
    retell (messages ++ [last]) text = messages ++ [{ last with text }] := by
  simp [retell]

end Graph

/-- Telling the chat its message changes no mark. -/
theorem TurnRequest.advances_told (request : TurnRequest) {g : Graph} {ids : IdSource}
    (hnodup : (idsOf g.nodes).Nodup) (hfresh : ids.FreshFor g) :
    Graph.Advances ids g ids (request.told g) := by
  have hstart := Graph.Advances.refl hnodup hfresh
  cases request with
  | send chat text => exact hstart.modifyNode (fun _ => rfl) fun _ => rfl
  | generate file request => exact hstart
  | fix terminal error => exact hstart

namespace Turn

variable {g : Graph} {ids : IdSource} {chat : NodeId} {messages : List Message}

/-- The turn is about a message of this chat. -/
def isSendTo (chat : NodeId) (turn : Turn) : Bool :=
  match turn.kind with
  | .send other => other == chat
  | .generate _ | .fix => false

/-- What a chat is told at the end of its turn: the reply with the report, or why there is none. -/
def closing : TurnOutcome → Message
  | .error e => ⟨.model, "Error: " ++ e.message⟩
  | .ok (reply, report) => ⟨.model, replyText reply.text report.transcript⟩

theorem outcome_error (ended : TurnEnd) (e : ServiceError) :
    ended.outcome (.error e) = .error e :=
  rfl

theorem outcome_of_result {ended : TurnEnd} {reply : Reply} {report : BatchReport}
    (h : ended.result = .ok report) : ended.outcome (.ok reply) = .ok (reply, report) := by
  rw [TurnEnd.outcome, h]
  rfl

/-- Without edits there is nothing to report. -/
theorem replyText_transcript_empty (text : Text) :
    replyText text (BatchReport.transcript {}) = text := by
  have hnone : BatchReport.transcript {} = "" := rfl
  by_cases htext : text = "" <;> simp [replyText, hnone, htext, Text.unlines]

/-- A turn that was answered has a report. -/
theorem exists_result_apply (turn : Turn) (a : Assistant) (g : Graph) (ids : IdSource)
    (reply : Reply) : ∃ report, (turn.apply a g ids (.ok reply)).result = .ok report := by
  unfold apply
  cases turn.kind with
  | send chat =>
      unfold endSend
      dsimp only
      split <;> exact ⟨_, rfl⟩
  | generate file =>
      unfold endGenerate
      dsimp only
      split <;> exact ⟨_, rfl⟩
  | fix => exact ⟨_, rfl⟩

/-- The outcome of a turn has in it what came back. -/
theorem map_outcome_apply (turn : Turn) (a : Assistant) (g : Graph) (ids : IdSource)
    (answer : Except ServiceError Reply) :
    ((turn.apply a g ids answer).outcome answer).map Prod.fst = answer := by
  cases answer with
  | error e => rfl
  | ok reply =>
      obtain ⟨report, hresult⟩ := exists_result_apply turn a g ids reply
      rw [outcome_of_result hresult]
      rfl

/-- Applying what came back changes no mark. -/
theorem advances_apply (turn : Turn) (a : Assistant) (hnodup : (idsOf g.nodes).Nodup)
    (hfresh : ids.FreshFor g) (answer : Except ServiceError Reply) :
    Graph.Advances ids g (turn.apply a g ids answer).ids (turn.apply a g ids answer).graph := by
  have hstart := Graph.Advances.refl hnodup hfresh
  have htold : ∀ chat message, Graph.Advances ids g ids (g.addMessage chat message) :=
    fun chat message => hstart.modifyNode (fun _ => rfl) fun _ => rfl
  cases answer with
  | error e =>
      unfold apply endFailed
      cases turn.kind with
      | send chat => exact htold chat _
      | generate file => exact hstart
      | fix => exact hstart
  | ok reply =>
      unfold apply
      cases turn.kind with
      | send chat =>
          unfold endSend
          dsimp only
          split
          · exact htold chat _
          · exact ((htold chat _).runBatch _ _).modifyNode (fun _ => rfl) fun _ => rfl
      | generate file =>
          unfold endGenerate
          dsimp only
          split
          · exact hstart.runBatch _ _
          · dsimp only
            split
            · exact hstart
            · exact hstart.modifyNode (fun _ => rfl) fun _ => rfl
      | fix => exact hstart.runBatch _ _

theorem says_applyCalls (a : Assistant) (anchor : Option NodeId) (h : g.Says chat messages)
    (hnodup : (idsOf g.nodes).Nodup) (hfresh : ids.FreshFor g) (calls : List Value) :
    (applyCalls a anchor g ids calls).graph.Says chat messages :=
  h.runBatch hnodup hfresh _ calls

/-- A chat turn that was answered ends with one message more: it is told the text first, and the
text with the report in its place when the edits are done. -/
theorem says_endSend (a : Assistant) (about : NodeId) (h : g.Says chat messages)
    (hnodup : (idsOf g.nodes).Nodup) (hfresh : ids.FreshFor g) (reply : Reply) :
    ∃ report, (endSend a about g ids reply).result = .ok report ∧
      (endSend a about g ids reply).graph.Says chat
        (if about = chat then messages ++ [closing (.ok (reply, report))] else messages) := by
  have htold := h.addMessage about ⟨.model, reply.text⟩
  unfold endSend
  dsimp only
  split
  · refine ⟨{}, rfl, ?_⟩
    rw [closing, replyText_transcript_empty]
    exact htold
  · have hfirst : Graph.Advances ids g ids (g.addMessage about ⟨.model, reply.text⟩) :=
      (Graph.Advances.refl hnodup hfresh).modifyNode (fun _ => rfl) fun _ => rfl
    have hedited := says_applyCalls a (some about) htold hfirst.nodup hfirst.fresh reply.calls
    refine ⟨_, rfl, ?_⟩
    -- no edit tells the chat anything, so the text is still the last message
    have hretold := hedited.setLastMessage about (replyText reply.text
      (applyCalls a (some about) (g.addMessage about ⟨.model, reply.text⟩) ids
        reply.calls).report.transcript)
    by_cases habout : about = chat
    · simpa only [habout, if_true, Graph.retell_concat, closing] using hretold
    · simpa only [habout, if_false] using hretold

/-- Whatever came back, the chat of the turn is told one message more, and no other chat is. -/
theorem says_apply (turn : Turn) (a : Assistant) (h : g.Says chat messages)
    (hnodup : (idsOf g.nodes).Nodup) (hfresh : ids.FreshFor g)
    (answer : Except ServiceError Reply) :
    (turn.apply a g ids answer).graph.Says chat
      (if turn.isSendTo chat = true then
        messages ++ [closing ((turn.apply a g ids answer).outcome answer)]
      else messages) := by
  unfold isSendTo
  cases answer with
  | error e =>
      unfold apply endFailed
      cases turn.kind with
      | send about => simpa only [beq_iff_eq, outcome_error, closing] using h.addMessage about _
      | generate file => exact h
      | fix => exact h
  | ok reply =>
      unfold apply
      cases turn.kind with
      | send about =>
          obtain ⟨report, hresult, hsays⟩ := says_endSend a about h hnodup hfresh reply
          simpa only [beq_iff_eq, outcome_of_result hresult] using hsays
      | generate file =>
          unfold endGenerate
          dsimp only
          split
          · exact says_applyCalls a _ h hnodup hfresh _
          · dsimp only
            split
            · exact h
            · exact h.setContent file _
      | fix => exact says_applyCalls a _ h hnodup hfresh _

end Turn

end LiveCanvas
