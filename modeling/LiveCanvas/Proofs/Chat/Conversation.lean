import LiveCanvas.Proofs.Chat.Bookkeeping

/-!
# Conversations of overlapping turns

A chat that several turns talk to at once loses nothing.  A turn tells it the text of the user when
it begins and one message when it ends, and a message that the chat has stays as it is.  The end of
a turn writes its message twice, first the text and then the text with the report in its place;
nothing comes between the two, so it is always its own message that it replaces.
-/

namespace LiveCanvas

/-- The text that is sent to a chat. -/
def TurnRequest.sent? (chat : NodeId) : TurnRequest → Option Text
  | send about text => if about = chat then some text else none
  | generate .. | fix .. => none

namespace TurnEvent

/-- The text that is sent to a chat. -/
def sent? (chat : NodeId) : TurnEvent → Option Text
  | ask _ request => request.sent? chat
  | answer .. => none

/-- The answer that arrives, with the number that it is for. -/
def answered? : TurnEvent → Option (Nat × Except ServiceError Reply)
  | ask .. => none
  | answer number arrived => some (number, arrived)

end TurnEvent

namespace TurnEntry

/-- The text that was sent to a chat. -/
def sent? (chat : NodeId) : TurnEntry → Option Text
  | begun _ request _ => request.sent? chat
  | ended .. => none

/-- The answer that a turn ended with, with the number of the turn. -/
def answered? : TurnEntry → Option (Nat × Except ServiceError Reply)
  | begun .. => none
  | ended number _ outcome => some (number, outcome.map Prod.fst)

/-- What a chat is told: the text of the user when a turn begins, and what came of it when it ends.
-/
def said? (chat : NodeId) : TurnEntry → Option Message
  | begun _ request _ => (request.sent? chat).map (Message.mk .user)
  | ended _ turn outcome => if turn.isSendTo chat = true then some (Turn.closing outcome) else none

end TurnEntry

/-! ## What is told -/

section Told

variable {g : Graph} {chat : NodeId} {messages : List Message}

theorem TurnRequest.says_told (request : TurnRequest) (h : g.Says chat messages) :
    (request.told g).Says chat
      (messages ++ ((request.sent? chat).map (Message.mk .user)).toList) := by
  cases request with
  | send about text =>
      have htold := h.addMessage about ⟨.user, text⟩
      by_cases habout : about = chat
      · simpa [sent?, habout, told] using htold
      · simpa [sent?, habout, told] using htold
  | generate file request => simpa [sent?, told] using h
  | fix terminal error => simpa [sent?, told] using h

/-- Whatever is sent to a chat that is there begins a turn. -/
theorem TurnRequest.begin?_ne_none {request : TurnRequest} {text : Text} (a : Assistant)
    (hsent : request.sent? chat = some text) (h : g.Says chat messages) :
    request.begin? a g ≠ none := by
  obtain ⟨n, hn, -⟩ := h
  cases request with
  | send about sent =>
      obtain ⟨rfl, -⟩ := Option.ite_none_right_eq_some.1 hsent
      simp [begin?, Turn.beginSend, hn]
  | generate file request => cases hsent
  | fix terminal error => cases hsent

end Told

namespace TurnRun

variable {r : TurnRun} {chat : NodeId} {messages : List Message}

/-- The messages that the history tells of are there, and none but these. -/
theorem says_next (haccounted : r.Accounted)
    (h : r.graph.Says chat (messages ++ r.history.filterMap (TurnEntry.said? chat)))
    (event : TurnEvent) :
    (r.next event).graph.Says chat
      (messages ++ (r.next event).history.filterMap (TurnEntry.said? chat)) := by
  obtain ⟨hsame, -⟩ | ⟨a, request, turn, begun, -, hbegin, hnext⟩ |
    ⟨answer, earlier, o, later, -, hflight, hrest, hnext⟩ := r.next_cases event
  · exact hsame.symm ▸ h
  · obtain ⟨-, -, rfl⟩ := TurnRequest.begin?_eq_some hbegin
    have htold := (request.says_told h).setLoadingAll turn.loading true
    rw [List.append_assoc] at htold
    rw [hnext]
    show Graph.Says _ chat (messages ++ (r.history ++ [_]).filterMap _)
    rw [filterMap_concat]
    exact htold
  · have hended := (o.turn.says_apply o.assistant h haccounted.nodup haccounted.fresh
      answer).setLoadingAll o.turn.loading false
    rw [hnext]
    show Graph.Says _ chat (messages ++ (r.history ++ [_]).filterMap _)
    rw [filterMap_concat, TurnEntry.said?, ← List.append_assoc]
    split at hended
    · next hchat =>
      rw [if_pos hchat]
      exact hended
    · next hchat =>
      rw [if_neg hchat, Option.toList_none, List.append_nil]
      exact hended

/-- Whatever is sent to a chat that is there is told. -/
theorem sent_next (h : r.graph.Says chat messages) (event : TurnEvent) :
    (r.next event).history.filterMap (TurnEntry.sent? chat) =
      r.history.filterMap (TurnEntry.sent? chat) ++ (event.sent? chat).toList := by
  obtain ⟨hsame, hidle⟩ | ⟨a, request, turn, begun, rfl, hbegin, hnext⟩ |
    ⟨answer, earlier, o, later, rfl, hflight, hrest, hnext⟩ := r.next_cases event
  · have hnone : event.sent? chat = none := by
      cases event with
      | answer number arrived => rfl
      | ask a request =>
          refine Option.eq_none_iff_forall_ne_some.2 fun text hsent => ?_
          exact request.begin?_ne_none a hsent h (hidle a request rfl)
    rw [hsame, hnone, Option.toList_none, List.append_nil]
  · rw [hnext]
    exact filterMap_concat _ _ _
  · rw [hnext]
    exact filterMap_concat _ _ _

/-- A turn that ends does so with the answer that has arrived for it. -/
theorem answered_next (r : TurnRun) (event : TurnEvent) :
    ((r.next event).history.filterMap TurnEntry.answered?).Sublist
      (r.history.filterMap TurnEntry.answered? ++ event.answered?.toList) := by
  obtain ⟨hsame, -⟩ | ⟨a, request, turn, begun, rfl, hbegin, hnext⟩ |
    ⟨answer, earlier, o, later, rfl, hflight, hrest, hnext⟩ := r.next_cases event
  · rw [hsame]
    exact List.sublist_append_left _ _
  · rw [hnext]
    show ((r.history ++ [_]).filterMap _).Sublist _
    rw [filterMap_concat]
    exact List.Sublist.refl _
  · have houtcome := o.turn.map_outcome_apply o.assistant r.graph r.ids answer
    rw [hnext]
    show ((r.history ++ [_]).filterMap _).Sublist _
    rw [filterMap_concat, TurnEntry.answered?]
    exact houtcome.symm ▸ List.Sublist.refl _

/-- The history only grows. -/
theorem history_next (r : TurnRun) (event : TurnEvent) : r.history <+: (r.next event).history := by
  obtain ⟨hsame, -⟩ | ⟨a, request, turn, begun, -, hbegin, hnext⟩ |
    ⟨answer, earlier, o, later, -, hflight, hrest, hnext⟩ := r.next_cases event
  · exact hsame.symm ▸ List.prefix_rfl
  · rw [hnext]
    exact List.prefix_append _ _
  · rw [hnext]
    exact List.prefix_append _ _

end TurnRun

/-! ## Two messages for each turn -/

section Counting

variable {chat : NodeId} {history : List TurnEntry}

theorem Turn.isSendTo_eq_isSome {turn : Turn} {request : TurnRequest}
    (h : turn.kind = request.kind) (chat : NodeId) :
    turn.isSendTo chat = (request.sent? chat).isSome := by
  rw [isSendTo, h]
  cases request with
  | send about text =>
      by_cases habout : about = chat <;> simp [TurnRequest.kind, TurnRequest.sent?, habout]
  | generate file request => rfl
  | fix terminal error => rfl

/-- What a chat was told is what was sent to it and what its turns ended with. -/
theorem length_said (chat : NodeId) (history : List TurnEntry) :
    (history.filterMap (TurnEntry.said? chat)).length =
      (history.filterMap (TurnEntry.sent? chat)).length +
        (history.filterMap TurnEntry.ended?).countP (·.2.isSendTo chat) := by
  induction history using List.reverseRecOn with
  | nil => rfl
  | append_singleton history entry ih =>
      rw [filterMap_concat, filterMap_concat, filterMap_concat, List.length_append,
        List.length_append, List.countP_append, ih]
      cases entry with
      | begun number request turn =>
          rw [TurnEntry.said?, TurnEntry.sent?, TurnEntry.ended?]
          cases request.sent? chat <;> simp [Nat.add_right_comm]
      | ended number turn outcome =>
          rw [TurnEntry.said?, TurnEntry.sent?, TurnEntry.ended?]
          cases hchat : turn.isSendTo chat <;> simp [hchat, Nat.add_assoc]

/-- Each turn that is about a chat has sent it one text. -/
theorem countP_begun (hkinds : ∀ number request turn,
      .begun number request turn ∈ history → turn.kind = request.kind) :
    (history.filterMap TurnEntry.begun?).countP (·.2.isSendTo chat) =
      (history.filterMap (TurnEntry.sent? chat)).length := by
  rw [List.length_filterMap_eq_countP, List.countP_filterMap]
  refine List.countP_congr fun entry hentry => ?_
  cases entry with
  | begun number request turn =>
      simp [TurnEntry.begun?, TurnEntry.sent?,
        Turn.isSendTo_eq_isSome (hkinds number request turn hentry)]
  | ended number turn outcome => simp [TurnEntry.begun?, TurnEntry.sent?]

end Counting

/-! ## Whole runs -/

section Runs

variable {g : Graph} {ids : IdSource} {chat : NodeId} {n : Node}

theorem says_runTurns (hnodup : (idsOf g.nodes).Nodup) (hfresh : ids.FreshFor g)
    (hn : g.node? chat = some n) (hkind : n.kind = .chat) (events : List TurnEvent) :
    (runTurns g ids events).graph.Says chat
      (n.messages ++ (runTurns g ids events).history.filterMap (TurnEntry.said? chat)) := by
  induction events using List.reverseRecOn with
  | nil => exact ⟨n, hn, hkind, (List.append_nil _).symm⟩
  | append_singleton events event ih =>
      rw [runTurns_concat]
      exact TurnRun.says_next (accounted_runTurns hnodup hfresh events) ih event

theorem sent_runTurns (hnodup : (idsOf g.nodes).Nodup) (hfresh : ids.FreshFor g)
    (hn : g.node? chat = some n) (hkind : n.kind = .chat) (events : List TurnEvent) :
    (runTurns g ids events).history.filterMap (TurnEntry.sent? chat) =
      events.filterMap (TurnEvent.sent? chat) := by
  induction events using List.reverseRecOn with
  | nil => rfl
  | append_singleton events event ih =>
      rw [runTurns_concat, TurnRun.sent_next (says_runTurns hnodup hfresh hn hkind events), ih,
        filterMap_concat]

theorem answered_runTurns (g : Graph) (ids : IdSource) (events : List TurnEvent) :
    ((runTurns g ids events).history.filterMap TurnEntry.answered?).Sublist
      (events.filterMap TurnEvent.answered?) := by
  induction events using List.reverseRecOn with
  | nil => exact List.Sublist.refl _
  | append_singleton events event ih =>
      rw [runTurns_concat, filterMap_concat]
      exact (TurnRun.answered_next _ event).trans (ih.append_right _)

theorem prefix_history_runTurns (g : Graph) (ids : IdSource) (earlier later : List TurnEvent) :
    (runTurns g ids earlier).history <+: (runTurns g ids (earlier ++ later)).history := by
  induction later using List.reverseRecOn with
  | nil => simp
  | append_singleton later event ih =>
      rw [← List.append_assoc, runTurns_concat]
      exact ih.trans (TurnRun.history_next _ event)

/-- However the turns of a graph overlap, a chat has the messages that it had, and after them what
its turns told it in the order in which they began and ended.  No message is ever changed.  Each
turn about the chat tells it the text that was sent, in the order of sending, and when its answer
arrives one message that is made of this answer and of what came of it. -/
theorem conversation_of_turns (hnodup : (idsOf g.nodes).Nodup) (hfresh : ids.FreshFor g)
    (hn : g.node? chat = some n) (hkind : n.kind = .chat) (events : List TurnEvent) :
    let r := runTurns g ids events
    r.graph.Says chat (n.messages ++ r.history.filterMap (TurnEntry.said? chat)) ∧
    (∀ earlier, earlier <+: events → ∃ messages,
      (runTurns g ids earlier).graph.Says chat messages ∧
        messages <+: n.messages ++ r.history.filterMap (TurnEntry.said? chat)) ∧
    r.history.filterMap (TurnEntry.sent? chat) = events.filterMap (TurnEvent.sent? chat) ∧
    (r.history.filterMap TurnEntry.answered?).Sublist (events.filterMap TurnEvent.answered?) ∧
    ((r.history.filterMap TurnEntry.begun?).map Prod.fst).Nodup ∧
    (r.history.filterMap TurnEntry.ended? ++ r.inFlight.map OpenTurn.numbered).Perm
      (r.history.filterMap TurnEntry.begun?) ∧
    (r.history.filterMap (TurnEntry.said? chat)).length +
        r.inFlight.countP (fun o => o.turn.isSendTo chat) =
      2 * (events.filterMap (TurnEvent.sent? chat)).length ∧
    ∀ o ∈ r.inFlight, ∀ answer, ∃ outcome : TurnOutcome, outcome.map Prod.fst = answer ∧
      (runTurns g ids (events ++ [.answer o.number answer])).history =
        r.history ++ [.ended o.number o.turn outcome] := by
  intro r
  have haccounted : r.Accounted := accounted_runTurns hnodup hfresh events
  have hsent : r.history.filterMap _ = _ := sent_runTurns hnodup hfresh hn hkind events
  refine ⟨says_runTurns hnodup hfresh hn hkind events, ?_, hsent, answered_runTurns g ids events,
    ?_, haccounted.balance, ?_, ?_⟩
  · rintro earlier ⟨later, rfl⟩
    refine ⟨_, says_runTurns hnodup hfresh hn hkind earlier, ?_⟩
    rw [List.prefix_append_right_inj]
    exact (prefix_history_runTurns g ids earlier later).filterMap _
  · rw [haccounted.numbers]
    exact List.nodup_range
  · -- what has not ended is in flight, and has told the chat one message so far
    have hbalance := haccounted.balance.countP_eq (·.2.isSendTo chat)
    rw [List.countP_append, List.countP_map, countP_begun haccounted.kinds] at hbalance
    rw [length_said, ← hsent]
    change _ + r.inFlight.countP (fun o => o.turn.isSendTo chat) = _ at hbalance
    omega
  · intro o ho answer
    refine ⟨_, o.turn.map_outcome_apply o.assistant r.graph r.ids answer, ?_⟩
    rw [runTurns_concat, haccounted.next_answer ho answer]
    rfl

/-- The second of two texts is answered first, with an edit, and the first one comes to nothing. -/
theorem conversation_of_turns_out_of_order :
    let chat : Node := { id := "c", kind := .chat, title := "Chat", messages := [⟨.model, "Hi."⟩] }
    let g : Graph := { nodes := [chat] }
    let call : Value := .object [("name", .text "updateFile"),
      ("args", .object [("filename", .text "a.js"), ("code", .text "1")])]
    let events : List TurnEvent := [.ask {} (.send "c" "one"), .ask {} (.send "c" "two"),
      .answer 1 (.ok ⟨"Done.", [call]⟩), .answer 0 (.error ⟨.noKeys, 0⟩)]
    (idsOf g.nodes).Nodup ∧ IdSource.FreshFor {} g ∧ g.node? "c" = some chat ∧
      (runTurns g {} events).graph.Says "c" [⟨.model, "Hi."⟩, ⟨.user, "one"⟩, ⟨.user, "two"⟩,
        ⟨.model, "Done.\n[Created a.js]"⟩, ⟨.model, "Error: No API keys configured"⟩] := by
  intro chat g call events
  have hnodup : (idsOf g.nodes).Nodup := by decide +kernel
  have hfresh : IdSource.FreshFor {} g :=
    .of_not_endsInDigit {} (by decide +kernel) (by decide +kernel)
  have hn : g.node? "c" = some chat := rfl
  have hsays := (conversation_of_turns hnodup hfresh hn rfl events).1
  have hsaid : (runTurns g {} events).history.filterMap (TurnEntry.said? "c") =
      [⟨.user, "one"⟩, ⟨.user, "two"⟩, ⟨.model, "Done.\n[Created a.js]"⟩,
        ⟨.model, "Error: No API keys configured"⟩] := by
    decide +kernel
  rw [hsaid] at hsays
  exact ⟨hnodup, hfresh, hn, hsays⟩

end Runs

end LiveCanvas
