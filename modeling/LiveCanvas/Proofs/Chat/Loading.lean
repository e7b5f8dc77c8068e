import LiveCanvas.Proofs.Chat.Bookkeeping
import LiveCanvas.Workspace.Basic

/-!
# Who is loading

A node has one mark, which every turn that works on the node puts on when it begins and takes off
when it ends.  So whether a node is loading is told by the last of these, and by nothing else that
turns do.  When the nodes of two turns overlap, the mark that is left to a turn in flight is gone as
soon as the other turn has ended.
-/

namespace LiveCanvas

/-- The mark that an entry leaves on a node, if it is about the node: the beginning of a turn puts
it on, the end takes it off. -/
def TurnEntry.mark? (id : NodeId) (entry : TurnEntry) : Option Bool :=
  if id ∈ entry.turn.loading then some entry.isBeginning else none

/-- The last mark that a history leaves on a node. -/
def lastMark? (id : NodeId) (history : List TurnEntry) : Option Bool :=
  history.reverse.findSome? (TurnEntry.mark? id)

section LastMark

variable {id : NodeId} {history : List TurnEntry}

theorem lastMark?_append (id : NodeId) (earlier later : List TurnEntry) :
    lastMark? id (earlier ++ later) = (lastMark? id later).or (lastMark? id earlier) := by
  rw [lastMark?, List.reverse_append, List.findSome?_append]
  rfl

theorem lastMark?_singleton (id : NodeId) (entry : TurnEntry) :
    lastMark? id [entry] = entry.mark? id := by
  rw [lastMark?, List.reverse_singleton, List.findSome?_singleton]

theorem lastMark?_eq_none (h : ∀ entry ∈ history, id ∉ entry.turn.loading) :
    lastMark? id history = none := by
  rw [lastMark?, List.findSome?_eq_none_iff]
  intro entry hentry
  exact if_neg (h entry (List.mem_reverse.1 hentry))

end LastMark

namespace TurnRun

/-- The marks of a run that began with the graph `g` are those that its history tells of. -/
structure Marked (g : Graph) (r : TurnRun) : Prop where
  accounted : r.Accounted
  initial : ∀ id ∈ idsOf g.nodes, r.ids.IsPast id
  past : ∀ entry ∈ r.history, ∀ id ∈ entry.turn.loading, r.ids.IsPast id
  marks : ∀ n ∈ r.graph.nodes, n.isLoading = (lastMark? n.id r.history).getD (g.isMarked n.id)

namespace Marked

variable {g : Graph} {r : TurnRun}

theorem start {ids : IdSource} (hnodup : (idsOf g.nodes).Nodup) (hfresh : ids.FreshFor g) :
    Marked g { graph := g, ids } where
  accounted := accounted_runTurns hnodup hfresh []
  initial _ hid := hfresh.isPast hid
  past _ hentry := absurd hentry List.not_mem_nil
  marks n hn := by
    rw [Graph.isMarked, Graph.node?_of_mem hnodup hn]
    rfl

/-- An id that is still to come is not marked and was never meant. -/
theorem isMarked_eq_of_notMem (h : Marked g r) {m : Node} (hmade : m.MadeAfter r.ids) :
    r.graph.isMarked m.id = (lastMark? m.id r.history).getD (g.isMarked m.id) := by
  have hnone : lastMark? m.id r.history = none :=
    lastMark?_eq_none fun entry hentry hid => hmade.id_ne (h.past entry hentry _ hid) rfl
  have hnew : m.id ∉ idsOf g.nodes := fun hid => hmade.id_ne (h.initial _ hid) rfl
  have hnew' : m.id ∉ idsOf r.graph.nodes :=
    fun hid => hmade.id_ne (h.accounted.fresh.isPast hid) rfl
  rw [hnone, Option.getD_none, Graph.isMarked, Graph.isMarked, Graph.node?_eq_none_iff.2 hnew,
    Graph.node?_eq_none_iff.2 hnew']

/-- Work that changes no mark, and then an entry that does: the history tells of the new marks. -/
theorem marks_after (h : Marked g r) {ids : IdSource} {g' : Graph}
    (hwork : Graph.Advances r.ids r.graph ids g') (entry : TurnEntry) :
    ∀ n ∈ (g'.setLoadingAll entry.turn.loading entry.isBeginning).nodes,
      n.isLoading = (lastMark? n.id (r.history ++ [entry])).getD (g.isMarked n.id) := by
  intro n hn
  rw [hwork.isLoading_setLoadingAll h.accounted.nodup h.accounted.fresh hn, lastMark?_append,
    lastMark?_singleton, TurnEntry.mark?]
  split
  · rfl
  · -- the entry is not about the node, which was there before or is new
    rw [Option.none_or]
    rw [Graph.setLoadingAll_eq] at hn
    obtain ⟨m, hm, rfl⟩ := List.mem_map.1 hn
    rw [Graph.id_markIn]
    obtain ⟨old, hold, hid, -⟩ | hmade := hwork.origin m hm
    · rw [← hid, ← h.marks old hold, Graph.isMarked,
        Graph.node?_of_mem h.accounted.nodup hold, Option.any_some]
    · exact h.isMarked_eq_of_notMem hmade

theorem past_after (h : Marked g r) {ids : IdSource} (hle : r.ids.next ≤ ids.next)
    {entry : TurnEntry} (hentry : ∀ id ∈ entry.turn.loading, r.ids.IsPast id) :
    ∀ e ∈ r.history ++ [entry], ∀ id ∈ e.turn.loading, ids.IsPast id := by
  intro e he id hid
  obtain he | he := List.mem_append.1 he
  · exact (h.past e he id hid).mono hle
  · rw [List.mem_singleton.1 he] at hid
    exact (hentry id hid).mono hle

theorem next (h : Marked g r) (event : TurnEvent) : Marked g (r.next event) := by
  have haccounted := h.accounted.next event
  obtain ⟨hsame, -⟩ | ⟨a, request, turn, begun, -, hbegin, hnext⟩ |
    ⟨answer, earlier, o, later, -, hflight, hrest, hnext⟩ := r.next_cases event
  · exact hsame.symm ▸ h
  · rw [hnext] at haccounted ⊢
    obtain ⟨-, hloading, rfl⟩ := TurnRequest.begin?_eq_some hbegin
    have htold := request.advances_told h.accounted.nodup h.accounted.fresh
    refine ⟨haccounted, h.initial, h.past_after (Nat.le_refl _) fun id hid => ?_, ?_⟩
    · exact h.accounted.fresh.isPast (hloading hid)
    · exact h.marks_after htold (.begun r.started request turn)
  · rw [hnext] at haccounted ⊢
    have happly := o.turn.advances_apply o.assistant h.accounted.nodup h.accounted.fresh answer
    have ho : o ∈ r.inFlight := by simp [hflight]
    obtain ⟨request, hbegun⟩ := h.accounted.exists_begun ho
    have hpast := h.past _ hbegun
    refine ⟨haccounted, fun id hid => (h.initial id hid).mono happly.next_le,
      h.past_after happly.next_le hpast, ?_⟩
    exact h.marks_after happly (.ended o.number o.turn _)

end Marked
end TurnRun

section Runs

variable {g : Graph} {ids : IdSource}

theorem marked_runTurns (hnodup : (idsOf g.nodes).Nodup) (hfresh : ids.FreshFor g)
    (events : List TurnEvent) : (runTurns g ids events).Marked g := by
  induction events using List.reverseRecOn with
  | nil => exact .start hnodup hfresh
  | append_singleton events event ih =>
      rw [runTurns_concat]
      exact ih.next event

/-- However turns overlap, a node is loading just if the last turn that began or ended on it began.
So a turn in flight keeps a node loading as long as no other turn on that node has ended since, or
another one has begun on it after that. -/
theorem loading_of_lastMark (hnodup : (idsOf g.nodes).Nodup) (hfresh : ids.FreshFor g)
    (events : List TurnEvent) :
    (∀ n ∈ (runTurns g ids events).graph.nodes,
      n.isLoading = (lastMark? n.id (runTurns g ids events).history).getD (g.isMarked n.id)) ∧
    ∀ o ∈ (runTurns g ids events).inFlight, ∃ earlier request later,
      (runTurns g ids events).history = earlier ++ .begun o.number request o.turn :: later ∧
      (∀ turn outcome, .ended o.number turn outcome ∉ later) ∧
      ∀ n ∈ (runTurns g ids events).graph.nodes, n.id ∈ o.turn.loading →
        (n.isLoading = true ↔ lastMark? n.id later ≠ some false) := by
  have h := marked_runTurns hnodup hfresh events
  refine ⟨h.marks, fun o ho => ?_⟩
  obtain ⟨request, hbegun⟩ := h.accounted.exists_begun ho
  obtain ⟨earlier, later, hsplit⟩ := List.append_of_mem hbegun
  refine ⟨earlier, request, later, hsplit, fun turn outcome hended => ?_, fun n hn hid => ?_⟩
  · apply h.accounted.ended_notMem ho turn outcome
    rw [hsplit]
    exact List.mem_append_right _ (List.mem_cons_of_mem _ hended)
  · -- what came before the turn began does not count any more
    have hbegin : (TurnEntry.begun o.number request o.turn).mark? n.id = some true := if_pos hid
    rw [h.marks n hn, hsplit, lastMark?_append, ← List.singleton_append, lastMark?_append,
      lastMark?_singleton, hbegin]
    cases lastMark? n.id later with
    | none => simp
    | some isLoading => cases isLoading <;> simp

end Runs

/-- A chat and a file that it is about: the turn on the file ends while the one on the chat waits.
-/
theorem loading_of_lastMark_answered_file :
    let chat : Node := { id := "c", kind := .chat, title := "Chat", contextIds := ["a"] }
    let g : Graph := { nodes := [chat, { id := "a", kind := .code, title := "a.js" }] }
    let events : List TurnEvent :=
      [.ask {} (.send "c" "hi"), .ask {} (.generate "a" none), .answer 1 (.ok {})]
    (idsOf g.nodes).Nodup ∧ IdSource.FreshFor {} g ∧
      (∀ n ∈ (runTurns g {} events).graph.nodes,
        n.isLoading = (lastMark? n.id (runTurns g {} events).history).getD (g.isMarked n.id)) ∧
      lastMark? "c" (runTurns g {} events).history = some true ∧
      lastMark? "a" (runTurns g {} events).history = some false := by
  intro chat g events
  have hnodup : (idsOf g.nodes).Nodup := by decide +kernel
  have hfresh : IdSource.FreshFor {} g :=
    .of_not_endsInDigit {} (by decide +kernel) (by decide +kernel)
  have hmarks := (loading_of_lastMark hnodup hfresh events).1
  exact ⟨hnodup, hfresh, hmarks, by decide +kernel, by decide +kernel⟩

/-- A turn in flight may have a node that is not loading.  Here the file is one that the chat is
about, and the turn on the file ends while the one on the chat waits.  The marks share their place
with those of a snapshot, too: one that arrives while a turn waits takes them off, and the second
attempt of the turn finds nothing loading. -/
theorem not_loading_of_in_flight :
    let chat : Node := { id := "c", kind := .chat, title := "Chat", contextIds := ["a"] }
    let g : Graph := { nodes := [chat, { id := "a", kind := .code, title := "a.js" }] }
    let events : List TurnEvent :=
      [.ask {} (.send "c" "hi"), .ask {} (.generate "a" none), .answer 1 (.ok {})]
    let r := runTurns g {} events
    let payload : Value := .object [("nodes", .list [
      .object [("id", .text "c"), ("type", .text "AI_CHAT"), ("contextNodeIds", .texts ["a"])],
      .object [("id", .text "a"), ("type", .text "CODE"), ("title", .text "a.js")]])]
    let setup : WorkspaceSetup := { compile := fun _ _ _ => .error .noFields }
    let busy : ServiceAnswer :=
      { delay := 2, outcome := .failed { message := "busy", statusCode := some 429 } }
    let w := ({ graph := g } : Workspace).push setup payload
    (∃ o ∈ r.inFlight, ∃ n ∈ r.graph.nodes, n.id ∈ o.turn.loading ∧ n.isLoading = false) ∧
      (w.turn setup {} ["k1", "k2"] 60 [busy, { delay := 1 }]
        (Turn.beginSend g "c" "hi")).attempts.map (·.loading) =
        [["c", "a"].map Text.ofString, []] := by
  decide +kernel

end LiveCanvas
