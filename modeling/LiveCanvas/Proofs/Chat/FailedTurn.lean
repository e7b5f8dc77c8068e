import LiveCanvas.Proofs.Chat.Ending
import LiveCanvas.Proofs.Chat.Failover
import LiveCanvas.Workspace.Basic

/-!
# Turns that come to nothing

Whatever the service does with the keys of a turn, waiting for it leaves the graph alone as long as
no snapshot is due: the timer of the recompiler only reads the graph.  So a turn that fails gives
back the graph that it began with, but for what it told its chat and the marks that it took away.
The marks of a turn are gone after it, however it ends.
-/

namespace LiveCanvas

namespace Workspace

variable {w : Workspace} {g : Graph}

/-- The workspace has this graph, and no snapshot waits that would change it. -/
def Quiet (g : Graph) (w : Workspace) : Prop :=
  w.graph = g ∧ w.inbox.isArmed = false

namespace Quiet

/-- Without a snapshot that waits, nothing fires but the timer of the recompiler. -/
theorem due?_eq (h : w.Quiet g) {time : Float} {timer : Timer} (hdue : w.due? time = some timer) :
    timer = .compile := by
  simp only [due?, h.2, Bool.false_and, Bool.and_false, Bool.false_eq_true, if_false] at hdue
  exact (Option.some.inj (Option.ite_none_right_eq_some.1 hdue).2).symm

theorem fireDue (h : w.Quiet g) (setup : WorkspaceSetup) (time : Float) (fuel : Nat) :
    (w.fireDue setup time fuel).Quiet g := by
  induction fuel generalizing w with
  | zero => exact h
  | succ fuel ih =>
      rw [Workspace.fireDue]
      split
      · next timer hdue =>
          rw [h.due?_eq hdue]
          exact ih h
      · exact h

theorem attempt (setup : WorkspaceSetup) (limit : Float) (turn : Turn) (key : Text) (talk : Talk)
    (h : talk.workspace.Quiet g) :
    (attempt setup limit turn key talk).2.workspace.Quiet g := by
  unfold Workspace.attempt
  split
  · exact h.fireDue setup _ 2
  · exact h

/-- The graph waits for the service as it was. -/
theorem call (setup : WorkspaceSetup) (limit : Float) (turn : Turn) (keys : List Text)
    {talk : Talk} (h : talk.workspace.Quiet g) :
    (Failover.call limit (Workspace.attempt setup limit turn) keys talk).2.workspace.Quiet g :=
  Failover.call_keeps (attempt setup limit turn) limit keys h

end Quiet

/-- How a turn that has begun goes on: the service is asked, and the turn ends with the answer. -/
theorem exists_finish (w : Workspace) (setup : WorkspaceSetup) (a : Assistant) (keys : List Text)
    (limit : Float) (answers : List ServiceAnswer) (turn : Turn) (begun : Graph) :
    ∃ answer, ∃ later : Workspace,
      (w.inbox.isArmed = false → later.graph = begun) ∧
      (w.turn setup a keys limit answers (some (turn, begun))).result =
        (turn.finish a later.graph later.ids answer).result.map some ∧
      (w.turn setup a keys limit answers (some (turn, begun))).workspace.graph =
        (turn.finish a later.graph later.ids answer).graph := by
  refine ⟨_, _, fun harmed => ?_, rfl, rfl⟩
  exact (Quiet.call (g := begun) setup limit turn keys ⟨rfl, harmed⟩).1

end Workspace

/-- What a chat has been told by a turn that failed. -/
def TurnRequest.saidInVain (e : ServiceError) (id : NodeId) : TurnRequest → List Message
  | send chat text =>
    if id = chat then [⟨.user, text⟩, ⟨.model, "Error: " ++ e.message⟩] else []
  | generate .. | fix .. => []

/-- The graph after a turn that failed. -/
def Turn.inVain (turn : Turn) (request : TurnRequest) (e : ServiceError) (g : Graph) : Graph :=
  { g with nodes := g.nodes.map fun n => { n with
      messages := n.messages ++ request.saidInVain e n.id
      isLoading := if n.id ∈ turn.loading then false else n.isLoading } }

/-- Only an error that arrives makes a turn fail. -/
theorem Turn.answer_of_map_result {turn : Turn} {a : Assistant} {g : Graph} {ids : IdSource}
    {answer : Except ServiceError Reply} {e : ServiceError}
    (h : (turn.finish a g ids answer).result.map some = .error e) : answer = .error e := by
  cases answer with
  | error e' =>
      cases h
      rfl
  | ok reply =>
      obtain ⟨report, hresult⟩ := turn.exists_result_apply a g ids reply
      change (turn.apply a g ids (.ok reply)).result.map some = _ at h
      rw [hresult] at h
      cases h

/-- A failed turn on a graph that nothing else has changed. -/
theorem Turn.graph_finish_error {turn : Turn} {request : TurnRequest}
    (hkind : turn.kind = request.kind) (a : Assistant) (g : Graph) (ids : IdSource)
    (e : ServiceError) :
    (turn.finish a (turn.mark (request.told g)) ids (.error e)).graph =
      turn.inVain request e g := by
  have hnodes : ∀ {change change' : Node → Node}, (∀ n, change n = change' n) →
      ({ g with nodes := g.nodes.map change } : Graph) = { g with nodes := g.nodes.map change' } :=
    fun h => by rw [funext h]
  show turn.unmark (endFailed turn.kind (turn.mark (request.told g)) ids e).graph = _
  rw [hkind]
  cases request with
  | send chat text =>
      simp only [endFailed, TurnRequest.kind, TurnRequest.told, mark, unmark,
        Graph.setLoadingAll_eq, Graph.addMessage, Graph.modifyNode, List.map_map]
      refine hnodes fun n => ?_
      by_cases hchat : n.id = chat
      · subst hchat
        by_cases hloading : n.id ∈ turn.loading <;>
          simp [Graph.markIn, TurnRequest.saidInVain, hloading]
      · by_cases hloading : n.id ∈ turn.loading <;>
          simp [Graph.markIn, TurnRequest.saidInVain, hchat, hloading]
  | generate _ _ | fix _ _ =>
      simp only [endFailed, TurnRequest.kind, TurnRequest.told, mark, unmark,
        Graph.setLoadingAll_eq, List.map_map]
      refine hnodes fun n => ?_
      by_cases hloading : n.id ∈ turn.loading <;>
        simp [Graph.markIn, TurnRequest.saidInVain, hloading]

/-- No node that a turn worked on is loading when the turn takes its marks away. -/
theorem Turn.isLoading_unmark (turn : Turn) (g : Graph) :
    ∀ n ∈ (turn.unmark g).nodes, n.id ∈ turn.loading → n.isLoading = false := by
  intro n hn hid
  rw [unmark, Graph.setLoadingAll_eq] at hn
  obtain ⟨m, hm, rfl⟩ := List.mem_map.1 hn
  rw [Graph.id_markIn] at hid
  rw [Graph.isLoading_markIn, if_pos hid]

/-- A turn that fails, with nothing else going on, gives back the graph as it was, but that a chat
has the text that was sent and the reason of the failure, and that no node of the turn is loading.
However a turn ends, also when it is called off while it waits, none of its nodes is loading. -/
theorem graph_of_failed_turn (w : Workspace) (setup : WorkspaceSetup) (a : Assistant)
    (keys : List Text) (limit : Float) (answers : List ServiceAnswer) (request : TurnRequest) :
    let r := w.turn setup a keys limit answers (request.begin? a w.graph)
    (∀ e, w.inbox.isArmed = false → r.result = .error e →
      ∃ turn begun, request.begin? a w.graph = some (turn, begun) ∧
        r.workspace.graph = turn.inVain request e w.graph) ∧
    ∀ turn begun, request.begin? a w.graph = some (turn, begun) →
      (∀ n ∈ r.workspace.graph.nodes, n.id ∈ turn.loading → n.isLoading = false) ∧
      ∀ g, ∀ n ∈ (turn.unmark g).nodes, n.id ∈ turn.loading → n.isLoading = false := by
  intro r
  cases hbegin : request.begin? a w.graph with
  | none =>
      refine ⟨fun e _ hfailed => ?_, fun turn begun hbegun => by cases hbegun⟩
      simp only [r, hbegin, Workspace.turn] at hfailed
      cases hfailed
  | some pair =>
      obtain ⟨turn, begun⟩ := pair
      obtain ⟨hkind, -, hbegun⟩ := TurnRequest.begin?_eq_some hbegin
      obtain ⟨answer, later, hlater, hresult, hgraph⟩ :=
        w.exists_finish setup a keys limit answers turn begun
      rw [← hbegin] at hresult hgraph
      refine ⟨fun e harmed hfailed => ⟨turn, begun, rfl, ?_⟩, fun turn' begun' heq => ?_⟩
      · obtain rfl := Turn.answer_of_map_result (hresult.symm.trans hfailed)
        rw [hgraph, hlater harmed, hbegun]
        exact Turn.graph_finish_error hkind a w.graph later.ids e
      · cases heq
        refine ⟨fun n hn => ?_, turn.isLoading_unmark⟩
        rw [hgraph] at hn
        exact turn.isLoading_unmark _ n hn

/-- The first key is busy, and the second attempt fails. -/
theorem graph_of_failed_turn_second_key :
    let chat : Node := { id := "c", kind := .chat, title := "Chat", contextIds := ["a"] }
    let g : Graph := { nodes := [chat, { id := "a", kind := .code, title := "a.js" }] }
    let w : Workspace := { graph := g }
    let setup : WorkspaceSetup := { compile := fun _ _ _ => .error .noFields }
    let busy : ServiceFailure := { message := "busy", statusCode := some 429 }
    let broken : ServiceFailure := { message := "boom", statusCode := some 500 }
    let request := TurnRequest.send "c" "hi"
    let r := w.turn setup {} ["k1", "k2"] 60
      [{ delay := 2, outcome := .failed busy }, { delay := 1, outcome := .failed broken }]
      (request.begin? {} g)
    ∃ e turn begun, r.result = .error e ∧ (e.message, e.attempts) = (.ofString "boom", 2) ∧
      w.inbox.isArmed = false ∧ request.begin? {} g = some (turn, begun) ∧
      r.workspace.graph = turn.inVain request e g := by
  intro chat g w setup busy broken request r
  have hended : (match r.result with
      | .error e => (e.message, e.attempts)
      | .ok _ => (.ofString "", 0)) = (.ofString "boom", 2) := by
    decide +kernel
  obtain ⟨hfailed, -⟩ := graph_of_failed_turn w setup {} ["k1", "k2"] 60
    [{ delay := 2, outcome := .failed busy }, { delay := 1, outcome := .failed broken }] request
  cases hresult : r.result with
  | error e =>
      rw [hresult] at hended
      obtain ⟨turn, begun, hbegin, hgraph⟩ := hfailed e rfl hresult
      exact ⟨e, turn, begun, rfl, hended, rfl, hbegin, hgraph⟩
  | ok report =>
      rw [hresult] at hended
      have hattempts : 0 = 2 := congrArg Prod.snd hended
      exact absurd hattempts (by decide)

end LiveCanvas
