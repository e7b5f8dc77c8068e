import LiveCanvas.Collab.InPlace
import LiveCanvas.Proofs.Collab.Entries
import LiveCanvas.Proofs.Collab.Merge

/-!
# Reconciling in place is all or nothing

Reading a payload leaves the graph alone, and each part of taking it over succeeds on every graph.
So the work on the shared graph either ends where the merged graph is, or stops before it began.
-/

namespace LiveCanvas
namespace GraphWork

variable {α : Type}

/-! ## The steps -/

theorem run_reading (r : Except LoadError α) (g : Graph) :
    (reading r).run g = match r with
      | .ok a => .ok a g
      | .error e => .error e g := by
  cases r <;> rfl

theorem run_forM_forgetNode (ids : List NodeId) (g : Graph) :
    (ids.forM forgetNode).run g = .ok ()
      { g with
        logs := ids.foldl Fields.erase g.logs
        gestures := ids.foldl Fields.erase g.gestures } := by
  have hstep : ∀ id g, (forgetNode id).run g = .ok ()
      { g with logs := g.logs.erase id, gestures := g.gestures.erase id } := fun _ _ => rfl
  rw [run_forM hstep]
  congr 1
  induction ids generalizing g with
  | nil => rfl
  | cons id ids ih => exact ih _

theorem run_takeNodes_some (nodes : List Node) (g : Graph) :
    (takeNodes (some nodes)).run g = .ok (g.reportNodes nodes) (g.mergeNodes nodes) := by
  simp only [takeNodes, EStateM.run_bind, EStateM.run_pure, EStateM.run_get, EStateM.run_modify,
    run_forM_forgetNode]
  rfl

theorem run_takeConnections (connections : Option (List Connection)) (g : Graph) :
    (takeConnections connections).run g = .ok () (g.mergeConnections connections) := by
  cases connections with
  | none => rfl
  | some connections =>
      simp only [takeConnections, EStateM.run_bind, EStateM.run_modify]
      exact run_forM (fun _ _ => rfl) connections _

/-! ## The work as a whole -/

theorem reading_bind {β : Type} (r : Except LoadError α) (f : α → Except LoadError β) :
    reading (r >>= f) = reading r >>= fun a => reading (f a) := by
  cases r <;> rfl

/-- Reading step by step is one reading. -/
theorem readPayload_eq (payload : Value) :
    readPayload payload = reading (Incoming.ofValue payload) := by
  simp only [Incoming.ofValue, Incoming.ofSnapshot, reading_bind]
  rfl

/-- Taking over what was read succeeds on every graph. -/
theorem run_take (s : Incoming) (g : Graph) :
    (take s).run g = .ok (g.mergeReport s) (g.merge s) := by
  simp only [take, EStateM.run_bind, EStateM.run_pure, run_takeConnections, takeRunning, takeView,
    EStateM.run_modify]
  cases hnodes : s.nodes with
  | none => simp only [takeNodes, EStateM.run_pure, Graph.mergeReport, Graph.merge, hnodes]
  | some nodes => simp only [run_takeNodes_some, Graph.mergeReport, Graph.merge, hnodes]

/-- The work in place comes to what reconciling makes of the graph; a payload that is refused leaves
it alone. -/
theorem run_reconcile (payload : Value) (g : Graph) :
    (reconcile payload).run g = match g.reconcile payload with
      | .ok (after, report) => .ok report after
      | .error e => .error e g := by
  rw [reconcile, EStateM.run_bind, readPayload_eq, run_reading, Graph.reconcile]
  cases Incoming.ofValue payload with
  | error e => rfl
  | ok s => exact run_take s g

/-- Reconciling with a payload is all or nothing: if it stops, for whatever reason, the graph is
what it was, and if it does not, every node and every connection of the payload was read. -/
theorem reconcile_all_or_nothing (payload : Value) (g : Graph) :
    (∀ e after, (reconcile payload).run g = .error e after → after = g) ∧
    (∀ report after, (reconcile payload).run g = .ok report after →
      EntriesRead Node.ofValue payload "nodes" ∧
        EntriesRead Connection.ofValue payload "connections") := by
  rw [run_reconcile]
  cases hread : Incoming.ofValue payload with
  | error e =>
      have hreconcile : g.reconcile payload = .error e := by
        rw [Graph.reconcile, hread]
        rfl
      rw [hreconcile]
      constructor
      · intro e' after h
        exact (EStateM.Result.error.inj h).2.symm
      · intro report after h
        cases h
  | ok s =>
      rw [Graph.reconcile_of_ofValue g hread]
      constructor
      · intro e after h
        cases h
      · intro _ _ _
        exact Incoming.entriesRead_of_ofValue hread

/-- A snapshot without the node that is dragged here: with a connection that lacks its ends it
changes nothing, and with none it is taken over. -/
theorem reconcile_all_or_nothing_late_fault :
    let payload (connections : List Value) : Value := .object
      [("nodes", .list [.object [("id", .text "b"), ("type", .text "CODE")]]),
        ("connections", .list connections)]
    let g : Graph := {
      nodes := [{ id := "a", kind := .code, title := "a.js" }]
      logs := [("a", [])]
      gestures := [("a", .drag)] }
    (∃ e after, (reconcile (payload [.object [("id", .text "c")]])).run g = .error e after ∧
      after = g) ∧
    ∃ report after, (reconcile (payload [])).run g = .ok report after ∧
      EntriesRead Node.ofValue (payload []) "nodes" ∧
        EntriesRead Connection.ofValue (payload []) "connections" := by
  intro payload g
  constructor
  · have hstops : (reconcile (payload [.object [("id", .text "c")]])).run g =
        .error (.missingConnectionField "sourceNodeId") g := rfl
    exact ⟨_, _, hstops, (reconcile_all_or_nothing _ g).1 _ _ hstops⟩
  · obtain ⟨report, after, hends⟩ :
        ∃ report after, (reconcile (payload [])).run g = .ok report after := ⟨_, _, rfl⟩
    exact ⟨report, after, hends, (reconcile_all_or_nothing _ g).2 _ _ hends⟩

end GraphWork
end LiveCanvas
