import LiveCanvas.Collab.Inbox
import LiveCanvas.Proofs.Canvas.EntryFaults
import LiveCanvas.Proofs.Collab.InPlace
import Mathlib.Algebra.Ring.Int.Defs

/-!
# How payloads are refused

A payload that is no snapshot is refused with a description of what is wrong with it, and the inbox
drops it.  One fault is not described: a whole number beyond every double in the place or a size of
a node.  It goes through reconciling and through the inbox as it is.  This module shows that there
is no other such fault, wherever a payload goes wrong.
-/

namespace LiveCanvas

/-! ## Payloads -/

/-- A payload stops reconciling without a description only when a node in it has a whole number
beyond every double for its place or a size. -/
theorem Graph.reconcile_eq_misuse {g : Graph} {payload : Value} {cause : Misuse}
    (h : g.reconcile payload = .error (.misuse cause)) :
    cause = .tooLarge ∧ ∃ entries, entries? payload "nodes" = some entries ∧
      ∃ v ∈ entries, ∃ n, .number (.whole n) ∈ Node.measures v ∧ BeyondDoubles n := by
  obtain hread | ⟨_, -, h⟩ := bind_eq_error_iff.mp h
  · obtain ⟨_, hshape⟩ | ⟨entries, fields, hentries, hmem, hnode⟩ |
      ⟨_, fields, -, -, hconnection⟩ := Incoming.cases_of_ofValue_eq_error hread
    · cases hshape
    · obtain ⟨rfl, hbeyond⟩ := Node.ofValue_eq_misuse hnode
      exact ⟨rfl, entries, hentries, .object fields, hmem, hbeyond⟩
    · exact absurd hconnection (Connection.ofValue_ne_misuse fields cause)
  · exact absurd h pure_ne_error

/-- The inbox fails only where reconciling stops without a description. -/
theorem Inbox.result_flush_eq_error {inbox : Inbox} {g : Graph} {cause : Misuse}
    (h : (inbox.flush g).result = .error cause) :
    ∃ payload, inbox.latest = some payload ∧ g.reconcile payload = .error (.misuse cause) := by
  unfold flush at h
  cases hlatest : inbox.latest with
  | none => simp [hlatest] at h
  | some payload =>
      refine ⟨payload, rfl, ?_⟩
      simp only [hlatest, GraphWork.run_reconcile] at h
      cases hreconcile : g.reconcile payload with
      | ok done => simp [hreconcile] at h
      | error e =>
          cases e with
          | misuse given =>
              obtain rfl : given = cause := by simpa [hreconcile] using h
              rfl
          | _ => simp [hreconcile] at h

/-- A payload whose nodes have no whole number beyond every double for their places and sizes is
taken over or refused with a description, and the inbox gets over it whenever it is applied. -/
theorem refusal_described_of_not_beyond (g : Graph) {payload : Value}
    (hfit : ∀ entries, entries? payload "nodes" = some entries → ∀ v ∈ entries,
      ∀ n, .number (.whole n) ∈ Node.measures v → ¬ BeyondDoubles n) :
    ((∃ done, g.reconcile payload = .ok done) ∨
      ∃ e, g.reconcile payload = .error e ∧ e.isDescribed = true) ∧
    ∀ inbox : Inbox,
      (∃ report, ((inbox.push payload).flush g).result = .ok report) ∧
      ∃ report, ((inbox.push payload).fire g).result = .ok report := by
  have hdescribed : ∀ cause, g.reconcile payload ≠ .error (.misuse cause) := by
    intro cause h
    obtain ⟨-, entries, hentries, v, hv, n, hn, hbeyond⟩ := Graph.reconcile_eq_misuse h
    exact hfit entries hentries v hv n hn hbeyond
  -- whatever waits in the inbox is this payload
  have hflush : ∀ inbox : Inbox, inbox.latest = payload.present? →
      ∃ report, (inbox.flush g).result = .ok report := by
    intro inbox hlatest
    cases hresult : (inbox.flush g).result with
    | ok report => exact ⟨report, rfl⟩
    | error cause =>
        obtain ⟨waiting, hwaiting, h⟩ := Inbox.result_flush_eq_error hresult
        obtain rfl : payload = waiting := Value.eq_of_present? (hlatest.symm.trans hwaiting)
        exact absurd h (hdescribed cause)
  constructor
  · cases hreconcile : g.reconcile payload with
    | ok done => exact .inl ⟨done, rfl⟩
    | error e =>
        refine .inr ⟨e, rfl, ?_⟩
        cases e with
        | misuse cause => exact absurd hreconcile (hdescribed cause)
        | _ => rfl
  · intro inbox
    exact ⟨hflush _ rfl, hflush _ rfl⟩

/-- A node with a place that is no number and with the largest whole number of 309 digits for its
width, and a connection without ends. -/
theorem refusal_described_of_not_beyond_unreadable_place :
    let node : Value := .object [("id", .text "a"), ("type", .text "CODE"),
      ("position", .object [("x", .text "left"), ("y", .null)]),
      ("size", .object [("width", .int (10 ^ 308)), ("height", .real 40)])]
    let payload : Value := .object [("nodes", .list [node]),
      ("connections", .list [.object [("id", .text "c")]])]
    (∀ entries, entries? payload "nodes" = some entries → ∀ v ∈ entries,
      ∀ n, .number (.whole n) ∈ Node.measures v → ¬ BeyondDoubles n) ∧
    ((∃ done, Graph.reconcile {} payload = .ok done) ∨
      ∃ e, Graph.reconcile {} payload = .error e ∧ e.isDescribed = true) ∧
    ∀ inbox : Inbox,
      (∃ report, ((inbox.push payload).flush {}).result = .ok report) ∧
      ∃ report, ((inbox.push payload).fire {}).result = .ok report := by
  intro node payload
  have hfit : ∀ entries, entries? payload "nodes" = some entries → ∀ v ∈ entries,
      ∀ n, .number (.whole n) ∈ Node.measures v → ¬ BeyondDoubles n := by
    intro entries hentries v hv n hn
    obtain rfl : [node] = entries := Option.some.inj hentries
    obtain rfl := List.mem_singleton.mp hv
    obtain rfl : n = 10 ^ 308 := by
      simpa [node, Node.measures, Value.valuesOf, Value.field, Fields.get?, Value.int, Value.real,
        -Int.reducePow]
        using hn
    rw [beyondDoubles_iff]
    decide +kernel
  exact ⟨hfit, refusal_described_of_not_beyond {} hfit⟩

/-! ## The fault that is not described -/

/-- A payload with one node, at a whole number from the left. -/
def placedAt (n : Int) : Value :=
  .object [("nodes", .list [.object [("id", .text "a"), ("type", .text "CODE"),
    ("position", .object [("x", .number (.whole n))])]])]

/-- Reconciling with a place beyond every double stops without a description. -/
theorem Graph.reconcile_placedAt (g : Graph) {n : Int} (h : BeyondDoubles n) :
    g.reconcile (placedAt n) = .error (.misuse .tooLarge) := by
  have hposition : Position.ofFields [("x", .number (.whole n))] = .error .tooLarge := by
    change (Value.number (.whole n)).toReal >>= _ = _
    rw [Value.toReal_of_beyondDoubles h]
    rfl
  have hnode : Node.ofValue (.object [("id", .text "a"), ("type", .text "CODE"),
      ("position", .object [("x", .number (.whole n))])]) = .error (.misuse .tooLarge) := by
    change Node.inField "a" (Position.ofFields [("x", .number (.whole n))]) >>= _ = _
    rw [hposition]
    rfl
  change ((List.mapM Node.ofValue [_] >>= _) >>= _) >>= _ = _
  rw [List.mapM_cons, hnode]
  rfl

/-- The first power of ten beyond every double: reconciling stops without a description, and so does
the inbox, whether it is asked to apply the payload or its timer fires. -/
theorem undescribed_of_beyond :
    ¬ (((∃ done, Graph.reconcile {} (placedAt (10 ^ 309)) = .ok done) ∨
        ∃ e, Graph.reconcile {} (placedAt (10 ^ 309)) = .error e ∧ e.isDescribed = true) ∨
      (∃ report, ((Inbox.push {} (placedAt (10 ^ 309))).flush {}).result = .ok report) ∨
      ∃ report, ((Inbox.push {} (placedAt (10 ^ 309))).fire {}).result = .ok report) := by
  have hbeyond : BeyondDoubles (10 ^ 309) := by
    rw [beyondDoubles_iff]
    decide +kernel
  have hreconcile := Graph.reconcile_placedAt {} hbeyond
  have hflush : ∀ inbox : Inbox, inbox.latest = some (placedAt (10 ^ 309)) →
      (inbox.flush {}).result = .error .tooLarge := by
    intro inbox hlatest
    simp only [Inbox.flush, hlatest, GraphWork.run_reconcile, hreconcile]
  rw [hreconcile, hflush _ rfl, Inbox.fire, hflush _ rfl]
  simp [LoadError.isDescribed]

end LiveCanvas
