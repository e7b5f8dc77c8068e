import LiveCanvas.Collab.Inbox
import Mathlib.Data.List.Basic
import Mathlib.Data.List.Induction

/-!
# Arrivals are applied once, in time, or never

An inbox is at work while payloads arrive, timers run out, and somebody flushes or cancels it, in
any order.  Each arrival starts a timer of its own and cancels the one before; of the timers only
this is taken for granted, that one which was cancelled never runs out.

What happened is kept as a history.  It tells what reconciling was given and when, and it accounts
for every change of the graph.  The inbox itself keeps no more than one payload: what waits there is
the last arrival, unless something has used it up or called it off since.
-/

namespace LiveCanvas

/-- What can happen to an inbox at work. -/
inductive InboxEvent
  /-- A payload arrives. -/
  | push (payload : Value)
  /-- The time of a timer is over. -/
  | elapse (timer : Nat)
  /-- What waits is to be applied now. -/
  | flush
  /-- The timer is to stop, and what waits to be forgotten. -/
  | cancel
  /-- The graph is changed by somebody else. -/
  | edit (after : Graph)

/-- An entry in the history of an inbox. -/
inductive InboxEntry
  | arrived (payload : Value)
  /-- Reconciling was given this payload. -/
  | applied (payload : Value)
  | cancelled
  | edited (after : Graph)

/-- The graph that work leaves, whether or not it stops. -/
def GraphWork.leaves {α : Type} (work : GraphWork α) (g : Graph) : Graph :=
  match work.run g with
  | .ok _ left => left
  | .error _ left => left

namespace InboxEntry

/-- What an entry makes of the graph. -/
def change (g : Graph) : InboxEntry → Graph
  | applied payload => (GraphWork.reconcile payload).leaves g
  | edited after => after
  | arrived _ | cancelled => g

/-- The payload of an arrival. -/
def arrival? : InboxEntry → Option Value
  | arrived payload => some payload
  | applied _ | cancelled | edited _ => none

end InboxEntry

/-- The payload that arrived last. -/
def lastArrival? (history : List InboxEntry) : Option Value :=
  history.reverse.findSome? InboxEntry.arrival?

/-- An inbox at work on a graph. -/
structure InboxRun where
  graph : Graph
  inbox : Inbox := {}
  /-- How many timers were started.  They are numbered from one. -/
  started : Nat := 0
  /-- The timers that were started and have neither run out nor been cancelled. -/
  timers : List Nat := []
  history : List InboxEntry := []

namespace InboxRun

/-- Takes over what applying the waiting payload leads to. -/
def take (r : InboxRun) (flushed : Flushed) : InboxRun :=
  { r with
    graph := flushed.graph
    inbox := flushed.inbox
    history := r.history ++ (r.inbox.latest.map .applied).toList }

/-- The timers without the one that the inbox knows of, which is the one started last. -/
def timersCancelled (r : InboxRun) : List Nat :=
  if r.inbox.isArmed then r.timers.erase r.started else r.timers

/-- One event. -/
def next (r : InboxRun) : InboxEvent → InboxRun
  | .push payload =>
    { r with
      inbox := r.inbox.push payload
      started := r.started + 1
      timers := r.timersCancelled ++ [r.started + 1]
      history := r.history ++ [.arrived payload] }
  | .elapse timer =>
    -- a timer that was cancelled never runs out
    if timer ∈ r.timers then
      { r.take (r.inbox.fire r.graph) with timers := r.timers.erase timer }
    else r
  | .flush => r.take (r.inbox.flush r.graph)
  | .cancel =>
    { r with
      inbox := r.inbox.cancel
      timers := r.timersCancelled
      history := r.history ++ [.cancelled] }
  | .edit after =>
    { r with
      graph := after
      history := r.history ++ [.edited after] }

/-- A run of a new inbox. -/
def run (g : Graph) (events : List InboxEvent) : InboxRun :=
  events.foldl next { graph := g }

end InboxRun

/-! ## What waits according to the history -/

namespace InboxEntry

/-- What waits after an entry; a null payload is none. -/
def waitsAfter (before : Option Value) : InboxEntry → Option Value
  | arrived payload => payload.present?
  | applied _ | cancelled => none
  | edited _ => before

end InboxEntry

/-- What waits after a history. -/
def waiting (history : List InboxEntry) : Option Value :=
  history.foldl InboxEntry.waitsAfter none

theorem lastArrival?_concat (history : List InboxEntry) (entry : InboxEntry) :
    lastArrival? (history ++ [entry]) = entry.arrival?.or (lastArrival? history) := by
  rw [lastArrival?, List.reverse_append, List.reverse_singleton, List.singleton_append,
    List.findSome?_cons]
  cases entry <;> rfl

/-- What waits is the last arrival. -/
theorem lastArrival?_of_waiting {history : List InboxEntry} {payload : Value}
    (h : waiting history = some payload) : lastArrival? history = some payload := by
  induction history using List.reverseRecOn with
  | nil => cases h
  | append_singleton history entry ih =>
      rw [waiting, List.foldl_concat] at h
      rw [lastArrival?_concat]
      cases entry with
      | arrived given => rw [Value.eq_of_present? h, InboxEntry.arrival?, Option.some_or]
      | applied _ => cases h
      | cancelled => cases h
      | edited _ => rw [InboxEntry.arrival?, Option.none_or, ih h]

/-- Once nothing waits, what waits later arrived since. -/
theorem waiting_append_cons {entry : InboxEntry} (h : ∀ before, entry.waitsAfter before = none)
    (earlier later : List InboxEntry) : waiting (earlier ++ entry :: later) = waiting later := by
  rw [waiting, List.foldl_append, List.foldl_cons, h]
  rfl

/-! ## What every event keeps -/

/-- The graph after a flush is the one before, reconciled with what waited. -/
theorem Inbox.graph_flush (inbox : Inbox) (g : Graph) :
    (inbox.flush g).graph =
      (inbox.latest.map InboxEntry.applied).toList.foldl InboxEntry.change g := by
  unfold Inbox.flush
  cases inbox.latest with
  | none => rfl
  | some payload =>
      simp only [Option.map_some, Option.toList_some, List.foldl_cons, List.foldl_nil,
        InboxEntry.change, GraphWork.leaves]
      cases (GraphWork.reconcile payload).run g with
      | ok report merged => rfl
      | error e left => cases e <;> rfl

/-- A flush uses up what waited and leaves the timer alone. -/
theorem Inbox.inbox_flush (inbox : Inbox) (g : Graph) :
    (inbox.flush g).inbox = { inbox with latest := none } := by
  unfold Inbox.flush
  cases inbox.latest with
  | none => rfl
  | some payload =>
      dsimp only
      cases (GraphWork.reconcile payload).run g with
      | ok report merged => rfl
      | error e left => cases e <;> rfl

namespace InboxRun

/-- What is true of an inbox at work that began with the graph `g`. -/
structure Coherent (g : Graph) (r : InboxRun) : Prop where
  /-- No timer runs but the one that the inbox knows of. -/
  timers : r.timers = if r.inbox.isArmed then [r.started] else []
  /-- Without a timer nothing waits. -/
  idle : r.inbox.isArmed = false → r.inbox.latest = none
  /-- The inbox keeps what waits according to the history. -/
  latest : r.inbox.latest = waiting r.history
  /-- Whatever was applied was waiting then. -/
  waited : ∀ earlier payload later, r.history = earlier ++ .applied payload :: later →
    waiting earlier = some payload
  /-- The history accounts for the graph. -/
  graph : r.graph = r.history.foldl InboxEntry.change g

/-- What was applied before one more entry, or is that entry. -/
theorem waited_concat {history : List InboxEntry} {entry : InboxEntry}
    (h : ∀ earlier payload later, history = earlier ++ .applied payload :: later →
      waiting earlier = some payload)
    (hentry : ∀ payload, entry = .applied payload → waiting history = some payload) :
    ∀ earlier payload later, history ++ [entry] = earlier ++ .applied payload :: later →
      waiting earlier = some payload := by
  intro earlier payload later hsplit
  obtain rfl | ⟨later, last, rfl⟩ := List.eq_nil_or_concat later
  · obtain ⟨rfl, hlast⟩ := List.append_inj' hsplit rfl
    exact hentry payload (List.singleton_inj.mp hlast)
  · rw [List.concat_eq_append, ← List.cons_append, ← List.append_assoc] at hsplit
    exact h earlier payload later (List.append_inj' hsplit rfl).1

section Steps

variable {g : Graph} {r : InboxRun}

theorem coherent_start (g : Graph) : Coherent g { graph := g } where
  timers := rfl
  idle := fun _ => rfl
  latest := rfl
  waited := fun earlier _ _ h => by simp at h
  graph := rfl

theorem Coherent.timersCancelled (h : Coherent g r) : r.timersCancelled = [] := by
  rw [InboxRun.timersCancelled, h.timers]
  cases r.inbox.isArmed <;> simp

theorem Coherent.push (h : Coherent g r) (payload : Value) :
    Coherent g (r.next (.push payload)) where
  timers := by simp [next, h.timersCancelled, Inbox.push]
  idle := fun harmed => by simp [next, Inbox.push] at harmed
  latest := by simp [next, waiting, Inbox.push, InboxEntry.waitsAfter]
  waited := waited_concat h.waited fun _ he => by cases he
  graph := by simp [next, h.graph, InboxEntry.change]

theorem Coherent.cancel (h : Coherent g r) : Coherent g (r.next .cancel) where
  timers := h.timersCancelled
  idle := fun _ => rfl
  latest := by simp [next, waiting, Inbox.cancel, InboxEntry.waitsAfter]
  waited := waited_concat h.waited fun _ he => by cases he
  graph := by simp [next, h.graph, InboxEntry.change]

theorem Coherent.edit (h : Coherent g r) (after : Graph) :
    Coherent g (r.next (.edit after)) where
  timers := h.timers
  idle := h.idle
  latest := by simp [next, waiting, InboxEntry.waitsAfter, h.latest]
  waited := waited_concat h.waited fun _ he => by cases he
  graph := by simp [next, InboxEntry.change]

/-- Applying what waits keeps the history right, whatever becomes of the timers. -/
theorem Coherent.take (h : Coherent g r) {flushed : Flushed}
    (hgraph : flushed.graph =
      (r.inbox.latest.map InboxEntry.applied).toList.foldl InboxEntry.change r.graph)
    (hlatest : flushed.inbox.latest = none) {timers : List Nat}
    (htimers : timers = if flushed.inbox.isArmed then [r.started] else []) :
    Coherent g { r.take flushed with timers } where
  timers := htimers
  idle := fun _ => hlatest
  latest := by
    change flushed.inbox.latest = waiting (r.history ++ _)
    cases hwaits : r.inbox.latest with
    | none => rw [hlatest, Option.map_none, Option.toList_none, List.append_nil, ← h.latest, hwaits]
    | some payload => simp [hlatest, waiting, InboxEntry.waitsAfter]
  waited := by
    change ∀ earlier payload later, r.history ++ _ = _ → _
    cases hwaits : r.inbox.latest with
    | none => simpa using h.waited
    | some payload =>
        refine waited_concat h.waited fun given hgiven => ?_
        obtain rfl := InboxEntry.applied.inj hgiven
        rw [← h.latest, hwaits]
  graph := by
    change flushed.graph = List.foldl _ _ (r.history ++ _)
    rw [hgraph, List.foldl_append, ← h.graph]

theorem Coherent.flush (h : Coherent g r) : Coherent g (r.next .flush) :=
  h.take (Inbox.graph_flush r.inbox r.graph) (by rw [Inbox.inbox_flush])
    (by rw [Inbox.inbox_flush]; exact h.timers)

theorem Coherent.elapse (h : Coherent g r) (timer : Nat) :
    Coherent g (r.next (.elapse timer)) := by
  rw [next]
  split
  · next hruns =>
      -- the timer is the one that the inbox knows of, and no other is left
      have hlast : r.inbox.isArmed = true ∧ timer = r.started := by
        rw [h.timers] at hruns
        cases harmed : r.inbox.isArmed <;> simp [harmed] at hruns
        exact ⟨rfl, hruns⟩
      apply h.take
      · exact Inbox.graph_flush { r.inbox with isArmed := false } r.graph
      · rw [Inbox.fire, Inbox.inbox_flush]
      · rw [Inbox.fire, Inbox.inbox_flush, h.timers, if_pos hlast.1, hlast.2]
        simp
  · exact h

/-- Every event keeps the run coherent. -/
theorem Coherent.next (h : Coherent g r) (event : InboxEvent) : Coherent g (r.next event) := by
  cases event with
  | push payload => exact h.push payload
  | elapse timer => exact h.elapse timer
  | flush => exact h.flush
  | cancel => exact h.cancel
  | edit after => exact h.edit after

end Steps

theorem coherent_run (g : Graph) (events : List InboxEvent) : Coherent g (run g events) := by
  induction events using List.reverseRecOn with
  | nil => exact coherent_start g
  | append_singleton events event ih =>
      rw [run, List.foldl_concat]
      exact ih.next event

/-- Whatever happens in whatever order: a payload that is applied is the one that arrived last, it
has arrived since the payload that was applied before it and since the last time the inbox was
cancelled, nothing waits while no timer runs, and the graph is what was applied and edited, one
after the other. -/
theorem applied_is_latest_arrival (g : Graph) (events : List InboxEvent) :
    (∀ earlier payload later,
      (run g events).history = earlier ++ .applied payload :: later →
        lastArrival? earlier = some payload) ∧
    (∀ earlier first since payload later,
      (run g events).history = earlier ++ .applied first :: (since ++ .applied payload :: later) →
        lastArrival? since = some payload) ∧
    (∀ earlier since payload later,
      (run g events).history = earlier ++ .cancelled :: (since ++ .applied payload :: later) →
        lastArrival? since = some payload) ∧
    ((run g events).timers = [] → (run g events).inbox.latest = none) ∧
    (run g events).graph = (run g events).history.foldl InboxEntry.change g := by
  have h := coherent_run g events
  -- an entry that leaves nothing waiting cuts off what was there before
  have hsince : ∀ entry : InboxEntry, (∀ before, entry.waitsAfter before = none) →
      ∀ earlier since payload later,
        (run g events).history = earlier ++ entry :: (since ++ .applied payload :: later) →
          lastArrival? since = some payload := by
    intro entry hentry earlier since payload later hsplit
    apply lastArrival?_of_waiting
    rw [← waiting_append_cons hentry earlier since]
    apply h.waited _ payload later
    rw [hsplit, List.append_assoc, List.cons_append]
  refine ⟨?_, ?_, ?_, ?_, h.graph⟩
  · intro earlier payload later hsplit
    exact lastArrival?_of_waiting (h.waited earlier payload later hsplit)
  · intro earlier first since payload later
    exact hsince (.applied first) (fun _ => rfl) earlier since payload later
  · exact hsince .cancelled fun _ => rfl
  · intro hnone
    apply h.idle
    have htimers := h.timers
    rw [hnone] at htimers
    cases harmed : (run g events).inbox.isArmed with
    | false => rfl
    | true => simp [harmed] at htimers

/-- Two payloads arrive, and only the second timer runs out; the third payload is called off before
its timer runs out, and the fourth is asked for. -/
theorem applied_is_latest_arrival_called_off :
    let running (id : NodeId) : Value := .object [("runningIds", .texts [id])]
    let events : List InboxEvent := [.push (running "a"), .push (running "b"), .elapse 1,
      .elapse 2, .push (running "c"), .cancel, .elapse 3, .push (running "d"), .flush]
    (run {} events).history = [.arrived (running "a"), .arrived (running "b"),
      .applied (running "b"), .arrived (running "c"), .cancelled, .arrived (running "d"),
      .applied (running "d")] ∧
    lastArrival? [.arrived (running "a"), .arrived (running "b")] = some (running "b") ∧
    lastArrival? [.arrived (running "c"), .cancelled, .arrived (running "d")] =
      some (running "d") ∧
    lastArrival? [.arrived (running "d")] = some (running "d") := by
  intro running events
  have hhistory : (run {} events).history = [.arrived (running "a"), .arrived (running "b"),
      .applied (running "b"), .arrived (running "c"), .cancelled, .arrived (running "d"),
      .applied (running "d")] := rfl
  obtain ⟨hlast, honce, hcancelled, -⟩ := applied_is_latest_arrival {} events
  refine ⟨hhistory, ?_, ?_, ?_⟩
  · exact hlast [.arrived _, .arrived _] _ _ hhistory
  · exact honce [.arrived _, .arrived _] _ [.arrived _, .cancelled, .arrived _] _ [] hhistory
  · exact hcancelled [.arrived _, .arrived _, .applied _, .arrived _] [.arrived _] _ [] hhistory

end InboxRun
end LiveCanvas
