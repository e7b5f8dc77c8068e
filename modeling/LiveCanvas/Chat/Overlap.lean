import LiveCanvas.Chat.Turn

/-!
# Turns that overlap

A turn gives way only while it waits for the service.  So what several assistants do to one graph is
a sequence of events: a turn is asked for and begins, or the answer for a turn that waits arrives
and ends it.  Answers arrive in any order, and each is applied to the graph as it is by then.
-/

namespace LiveCanvas

/-- What can be asked of an assistant. -/
inductive TurnRequest
  | send (chat : NodeId) (text : Text)
  | generate (file : NodeId) (request : Option Text)
  | fix (terminal : NodeId) (error : Text)

/-- Begins the turn that is asked for, unless there is nothing to do. -/
def TurnRequest.begin? (a : Assistant) (g : Graph) : TurnRequest → Option (Turn × Graph)
  | send chat text => Turn.beginSend g chat text
  | generate file request => Turn.beginGenerate a g file request
  | fix terminal error => Turn.beginFix g terminal error

/-- What happens to the turns of a graph. -/
inductive TurnEvent
  | ask (assistant : Assistant) (request : TurnRequest)
  /-- The answer for the turn with a number arrives. -/
  | answer (number : Nat) (answer : Except ServiceError Reply)

/-- A turn that waits for its answer. -/
structure OpenTurn where
  number : Nat
  assistant : Assistant
  turn : Turn

/-- What came of a turn: the reply with the report of the edits it led to. -/
abbrev TurnOutcome := Except ServiceError (Reply × BatchReport)

/-- The outcome of a turn that has ended with an answer. -/
def TurnEnd.outcome (ended : TurnEnd) (answer : Except ServiceError Reply) : TurnOutcome := do
  return (← answer, ← ended.result)

/-- What is remembered of a turn. -/
inductive TurnEntry
  | begun (number : Nat) (request : TurnRequest) (turn : Turn)
  | ended (number : Nat) (turn : Turn) (outcome : TurnOutcome)

/-- A graph and the turns that work on it. -/
structure TurnRun where
  graph : Graph
  ids : IdSource := {}
  /-- How many turns have begun; the next one gets this number. -/
  started : Nat := 0
  inFlight : List OpenTurn := []
  history : List TurnEntry := []

namespace TurnRun

/-- A turn has begun. -/
def starting (r : TurnRun) (assistant : Assistant) (request : TurnRequest) (turn : Turn)
    (begun : Graph) : TurnRun :=
  { r with
    graph := begun
    started := r.started + 1
    inFlight := r.inFlight ++ [⟨r.started, assistant, turn⟩]
    history := r.history ++ [.begun r.started request turn] }

/-- A turn in flight ends with an answer. -/
def ending (r : TurnRun) (o : OpenTurn) (answer : Except ServiceError Reply) : TurnRun :=
  let ended := o.turn.finish o.assistant r.graph r.ids answer
  { r with
    graph := ended.graph
    ids := ended.ids
    inFlight := r.inFlight.eraseP (·.number == o.number)
    history := r.history ++ [.ended o.number o.turn (ended.outcome answer)] }

/-- One event.  An answer that no turn waits for is lost. -/
def next (r : TurnRun) : TurnEvent → TurnRun
  | .ask assistant request =>
    match request.begin? assistant r.graph with
    | some (turn, begun) => r.starting assistant request turn begun
    | none => r
  | .answer number answer =>
    match r.inFlight.find? (·.number == number) with
    | some o => r.ending o answer
    | none => r

end TurnRun

/-- What a sequence of events makes of a graph. -/
def runTurns (g : Graph) (ids : IdSource) (events : List TurnEvent) : TurnRun :=
  events.foldl TurnRun.next { graph := g, ids }

end LiveCanvas
