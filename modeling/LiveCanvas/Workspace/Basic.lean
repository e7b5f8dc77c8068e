import LiveCanvas.Chat.Answer
import LiveCanvas.Chat.Turn
import LiveCanvas.Collab.Inbox
import LiveCanvas.Preview.Recompile

/-!
# A workspace over time

A graph with everything that works on it: the recompiler, the inbox, and a clock that moves only by
waiting.  Timers that become due while time passes fire in the order in which they are due.
-/

namespace LiveCanvas

/-- What a workspace is set up with. -/
structure WorkspaceSetup where
  compile : PreviewCompiler
  /-- Seconds of quiet before previews are compiled again. -/
  compileDelay : Float := 0.3
  /-- Seconds of quiet before a snapshot is applied. -/
  snapshotDelay : Float := 0.8

/-- A graph with everything that works on it. -/
structure Workspace where
  graph : Graph := {}
  ids : IdSource := {}
  recompiler : Recompiler := {}
  inbox : Inbox := {}
  /-- Seconds since the beginning. -/
  now : Float := 0
  /-- When the recompiler fires, if its timer runs. -/
  compileAt : Float := 0
  /-- When the inbox fires, if its timer runs. -/
  snapshotAt : Float := 0
  /-- The documents that were delivered. -/
  deliveries : List Delivery := []
  /-- The snapshots that were applied. -/
  applied : List MergeReport := []

namespace Workspace

/-- Takes over what a step of the recompiler leads to. -/
def recompiled {α : Type} (w : Workspace) (r : Recompiled α) : Except Misuse α × Workspace :=
  (r.result, { w with recompiler := r.state, deliveries := w.deliveries ++ r.deliveries })

/-- Takes over what a step of the inbox leads to. -/
def flushed (w : Workspace) (f : Flushed) : Except Misuse (Option MergeReport) × Workspace :=
  let report := match f.result with
    | .ok report => report
    | .error _ => none
  (f.result, { w with graph := f.graph, inbox := f.inbox, applied := w.applied ++ report.toList })

/-- Reports a possible change of the graph; tells whether a recompile was scheduled. -/
def notify (w : Workspace) (setup : WorkspaceSetup) : Bool × Workspace :=
  if w.recompiler.sees w.graph then (false, w)
  else
    (true, { w with
      recompiler := w.recompiler.notify w.graph
      compileAt := w.now + setup.compileDelay })

/-- Compiles every running preview now. -/
def compileAll (w : Workspace) (setup : WorkspaceSetup) : Except Misuse Nat × Workspace :=
  w.recompiled (w.recompiler.compileAll setup.compile w.graph)

/-- Forces a new document of a preview. -/
def reload (w : Workspace) (setup : WorkspaceSetup) (preview : NodeId) (token : Text) :
    Except Misuse Text × Workspace :=
  w.recompiled (w.recompiler.reload setup.compile w.graph preview token)

/-- Stops the timer of the recompiler. -/
def cancelCompile (w : Workspace) : Workspace :=
  { w with recompiler := w.recompiler.cancel }

/-- A snapshot arrives. -/
def push (w : Workspace) (setup : WorkspaceSetup) (payload : Value) : Workspace :=
  { w with inbox := w.inbox.push payload, snapshotAt := w.now + setup.snapshotDelay }

/-- Applies the latest snapshot now. -/
def flush (w : Workspace) : Except Misuse (Option MergeReport) × Workspace :=
  w.flushed (w.inbox.flush w.graph)

/-- Forgets the snapshot that waits. -/
def cancelInbox (w : Workspace) : Workspace :=
  { w with inbox := w.inbox.cancel }

/-- The timers of a workspace. -/
inductive Timer
  | compile
  | snapshot
deriving DecidableEq, Repr

/-- The timer that fires next, if one is due by a time. -/
def due? (w : Workspace) (time : Float) : Option Timer :=
  let compile := w.recompiler.isArmed && w.compileAt ≤ time
  let snapshot := w.inbox.isArmed && w.snapshotAt ≤ time
  if compile && snapshot then
    if w.compileAt ≤ w.snapshotAt then some .compile else some .snapshot
  else if compile then some .compile
  else if snapshot then some .snapshot
  else none

/-- A timer fires.  What fails then fails without a word. -/
def fire (w : Workspace) (setup : WorkspaceSetup) : Timer → Workspace
  | .compile => (w.recompiled (w.recompiler.fire setup.compile w.graph)).2
  | .snapshot => (w.flushed (w.inbox.fire w.graph)).2

/-- Fires what is due by a time.  No timer starts another one, so there are two at most. -/
def fireDue (w : Workspace) (setup : WorkspaceSetup) (time : Float) : Nat → Workspace
  | 0 => w
  | fuel + 1 =>
    match w.due? time with
    | some timer => fireDue (w.fire setup timer) setup time fuel
    | none => w

/-- Lets seconds pass. -/
def advance (w : Workspace) (setup : WorkspaceSetup) (seconds : Float) : Workspace :=
  -- timers see the clock at the end of the wait
  let time := w.now + seconds
  { w.fireDue setup time 2 with now := time }

/-- A call of the service as it was made. -/
structure Attempt where
  key : Text
  turn : Turn
  /-- The nodes that were loading, in the order of the graph. -/
  loading : List NodeId

/-- A workspace during a turn, with the answers that the service still has. -/
structure Talk where
  workspace : Workspace
  answers : List ServiceAnswer
  attempts : List Attempt := []

/-- Calls the service with a key and waits for its answer. -/
def attempt (setup : WorkspaceSetup) (limit : Float) (turn : Turn) (key : Text) (talk : Talk) :
    Outcome Reply × Talk :=
  if leavesTime limit then
    let answer := talk.answers.headD {}
    let w := talk.workspace
    let loading := (w.graph.nodes.filter (·.isLoading)).map (·.id)
    (answer.within limit,
      { workspace := w.advance setup (answer.waited limit)
        answers := talk.answers.tail
        attempts := talk.attempts ++ [⟨key, turn, loading⟩] })
  else (.timedOut, talk)

/-- How a turn went. -/
structure TurnResult where
  /-- Nothing when there was nothing to do. -/
  result : Except ServiceError (Option BatchReport)
  attempts : List Attempt := []
  highlighted : List NodeId := []
  workspace : Workspace

/-- Goes through with a turn that may have begun. -/
def turn (w : Workspace) (setup : WorkspaceSetup) (assistant : Assistant) (keys : List Text)
    (limit : Float) (answers : List ServiceAnswer) (begun : Option (Turn × Graph)) : TurnResult :=
  match begun with
  | none => { result := .ok none, workspace := w }
  | some (turn, g) =>
    let (answer, talk) := Failover.call limit (attempt setup limit turn) keys
      { workspace := { w with graph := g }, answers }
    -- timers may have fired while the service was asked
    let w := talk.workspace
    let ended := turn.finish assistant w.graph w.ids answer
    { result := ended.result.map some
      attempts := talk.attempts
      highlighted := match ended.result with
        | .ok report => turn.highlighted answer report
        | .error _ => []
      workspace := { w with graph := ended.graph, ids := ended.ids } }

end Workspace
end LiveCanvas
