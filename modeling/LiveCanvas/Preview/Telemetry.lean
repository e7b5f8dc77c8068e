import LiveCanvas.Canvas.Graph
import LiveCanvas.Canvas.Traversal
import LiveCanvas.Payload.Checked
import LiveCanvas.Preview.Document

/-!
# Telemetry of previews

A running page posts a message for each console line and each uncaught error.  A message is kept as
a console line of its preview; whatever else is posted is dropped without a word.  A terminal shows
the lines of the preview wired into it.
-/

namespace LiveCanvas

/-- A message posted by a page. -/
structure TelemetryMessage where
  node : NodeId
  channel : LogChannel
  text : Text
  timestamp : Float

namespace TelemetryMessage

/-- The mark that a message must carry. -/
def checkSource (name : Text) : Option Text :=
  if name = Document.messageSource then some name else none

/-- A message from a payload. -/
def ofValue (v : Value) : Checked TelemetryMessage :=
  match v with
  | .object fields =>
    (fun _ node channel text timestamp => ⟨node, channel, text, timestamp⟩)
      <$> Checked.optional ["source"] Document.messageSource (Checked.choice checkSource) fields
      <*> Checked.required ["nodeId", "node_id"] Checked.text fields
      <*> Checked.required ["channel"] (Checked.choice LogChannel.ofWire?) fields
      <*> Checked.required ["text"] Checked.text fields
      <*> Checked.required ["timestamp"] Checked.real fields
  | _ => Checked.misfit

/-- The console line of a message. -/
def toEntry (m : TelemetryMessage) : LogEntry :=
  ⟨m.channel, m.text, .real m.timestamp⟩

end TelemetryMessage

namespace Graph

/-- The message that a payload brings for a preview of the graph. -/
def telemetry? (g : Graph) (payload : Value) : Option TelemetryMessage :=
  match payload with
  | .object fields =>
    if (Value.field fields "source").isText Document.messageSource then
      (TelemetryMessage.ofValue payload).toOption.filter fun m =>
        (g.node? m.node).any fun n => n.kind == .preview
    else none
  | _ => none

/-- Keeps the console line that a payload brings, if it brings one. -/
def recordTelemetry (g : Graph) (payload : Value) : Graph :=
  match g.telemetry? payload with
  | some m => g.addLog m.node m.toEntry
  | none => g

/-- The console lines that a terminal shows. -/
def terminalLog (g : Graph) (terminal : NodeId) : List LogEntry :=
  match Traversal.singleSource terminal Role.source g.nodes g.connections with
  | some preview => (g.logs.get? preview.id).getD []
  | none => []

end Graph
end LiveCanvas
