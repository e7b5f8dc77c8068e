import LiveCanvas.Chat.PackageImport
import LiveCanvas.Collab.Presence
import LiveCanvas.Journal.Failure
import LiveCanvas.Main
import LiveCanvas.Preview.Telemetry
import LiveCanvas.Proofs.Canvas.History
import LiveCanvas.Proofs.Collab.Merge
import LiveCanvas.Workspace.Basic
import LiveCanvas.Proofs.Json.RoundTrip
import LiveCanvas.Proofs.Preview.Watched
import LiveCanvas.Proofs.Preview.Pass
import LiveCanvas.Proofs.Preview.Debounce
import LiveCanvas.Proofs.Canvas.Fresh
import LiveCanvas.Proofs.Canvas.Paths
import LiveCanvas.Proofs.Edit.InStep
import LiveCanvas.Proofs.Edit.Tidy
import LiveCanvas.Proofs.Canvas.Ports
import LiveCanvas.Proofs.Edit.Wiring
import LiveCanvas.Proofs.Edit.Target
import LiveCanvas.Proofs.Edit.Filing
import LiveCanvas.Proofs.Edit.Apart
import LiveCanvas.Proofs.Edit.Writing
import LiveCanvas.Proofs.Edit.LastWrite
import LiveCanvas.Proofs.Edit.ReadBack
import LiveCanvas.Proofs.Preview.Unwatched
import LiveCanvas.Proofs.Edit.Refused
import LiveCanvas.Proofs.Edit.Scope
import LiveCanvas.Proofs.Edit.FolderEdges
import LiveCanvas.Proofs.Edit.Locked
import LiveCanvas.Proofs.Edit.LiesIn
import LiveCanvas.Proofs.Edit.Placement
import LiveCanvas.Proofs.Collab.InPlace
import LiveCanvas.Proofs.Collab.Refusals
import LiveCanvas.Proofs.Collab.Coalesce
import LiveCanvas.Proofs.Collab.Export
import LiveCanvas.Proofs.Collab.Dropped
import LiveCanvas.Proofs.Collab.Arrivals
import LiveCanvas.Proofs.Canvas.Closure
import LiveCanvas.Proofs.Preview.Table
import LiveCanvas.Proofs.Preview.Delivery
import LiveCanvas.Preview.Gather
import LiveCanvas.Proofs.Preview.Isolation
import LiveCanvas.Proofs.Canvas.Typed
import LiveCanvas.Proofs.Edit.Typed
import LiveCanvas.Proofs.Edit.Reachable
import LiveCanvas.Proofs.Edit.Listed
import LiveCanvas.Proofs.Chat.Loading
import LiveCanvas.Proofs.Chat.Conversation
import LiveCanvas.Proofs.Chat.Failover
import LiveCanvas.Proofs.Chat.FailedTurn
import LiveCanvas.Proofs.Chat.PackageImport
import LiveCanvas.Proofs.Chat.Writes
import LiveCanvas.Proofs.Canvas.DepthFirst
import LiveCanvas.Proofs.Collab.Idempotence
import LiveCanvas.Proofs.Canvas.Removal
import LiveCanvas.Proofs.Chat.Repair
import LiveCanvas.Proofs.Canvas.BreadthFirst
import LiveCanvas.Proofs.Edit.Leaving
import LiveCanvas.Proofs.Edit.Moving
import LiveCanvas.Proofs.CommandLine.ExitCode
import LiveCanvas.Proofs.Preview.Mentions
import LiveCanvas.Proofs.Preview.ImportLines
import LiveCanvas.Proofs.Preview.BoundNames
import LiveCanvas.Proofs.Preview.Specifiers
import LiveCanvas.Proofs.Edit.Overwriting
import LiveCanvas.Proofs.Collab.Holders
import LiveCanvas.Proofs.Canvas.FileFaults
import LiveCanvas.Proofs.Settings.Unset
import LiveCanvas.Proofs.Digest.Base64
import LiveCanvas.Proofs.Preview.ScriptJson
import LiveCanvas.Proofs.Preview.Embedded
import LiveCanvas.Proofs.Preview.Noticed
import LiveCanvas.Proofs.Preview.ScriptTags
import LiveCanvas.Proofs.Canvas.OwnPorts
import LiveCanvas.Proofs.Preview.Spellings
import LiveCanvas.Proofs.Chat.Fences
