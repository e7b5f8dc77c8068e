import LiveCanvas.CommandLine.Switch
import LiveCanvas.Disk.Path

/-!
# What a command line asks for

There are three jobs on a graph file: to compile a preview, to apply a batch of tool calls, and to
take over a snapshot.  Switches before the job say how much to write to the journal and where the
project is.
-/

namespace LiveCanvas
namespace CommandLine

/-- A job on a graph file. -/
inductive Job
  /-- Compile a preview, to a file or to the output. -/
  | compile (graph : DiskPath) (preview : Text) (force : Bool) (output : Option DiskPath)
  /-- Apply the tool calls of a file. -/
  | apply (graph batch : DiskPath) (anchor identity : Option Text) (write : Bool)
  /-- Take over the snapshot of a file. -/
  | reconcile (graph snapshot : DiskPath) (write : Bool)
deriving DecidableEq, Repr

namespace Job

/-- The job with a name and its words. -/
def ofWords (name : Text) (words : List Text) : Except Halt Job := do
  if name = "compile" then
    let r ← readWords
      [⟨["--preview"], true⟩, ⟨["--force"], false⟩, ⟨["-o", "--output"], true⟩] 1 words
    match r.places, r.value? "--preview" with
    | [graph], some preview =>
      return .compile (.ofText graph) preview (r.has "--force")
        ((r.value? "--output").map DiskPath.ofText)
    | _, _ => throw .usage
  else if name = "apply" then
    let r ← readWords [⟨["--anchor"], true⟩, ⟨["--identity"], true⟩, ⟨["--write"], false⟩] 2 words
    match r.places with
    | [graph, batch] =>
      return .apply (.ofText graph) (.ofText batch) (r.value? "--anchor") (r.value? "--identity")
        (r.has "--write")
    | _ => throw .usage
  else if name = "reconcile" then
    let r ← readWords [⟨["--write"], false⟩] 2 words
    match r.places with
    | [graph, snapshot] => return .reconcile (.ofText graph) (.ofText snapshot) (r.has "--write")
    | _ => throw .usage
  else throw .usage

/-- The files that a job reads. -/
def inputs : Job → List DiskPath
  | compile graph _ _ _ => [graph]
  | apply graph batch _ _ _ => [graph, batch]
  | reconcile graph snapshot _ => [graph, snapshot]

end Job

/-- What a command line asks for; without a job only the usage is shown. -/
structure Invocation where
  /-- How often more of the journal was asked for. -/
  verbosity : Nat
  project : Option DiskPath
  job : Option Job
deriving DecidableEq, Repr

namespace Invocation

/-- The words of a command line. -/
def ofWords (words : List Text) : Except Halt Invocation := do
  let (r, rest) ← splitWords [⟨["-v", "--verbose"], false⟩, ⟨["--project"], true⟩] words
  let job ← match rest with
    | name :: words => some <$> Job.ofWords name words
    | [] => pure none
  if r.hasStrays then throw .usage
  return { verbosity := r.count "--verbose"
           project := (r.value? "--project").map DiskPath.ofText, job }

example : (ofWords ["-vv", "compile", "g.json", "--pre", "p"]).toOption =
    some ⟨2, none, some (.compile (.ofText "g.json") "p" false none)⟩ := by
  decide +kernel

example : (ofWords ["apply", "g.json", "--write"]).toOption = none := by decide +kernel

end Invocation
end CommandLine
end LiveCanvas
