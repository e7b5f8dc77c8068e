import LiveCanvas.Canvas.GraphFile
import LiveCanvas.CommandLine.Invocation
import LiveCanvas.Collab.Reconcile
import LiveCanvas.Journal.Basic
import LiveCanvas.Settings.Load

/-!
# Carrying out a command line

A run reads the disk and ends with an exit code, texts for the two outputs, and the files it
writes.  A fault in the data or on the disk is told to the reader; what goes wrong without a
description ends the run as a failure.
-/

namespace LiveCanvas
namespace CommandLine

/-- How a run ends. -/
structure Ending where
  exitCode : Nat
  output : Text := ""
  complaint : Text := ""
  written : List (DiskPath × Text) := []
deriving DecidableEq, Repr

/-- Why a run breaks off without telling the reader. -/
inductive Failure
  | settings (fault : Settings.LoadFault)
  | misuse (cause : Misuse)
deriving DecidableEq, Repr

/-- Why a job is not done. -/
inductive JobFault
  | disk (fault : DiskFault) (path : DiskPath)
  | data (error : LoadError)
  | misuse (cause : Misuse)
  /-- A batch is not a list. -/
  | notABatch

/-- What a run is given beside the disk. -/
structure RunSetting where
  env : Environment
  /-- The text that a reader sees on asking for help. -/
  usage : Text
  /-- The mark of a forced reload. -/
  reload : Text
  ids : IdSource := {}

/-- Sources cannot be compiled here, so a script that needs it is refused. -/
def transformOf : TransformChoice → Transform
  | .unchanged => .unchanged
  | .presets _ => fun _ _ => .error (.refused "no script compiler")

/-- The text of a file. -/
def readFile (disk : Disk) (p : DiskPath) : Except JobFault Text :=
  (disk.read p).mapError fun fault => .disk fault p

/-- A data fault as the reason why a job is not done. -/
def ofData {α : Type} (r : Except LoadError α) : Except JobFault α :=
  r.mapError fun
    | .misuse cause => .misuse cause
    | e => .data e

/-- The graph of a file. -/
def readGraph (disk : Disk) (p : DiskPath) : Except JobFault Graph := do
  let text ← readFile disk p
  ofData (GraphFile.load p.text text)

/-- The value of a file. -/
def readValue (disk : Disk) (p : DiskPath) : Except JobFault Value := do
  let text ← readFile disk p
  ofData (GraphFile.readValue p.text text)

/-- A text for a file that can be written. -/
def writeFile (disk : Disk) (p : DiskPath) (text : Text) : Except JobFault (DiskPath × Text) :=
  match disk.writeFault? p with
  | some fault => .error (.disk fault p)
  | none => .ok (p, text)

/-- The graph as a file, if it is to be written. -/
def saved (disk : Disk) (write : Bool) (p : DiskPath) (g : Graph) :
    Except JobFault (List (DiskPath × Text)) :=
  if write then (writeFile disk p (GraphFile.save g)).map fun file => [file] else .ok []

/-- The calls of a batch file: a list, or what an object holds as `calls`. -/
def callsOf : Value → Except JobFault (List Value)
  | .list calls => .ok calls
  | .object fields =>
    match Fields.get? fields "calls" with
    | some (.list calls) => .ok calls
    | none => .ok []
    | some _ => .error .notABatch
  | _ => .error .notABatch

/-- A job that stops, and what was put out before. -/
structure Stopped where
  fault : JobFault
  output : Text := ""
  complaint : Text := ""

/-- The text as it is put out; a text with halves cannot be. -/
def putOut (text : Text) : Except Stopped Text :=
  if text.isEncodable then .ok text else .error { fault := .misuse .unencodable }

/-- The text as it is put out to complain, with a number for each half in it. -/
def spelledOut (text : Text) : Text :=
  .ofList (text.toList.flatMap fun
    | .char c => [.char c]
    | .half number => .char '\\' :: .char 'u' :: Text.hexPadded 4 (0xd800 + number))

/-- A step before which nothing was put out. -/
def atFirst {α : Type} (r : Except JobFault α) : Except Stopped α :=
  r.mapError fun fault => { fault }

/-- Does a job. -/
def Job.run (disk : Disk) (settings : Settings) (setting : RunSetting) :
    Job → Except Stopped Ending
  | .compile graph preview force output => do
    let g ← atFirst (readGraph disk graph)
    let transform := transformOf settings.documents.transformChoice
    let document ← atFirst ((settings.documents.compiler transform g.nodes g.connections preview
      (if force then some setting.reload else none)).mapError JobFault.misuse)
    -- scripts that failed do not make the job fail
    let complaint := spelledOut (Text.join (document.failures.map (· ++ "\n")))
    match output with
    | some path =>
      let page := Text.ofString document.html.replaced
      let file ← (writeFile disk path page).mapError fun fault => { fault, complaint }
      return { exitCode := 0, complaint, written := [file] }
    | none => return { exitCode := 0, output := ← putOut document.html, complaint }
  | .apply graph batch anchor identity write => do
    let g ← atFirst (readGraph disk graph)
    let calls ← atFirst ((readValue disk batch).bind callsOf)
    let b := runBatch ⟨anchor, fun g => g.permits identity, settings.placement⟩ g setting.ids calls
    let output ← putOut (b.report.transcript ++ "\n")
    let written ← (saved disk write graph b.graph).mapError fun fault => { fault, output }
    return { exitCode := if b.report.errors.isEmpty then 0 else 1, output, written }
  | .reconcile graph snapshot write => do
    let g ← atFirst (readGraph disk graph)
    let payload ← atFirst (readValue disk snapshot)
    let (g, report) ← atFirst (ofData (g.reconcile payload))
    let count (ids : List NodeId) := Text.ofChars (Nat.toDigits 10 ids.length)
    let output := "added: " ++ count report.added ++ ", dropped: " ++ count report.dropped ++ "\n"
    let written ← (saved disk write graph g).mapError fun fault => { fault, output }
    return { exitCode := 0, output, written }

/-- What a reader is told about a job that is not done, if there is something to tell. -/
def JobFault.message : JobFault → Except Misuse Text
  | disk fault path => .ok ("Error: " ++ fault.message path)
  | data e => .ok ("Error: " ++ e.message)
  | notABatch => .ok "Batch must be a JSON list of tool calls"
  | misuse cause => .error cause

/-- How a job that stops ends the run. -/
def Stopped.ending (s : Stopped) : Except Failure Ending := do
  let message ← s.fault.message.mapError Failure.misuse
  return {
    exitCode := 1, output := s.output
    complaint := s.complaint ++ spelledOut message ++ "\n" }

/-- What the journal is told by the command line. -/
def journalOf (settings : Settings.Journal) (verbosity : Nat) : Settings.Journal :=
  if verbosity = 0 then settings else { settings with verbose := .int (min 4 (1 + verbosity)) }

/-- Carries out what a command line asks for.  Nothing is done for a job when the settings, or the
part of them that is about the journal, cannot be used. -/
def Invocation.run (disk : Disk) (setting : RunSetting) (i : Invocation) : Except Failure Ending :=
  match i.job with
  | none => .ok { exitCode := 1, output := setting.usage }
  | some job => do
    let root := i.project.getD (.ofText ".")
    let settings ← (Settings.load disk setting.env (some root)).mapError Failure.settings
    let journal := journalOf settings.journal i.verbosity
    let _ ← (Journal.write journal setting.env []).mapError Failure.misuse
    match job.run disk settings setting with
    | .ok ending => return ending
    | .error stopped => stopped.ending

/-- Carries out the words of a command line. -/
def run (disk : Disk) (setting : RunSetting) (words : List Text) : Except Failure Ending :=
  match Invocation.ofWords words with
  | .ok i => i.run disk setting
  | .error .help => .ok { exitCode := 0, output := setting.usage }
  | .error .usage => .ok { exitCode := 2, complaint := setting.usage }

end CommandLine
end LiveCanvas
