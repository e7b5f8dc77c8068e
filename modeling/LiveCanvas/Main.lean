import LiveCanvas.CommandLine.Run

/-!
# The program

Reads the files that a command line needs, carries it out, and writes what it leads to.
-/

namespace LiveCanvas
namespace CommandLine

/-- The text that a reader sees on asking for help. -/
def usageText : Text :=
  Text.unlines [
    "usage: nodecanvas [-h] [-v] [--project PROJECT] command ...",
    "",
    "Compile, edit and merge node canvas graphs",
    "",
    "  -v, --verbose       write more to the journal (can be repeated)",
    "  --project PROJECT   directory of .nodecanvas/config.yaml (default: here)",
    "",
    "  compile graph --preview PREVIEW [--force] [-o OUTPUT]",
    "  apply graph batch [--anchor ANCHOR] [--identity IDENTITY] [--write]",
    "  reconcile graph snapshot [--write]",
    ""]

/-- The names of the environment that count. -/
def environmentNames : List String :=
  ["HOME", "XDG_CONFIG_HOME", "NODECANVAS_LOG", "NODECANVAS_MODEL"]

/-- The part of the environment that counts. -/
def readEnvironment : IO Environment := do
  let found ← environmentNames.mapM fun name => do
    return (← IO.getEnv name).map fun value => (Text.ofString name, Text.ofString value)
  return found.filterMap id

/-- The text of a file, or why there is none. -/
def readDiskFile (p : DiskPath) : IO (Except DiskFault Text) := do
  match ← (IO.FS.readFile p.text.replaced).toBaseIO with
  | .ok text => return .ok (.ofString text)
  | .error (.noFileOrDirectory ..) => return .error .missing
  | .error (.inappropriateType ..) => return .error .isDirectory
  | .error _ => return .error .missing

/-- The disk as far as these files go. -/
def readDisk (paths : List DiskPath) : IO Disk := do
  let found ← paths.mapM fun p => do return (p, ← readDiskFile p)
  return {
    read := fun p => ((found.find? fun entry => entry.1 = p).map (·.2)).getD (.error .missing)
    writeFault? := fun _ => none }

/-- The files that a command line may read. -/
def neededFiles (env : Environment) (words : List Text) : List DiskPath :=
  match Invocation.ofWords words with
  | .ok i =>
    Settings.filesFor env (some (i.project.getD (.ofText "."))) ++
      (i.job.map Job.inputs).getD []
  | .error _ => []

end CommandLine
end LiveCanvas

open LiveCanvas CommandLine in
/-- Carries out a command line. -/
def main (words : List String) : IO UInt32 := do
  let words := words.map Text.ofString
  let env ← readEnvironment
  let disk ← readDisk (neededFiles env words)
  let reload := Text.ofChars (Nat.toDigits 10 (← IO.monoMsNow))
  let ids : IdSource := ⟨← IO.rand 1 999999999999⟩
  match run disk { env, usage := usageText, reload, ids } words with
  | .ok ending =>
    (← IO.getStdout).putStr ending.output.replaced
    (← IO.getStderr).putStr ending.complaint.replaced
    -- files come last: the run has told everything by then
    for (path, text) in ending.written do
      IO.FS.writeFile path.text.replaced text.replaced
    return ending.exitCode.toUInt32
  | .error _ =>
    (← IO.getStderr).putStr "Error: the settings or the data cannot be used\n"
    return 1
