import LiveCanvas.Journal.Level
import LiveCanvas.Settings.Environment

/-!
# The journal

The journal is one file below the working directory, named by the settings or else by the
environment.  Only entries at or above the level of the settings are written.
-/

namespace LiveCanvas
namespace Journal

/-- What is said at one moment, and by which part. -/
structure Entry where
  /-- The part that speaks; an empty name is that of the whole. -/
  part : Text := ""
  level : Level
  text : Text
deriving DecidableEq, Repr

/-- The first line of a text. -/
def firstLine (s : Text) : Text :=
  Text.ofList (s.toList.takeWhile fun c => c != '\n' && c != '\r')

/-- The line of an entry, without the time in front of it. -/
def Entry.line (e : Entry) : Text :=
  e.level.name ++ " nodecanvas" ++ (if e.part = "" then ("" : Text) else "." ++ e.part) ++ ": " ++
    firstLine e.text

/-- The path of the journal, if there is to be one. -/
def path? (settings : Settings.Journal) (env : Environment) : Except Misuse (Option Text) :=
  if settings.file.isTrue then
    match settings.file with
    | .text s => .ok (some s)
    | _ => .error .wrongKind
  else .ok (env.nonempty? "NODECANVAS_LOG")

/-- The name of a journal right in the working directory.  Anywhere else it cannot be opened; `~` is
the user's directory. -/
def nameHere? (path : Text) : Option Text :=
  if path.toList.takeWhile (· != .char '/') == [.char '~'] then none
  else match (DiskPath.ofText path).lexical? with
    | some [name] => some name
    | _ => none

/-- An entry can be written: it is important enough, and there are no halves in it. -/
def Entry.isWritten (threshold : Level) (e : Entry) : Bool :=
  threshold ≤ e.level && e.part.isEncodable && e.text.isEncodable

/-- The name of the journal and its lines, if there is a file to write to. -/
def write (settings : Settings.Journal) (env : Environment) (entries : List Entry) :
    Except Misuse (Option (Text × List Text)) := do
  -- a level that cannot be used is told before a path that cannot
  let threshold ← Level.threshold settings
  let path ← path? settings env
  let lines := (entries.filter (Entry.isWritten threshold)).map Entry.line
  return (path.bind nameHere?).map fun name => (name, lines)

example : nameHere? "./a.log" = some (.ofString "a.log") ∧ nameHere? "logs/a.log" = none := by
  decide +kernel

end Journal
end LiveCanvas
