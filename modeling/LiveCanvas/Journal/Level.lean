import LiveCanvas.Settings.Schema

/-!
# Levels of the journal

A level is a number; eight of them have names.  The settings choose the level from which on lines
are written, by a count of verbosity or by a name.
-/

namespace LiveCanvas
namespace Journal

/-- How grave a line is. -/
abbrev Level := Int

namespace Level

/-- The levels with a name. -/
def named : List (Text × Level) :=
  [("TRACE", 5), ("DEBUG", 10), ("VERBOSE", 15), ("INFO", 20), ("WARNING", 30), ("ERROR", 40),
    ("CRITICAL", 50)]

/-- The name of a level in small letters. -/
def name (level : Level) : Text :=
  match named.find? fun entry => entry.2 == level with
  | some entry => Text.ofList (entry.1.toList.map Rune.toLower)
  | none => "level " ++ Text.ofChars (Number.ofInt level)

/-- The level of a line that nothing says more about. -/
def info : Level := 20

/-- The capital of a letter, for the letters whose capital is an ASCII one. -/
def capital (c : Rune) : Rune :=
  if c == 'ı' then 'I' else if c == 'ſ' then 'S' else c.toUpper

/-- The level of a name; case does not matter, and a name that is none counts as information. -/
def ofName (name : Text) : Level :=
  let given := Text.ofList (name.toList.map capital)
  if given = "WARN" then 30
  else match named.find? fun entry => entry.1 == given with
    | some entry => entry.2
    | none => info

/-- The level of a verbosity: errors only at zero, everything from four on and for any number that
is no count. -/
def ofVerbosity (n : Number) : Level :=
  let is (k : Int) : Bool := match n with
    | .whole m => m == k
    | .real x => x == Float.ofInt k
  if is 0 then 40 else if is 1 then 30 else if is 2 then 20 else if is 3 then 15 else 5

/-- The level that a verbosity of any kind asks for. -/
def ofVerbose : Value → Except Misuse Level
  | .number n => .ok (ofVerbosity n)
  | .bool b => .ok (ofVerbosity (.whole (if b then 1 else 0)))
  | .null | .text _ => .ok 5
  | .list _ | .object _ => .error .wrongKind

/-- The level from which on lines are written: the verbosity, or else the name. -/
def threshold (settings : Settings.Journal) : Except Misuse Level :=
  match settings.verbose, settings.level with
  | .null, .text s => .ok (if s = "" then info else ofName s)
  | .null, level => if level.isTrue then .error .noFields else .ok info
  | verbose, _ => ofVerbose verbose

example : ofName "Warn" = 30 ∧ ofName "verbose" = 15 ∧ ofName "fatal" = 20 ∧
    name 25 = "level 25" := by
  decide +kernel

end Level
end Journal
end LiveCanvas
