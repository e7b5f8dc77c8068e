import LiveCanvas.Text.Quoted
import LiveCanvas.Value.Basic

/-!
# Writing JSON

Values as JSON text of ASCII characters only: on one line with a choice of gaps, or with one field
or item a line and two blanks for each level.
-/

namespace LiveCanvas
namespace Json

/-- A code unit of sixteen bits as an escape. -/
def unitEscape (n : Nat) : List Rune :=
  .char '\\' :: .char 'u' :: Text.hexPadded 4 n

/-- One character inside a JSON text.  A character beyond the first plane becomes two units. -/
def escapedChar (c : Rune) : List Rune :=
  if c == '"' then ['\\', '"']
  else if c == '\\' then ['\\', '\\']
  else if c == '\n' then ['\\', 'n']
  else if c == '\r' then ['\\', 'r']
  else if c == '\t' then ['\\', 't']
  else if c == '\x08' then ['\\', 'b']
  else if c == '\x0c' then ['\\', 'f']
  else if 0x20 ≤ c.toNat && c.toNat ≤ 0x7e then [c]
  else if c.toNat < 0x10000 then unitEscape c.toNat
  else
    let n := c.toNat - 0x10000
    unitEscape (0xd800 + n / 0x400) ++ unitEscape (0xdc00 + n % 0x400)

/-- A text between double quotes. -/
def quoted (s : Text) : Text :=
  Text.ofList (.char '"' :: (s.toList.flatMap escapedChar ++ [.char '"']))

/-- The gaps of a JSON text on one line, and how its numbers look. -/
structure Layout where
  afterItem : Text
  afterName : Text
  number : Number → Text

/-- No blanks at all. -/
def tight : Layout := ⟨",", ":", Number.text Number.jsonWords⟩

/-- A blank after each comma and each colon. -/
def spaced : Layout := ⟨", ", ": ", Number.text Number.jsonWords⟩

mutual

/-- The value on one line. -/
def write (layout : Layout) : Value → Text
  | .null => "null"
  | .bool b => if b then "true" else "false"
  | .number n => layout.number n
  | .text s => quoted s
  | .list items => "[" ++ layout.afterItem.intercalate (writeItems layout items) ++ "]"
  | .object fields =>
    "\x7b" ++ layout.afterItem.intercalate (writeFields layout fields) ++ "\x7d"

/-- Each item on one line. -/
def writeItems (layout : Layout) : List Value → List Text
  | [] => []
  | v :: rest => write layout v :: writeItems layout rest

/-- Each field on one line. -/
def writeFields (layout : Layout) : List (Text × Value) → List Text
  | [] => []
  | (name, v) :: rest =>
    (quoted name ++ layout.afterName ++ write layout v) :: writeFields layout rest

end

/-- The start of a line at a level. -/
def margin (level : Nat) : Text :=
  Text.ofList (.char '\n' :: List.replicate (2 * level) ' ')

/-- Parts between brackets, each on a line of its own; nothing between the brackets if there are
no parts. -/
def block (opening closing : Text) (level : Nat) (parts : List Text) : Text :=
  if parts.isEmpty then opening ++ closing
  else
    opening ++ margin (level + 1) ++ ("," ++ margin (level + 1)).intercalate parts ++
      margin level ++ closing

mutual

/-- The value over several lines, its first line at a level. -/
def writeLines (level : Nat) : Value → Text
  | .null => "null"
  | .bool b => if b then "true" else "false"
  | .number n => n.text Number.jsonWords
  | .text s => quoted s
  | .list items => block "[" "]" level (writeItemLines level items)
  | .object fields => block "\x7b" "\x7d" level (writeFieldLines level fields)

/-- Each item over several lines. -/
def writeItemLines (level : Nat) : List Value → List Text
  | [] => []
  | v :: rest => writeLines (level + 1) v :: writeItemLines level rest

/-- Each field over several lines. -/
def writeFieldLines (level : Nat) : List (Text × Value) → List Text
  | [] => []
  | (name, v) :: rest =>
    (quoted name ++ ": " ++ writeLines (level + 1) v) :: writeFieldLines level rest

end

example : quoted "é😀\x7f\n" = "\"\\u00e9\\ud83d\\ude00\\u007f\\n\"" := by decide +kernel

example : write spaced (.object [("a", .list [.int 1, .null])]) = "\x7b\"a\": [1, null]\x7d" := by
  decide +kernel

end Json
end LiveCanvas
