import LiveCanvas.Text.Quoted
import LiveCanvas.Value.Basic

/-!
# Values shown to a reader

The form in which messages show a value, and the text that a value becomes where a text is wanted:
the same, except that a text is itself.
-/

namespace LiveCanvas
namespace Value

mutual

/-- The value as messages show it. -/
def shown : Value → Text
  | null => "None"
  | bool b => if b then "True" else "False"
  | number n => n.text Number.shownWords
  | text s => Text.quoted s
  | list items => "[" ++ Text.intercalate ", " (shownItems items) ++ "]"
  | object fields => "\x7b" ++ Text.intercalate ", " (shownFields fields) ++ "\x7d"

/-- Each item as messages show it. -/
def shownItems : List Value → List Text
  | [] => []
  | v :: rest => shown v :: shownItems rest

/-- Each field as messages show it. -/
def shownFields : List (Text × Value) → List Text
  | [] => []
  | (name, v) :: rest => (Text.quoted name ++ ": " ++ shown v) :: shownFields rest

end

/-- The text that a value becomes. -/
def asText : Value → Text
  | text s => s
  | v => v.shown

example : shown (object [("a", list [int 1, text "x", bool true])]) =
    "\x7b'a': [1, 'x', True]\x7d" := by
  decide +kernel

end Value
end LiveCanvas
