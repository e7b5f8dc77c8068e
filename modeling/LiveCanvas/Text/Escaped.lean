import LiveCanvas.Text.Basic

/-!
# Text inside markup

The five characters that markup gives a meaning are written as references, so that a text can stand
between tags and inside a quoted attribute.
-/

namespace LiveCanvas
namespace Text

/-- One character inside markup. -/
def markupChar : Rune → List Rune
  | .char '&' => (Text.toList "&amp;")
  | .char '<' => (Text.toList "&lt;")
  | .char '>' => (Text.toList "&gt;")
  | .char '"' => (Text.toList "&quot;")
  | .char '\'' => (Text.toList "&#x27;")
  | c => [c]

/-- The text inside markup. -/
def markup (s : Text) : Text :=
  Text.ofList (s.toList.flatMap markupChar)

example : markup "<a b='c'>" = "&lt;a b=&#x27;c&#x27;&gt;" := by decide +kernel

end Text
end LiveCanvas
