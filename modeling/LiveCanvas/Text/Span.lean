import LiveCanvas.Text.Basic

/-!
# Spans of characters

A class of characters is given as a list of spans, first and last code point of each.
-/

namespace LiveCanvas
namespace Text

/-- The character lies in one of the spans, ends included. -/
def inSpans (spans : List (Nat × Nat)) (c : Rune) : Bool :=
  spans.any fun span => span.1 ≤ c.toNat && c.toNat ≤ span.2

end Text
end LiveCanvas
