import LiveCanvas.Text.Basic

/-!
# Blank characters and trimming

A blank is a space of any script, a line or page end, or one of the four separator controls.
Trimming removes a class of characters from the ends of a text and never from its middle.
-/

namespace LiveCanvas
namespace Text

/-- A space, tab, line end or separator of any script. -/
def isBlank (c : Rune) : Bool :=
  let n := c.toNat
  (9 ≤ n && n ≤ 13) || (28 ≤ n && n ≤ 32) || n == 0x85 || n == 0xa0 || n == 0x1680 ||
    (0x2000 ≤ n && n ≤ 0x200a) || n == 0x2028 || n == 0x2029 || n == 0x202f || n == 0x205f ||
    n == 0x3000

/-- The characters without the last ones that satisfy `p`. -/
def dropEndWhile (p : Rune → Bool) (cs : List Rune) : List Rune :=
  (cs.reverse.dropWhile p).reverse

/-- The characters without those at either end that satisfy `p`. -/
def stripWhile (p : Rune → Bool) (cs : List Rune) : List Rune :=
  dropEndWhile p (cs.dropWhile p)

/-- The text without blanks at either end. -/
def trim (s : Text) : Text :=
  Text.ofList (stripWhile isBlank s.toList)

theorem dropEndWhile_append_of_all {p : Rune → Bool} {cs tail : List Rune}
    (h : ∀ c ∈ tail, p c = true) : dropEndWhile p (cs ++ tail) = dropEndWhile p cs := by
  simp only [dropEndWhile, List.reverse_append]
  congr 1
  rw [List.dropWhile_append_of_pos]
  simpa using h

example : trim "\t a b \n" = "a b" := by decide +kernel

end Text
end LiveCanvas
