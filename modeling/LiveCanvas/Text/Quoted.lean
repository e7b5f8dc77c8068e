import LiveCanvas.Text.Printable

/-!
# Quoted text

A text shown to a reader stands between quotes: single ones, unless it holds a single quote and no
double one.  Printable characters stand as they are; the backslash, the chosen quote and every
other character are written as an escape.
-/

namespace LiveCanvas
namespace Text

/-- The quote that a text is shown in. -/
def quoteFor (cs : List Rune) : Rune :=
  if cs.contains '\'' && !cs.contains '"' then '"' else '\''

/-- A number in small hexadecimal digits, padded with zeros to a width. -/
def hexPadded (width n : Nat) : List Rune :=
  let digits := Nat.toDigits 16 n
  (List.replicate (width - digits.length) '0' ++ digits).map .char

/-- One character between quotes. -/
def quotedChar (quote c : Rune) : List Rune :=
  if c == quote || c == '\\' then ['\\', c]
  else if c == '\n' then ['\\', 'n']
  else if c == '\r' then ['\\', 'r']
  else if c == '\t' then ['\\', 't']
  else if isPrintable c then [c]
  else if c.toNat < 0x100 then .char '\\' :: .char 'x' :: hexPadded 2 c.toNat
  else if c.toNat < 0x10000 then .char '\\' :: .char 'u' :: hexPadded 4 c.toNat
  else .char '\\' :: .char 'U' :: hexPadded 8 c.toNat

/-- The text between quotes. -/
def quoted (s : Text) : Text :=
  let cs := s.toList
  let quote := quoteFor cs
  Text.ofList (quote :: (cs.flatMap (quotedChar quote) ++ [quote]))

example : quoted "it's" = "\"it's\"" ∧ quoted "a\nb" = "'a\\nb'" ∧
    quoted "\u200b" = "'\\u200b'" := by
  decide +kernel

end Text
end LiveCanvas
