import LiveCanvas.Number.Basic
import LiveCanvas.Text.Digit

/-!
# Reading numerals

A numeral is a run of digits with an optional fraction and an optional exponent.  It is read as the
nearest double.  Two kinds of text hold numerals: the loose one allows digits of every script, and
the field one is the form that a checked payload accepts.
-/

namespace LiveCanvas

namespace Numeral

/-- A run of digits as a number. -/
def natOfDigits (cs : List Rune) : Nat :=
  cs.foldl (fun n c => 10 * n + (c.toNat - 48)) 0

/-- The parts of a numeral without sign. -/
structure Parts where
  whole : List Rune
  fraction : List Rune
  exponent : Int
deriving DecidableEq, Repr

/-- The double nearest to `coefficient * 10 ^ scale`.  Beyond 310 digits before the point there are
only infinite doubles, and below 400 places after it only zero. -/
def nearest (coefficient : Nat) (scale : Int) : Float :=
  -- where the point stands among the digits; far outside, the digits no longer matter
  let size : Int := (Nat.toDigits 10 coefficient).length + scale
  if coefficient = 0 || size < -400 then 0
  else if 310 < size then 1 / 0
  else if scale < 0 then Float.ofScientific coefficient true scale.natAbs
  else Float.ofScientific coefficient false scale.natAbs

/-- The value of a numeral. -/
def Parts.value (p : Parts) : Float :=
  nearest (natOfDigits (p.whole ++ p.fraction)) (p.exponent - p.fraction.length)

/-- The exponent at the start of the text, and what follows it.  Without digits there is none. -/
def scanExponent (cs : List Rune) : Int × List Rune :=
  match cs with
  | [] => (0, [])
  | e :: rest =>
    if e != 'e' && e != 'E' then (0, cs)
    else
      let (negative, digits) := match rest with
        | .char '-' :: r => (true, r)
        | .char '+' :: r => (false, r)
        | r => (false, r)
      match digits.span Rune.isDigit with
      | ([], _) => (0, cs)
      | (ds, after) =>
        let size : Int := natOfDigits ds
        (if negative then -size else size, after)

/-- The fraction at the start of the text, and what follows it. -/
def scanFraction : List Rune → List Rune × List Rune
  | .char '.' :: rest => rest.span Rune.isDigit
  | cs => ([], cs)

/-- The whole text is a numeral; one digit before or after the point is enough. -/
def parts? (cs : List Rune) : Option Parts :=
  let (whole, afterWhole) := cs.span Rune.isDigit
  let (fraction, afterFraction) := scanFraction afterWhole
  let (exponent, rest) := scanExponent afterFraction
  if (whole.isEmpty && fraction.isEmpty) || !rest.isEmpty then none
  else some ⟨whole, fraction, exponent⟩

/-- The words for what has no digits, in small letters. -/
def word? (cs : List Rune) : Option Float :=
  let small := cs.map Rune.toLower
  if small == Text.toList "inf" || small == (Text.toList "infinity") then some (1 / 0)
  else if small == (Text.toList "nan") then some (0 / 0)
  else none

/-- A sign and what follows it. -/
def scanSign : List Rune → Bool × List Rune
  | .char '-' :: cs => (true, cs)
  | .char '+' :: cs => (false, cs)
  | cs => (false, cs)

/-- A numeral or a word, with an optional sign. -/
def signed? (cs : List Rune) : Option Float :=
  let (negative, size) := scanSign cs
  let value? := match word? size with
    | some x => some x
    | none => (parts? size).map Parts.value
  value?.map fun x => if negative then -x else x

/-- The text without its grouping marks; each mark stands between two digits. -/
def ungroup? (before : Option Rune) : List Rune → Option (List Rune)
  | [] => some []
  | .char '_' :: c :: rest =>
    if before.any Rune.isDigit && c.isDigit then (ungroup? (some c) rest).map (c :: ·) else none
  | c :: rest => if c == '_' then none else (ungroup? (some c) rest).map (c :: ·)

/-- The loose form: blanks around it, digits of every script, `_` between digits. -/
def loose? (s : Text) : Option Float :=
  let cs := s.toList
  let plain := if cs.all (·.toNat < 128) then cs else cs.map Text.numeralChar
  (ungroup? none (Text.stripWhile Text.isNumeralBlank plain)).bind signed?

/-- A blank that may surround a numeral in a payload field: the separator controls may not. -/
def isFieldBlank (c : Rune) : Bool :=
  Text.isBlank c && !(28 ≤ c.toNat && c.toNat ≤ 31)

/-- The text has `_` only singly and inside. -/
def groupsInside : List Rune → Bool
  | [] => true
  | [.char '_'] => false
  | .char '_' :: .char '_' :: _ => false
  | _ :: rest => groupsInside rest

/-- The field form: blanks around it, ASCII digits, and `_` singly inside the text. -/
def field? (s : Text) : Option Float :=
  let cs := s.toList
  match signed? (Text.stripWhile isFieldBlank cs) with
  | some x => some x
  | none =>
    if cs.contains '_' && cs.head? != some (.char '_') && groupsInside cs then
      signed? (Text.stripWhile isFieldBlank (cs.filter (· != .char '_')))
    else none

example : parts? (Text.toList "12.50e-3") = some ⟨['1', '2'], ['5', '0'], -3⟩ := by decide +kernel

example : parts? (Text.toList "1e") = none ∧ parts? (Text.toList ".") = none := by decide +kernel

example : ungroup? none (Text.toList "1_0") = some [.char '1', .char '0'] ∧
    ungroup? none (Text.toList "1__0") = none := by
  decide +kernel

end Numeral
end LiveCanvas
