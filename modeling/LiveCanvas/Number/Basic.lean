import LiveCanvas.Number.Shortest
import LiveCanvas.Text.Basic

/-!
# Numbers

A number is whole, of any length, or a double.  The two are kept apart because a text shows which
of them it was: `450` and `450.0` are the same size of a node and different texts of a file.
-/

namespace LiveCanvas

/-- A whole number or a double. -/
inductive Number
  | whole (value : Int)
  | real (value : Float)

namespace Number

/-- The digits of a whole number, with a sign when it is negative. -/
def ofInt (n : Int) : List Char :=
  if n < 0 then '-' :: Nat.toDigits 10 n.natAbs else Nat.toDigits 10 n.natAbs

/-- The words for what has no digits. -/
structure Words where
  nan : Text
  infinity : Text
  negInfinity : Text

/-- A finite size by its digits: positional while the point stands at most sixteen places to the
right and fewer than four to the left, then with an exponent of at least two digits. -/
def sizeText (d : Decimal) : List Char :=
  let digits := d.digits
  let point := d.point
  if -4 < point && point ≤ 16 then
    -- positional, with zeros up to the point where the digits do not reach it
    if point ≤ 0 then '0' :: '.' :: (List.replicate (-point).toNat '0' ++ digits)
    else
      let before := digits.take point.toNat
      let after := digits.drop point.toNat
      let padded := before ++ List.replicate (point.toNat - digits.length) '0'
      padded ++ '.' :: (if after.isEmpty then ['0'] else after)
  else
    -- one digit before the point
    let exponent := point - 1
    let size := Nat.toDigits 10 exponent.natAbs
    let mantissa := match digits with
      | [] => []
      | [d] => [d]
      | d :: rest => d :: '.' :: rest
    mantissa ++ 'e' :: (if exponent < 0 then '-' else '+') ::
      (if size.length < 2 then '0' :: size else size)

/-- The text of a double: the fewest digits that read back, always with a point or an exponent. -/
def realText (words : Words) (x : Float) : Text :=
  if x.isNaN then words.nan
  else if x.isInf then (if isNegative x then words.negInfinity else words.infinity)
  else
    let b := Binary.ofFloat x
    let size := if b.mantissa = 0 then ['0', '.', '0'] else sizeText b.shortest
    Text.ofChars (if isNegative x then '-' :: size else size)

/-- The text of a number. -/
def text (words : Words) : Number → Text
  | whole n => Text.ofChars (ofInt n)
  | real x => realText words x

/-- The words of a value shown to a reader. -/
def shownWords : Words := ⟨"nan", "inf", "-inf"⟩

/-- The words of a JSON text. -/
def jsonWords : Words := ⟨"NaN", "Infinity", "-Infinity"⟩

/-- The largest double is below `2 ^ 1024`; a whole number that would round to it or beyond has no
double. -/
def toReal? : Number → Option Float
  | whole n =>
    let x := Float.ofInt n
    if x.isInf then none else some x
  | real x => some x

/-- Neither zero. -/
def isNonzero : Number → Bool
  | whole n => n != 0
  | real x => x != 0

/-- The double rounded to a whole number, as text without a point; a half goes to the even
neighbour. -/
def roundedText (x : Float) : Text :=
  if x.isFinite then
    let size := Nat.toDigits 10 (Binary.ofFloat x).round
    Text.ofChars (if isNegative x then '-' :: size else size)
  else realText shownWords x

example : text shownWords (.real 0.1) = "0.1" ∧ text shownWords (.real 1e22) = "1e+22" ∧
    text shownWords (.real 1e-7) = "1e-07" ∧ text shownWords (.real 450) = "450.0" := by
  decide +kernel

end Number
end LiveCanvas
