import LiveCanvas.Number.Binary

/-!
# The fewest digits that read back

Among the decimals that round to a given double there are shortest ones, and among those one is
nearest.  The search walks through the decimal grids, coarsest first, and looks at the two points
of each grid around the double; the first grid with a point in the interval of numbers that round
to the double gives the answer.
-/

namespace LiveCanvas

/-- The number `coefficient * 10 ^ scale`. -/
structure Decimal where
  coefficient : Nat
  scale : Int
deriving DecidableEq, Repr

namespace Decimal

/-- The same number without zeros at the end of the coefficient. -/
def dropZeros (d : Decimal) : Nat → Decimal
  | 0 => d
  | fuel + 1 =>
    if d.coefficient % 10 = 0 then dropZeros ⟨d.coefficient / 10, d.scale + 1⟩ fuel else d

/-- The digits of the coefficient. -/
def digits (d : Decimal) : List Char :=
  Nat.toDigits 10 d.coefficient

/-- Where the point stands: the number is `0.d₁d₂… * 10 ^ point`. -/
def point (d : Decimal) : Int :=
  d.digits.length + d.scale

end Decimal

namespace Binary

/-- The interval of numbers that round to a double, in quarters of its last place. -/
structure Interval where
  low : Nat
  value : Nat
  high : Nat
  closed : Bool

/-- The interval of the double `b`.  Just above a power of two the lower neighbour is nearer; the
ends round to the double when its mantissa is even. -/
def interval (b : Binary) : Interval where
  low := 4 * b.mantissa - (if b.mantissa = Nat.pow 2 52 && -1074 < b.exponent then 1 else 2)
  value := 4 * b.mantissa
  high := 4 * b.mantissa + 2
  closed := b.mantissa % 2 = 0

/-- The number `n / den` lies in the interval, whose ends are given over the same `den`. -/
def Interval.holds (i : Interval) (unit n : Nat) : Bool :=
  if i.closed then i.low * unit ≤ n && n ≤ i.high * unit
  else i.low * unit < n && n < i.high * unit

/-- How many tenfold steps bring `num / den` to one or above. -/
def stepsToOne (num den : Nat) : Nat → Nat
  | 0 => 0
  | fuel + 1 => if den ≤ num then 0 else stepsToOne (10 * num) den fuel + 1

/-- The place of the first digit: `10 ^ (place - 1) ≤ b < 10 ^ place`. -/
def place (b : Binary) : Int :=
  let (num, den) := b.fraction
  if den ≤ num then (Nat.toDigits 10 (num / den)).length
  else 1 - (stepsToOne num den 330 : Int)

/-- The point of the grid `10 ^ scale` that lies in the interval and is nearest to the double; of
two equally near ones the even. -/
def onGrid? (b : Binary) (scale : Int) : Option Nat :=
  -- quarters of the last place over `unit`, points of the grid over `step`: both are whole
  let i := b.interval
  let shift := b.exponent - 2
  let unit := Nat.pow 2 shift.toNat * Nat.pow 10 (-scale).toNat
  let step := Nat.pow 2 (-shift).toNat * Nat.pow 10 scale.toNat
  let below := i.value * unit / step
  let toBelow := i.value * unit - below * step
  let toAbove := (below + 1) * step - i.value * unit
  match i.holds unit (below * step), i.holds unit ((below + 1) * step) with
  | true, true =>
    if toBelow < toAbove then some below
    else if toAbove < toBelow then some (below + 1)
    else some (below + below % 2)
  | true, false => some below
  | false, true => some (below + 1)
  | false, false => none

/-- The first of the grids with `count`, `count + 1`, … digits that has a point in the interval. -/
def firstGrid (b : Binary) (place : Int) (count : Nat) : Nat → Decimal
  | 0 => ⟨0, 0⟩
  | fuel + 1 =>
    match b.onGrid? (place - count) with
    | some c => ⟨c, place - count⟩
    | none => firstGrid b place (count + 1) fuel

/-- The shortest decimal that rounds to the positive double `b`. -/
def shortest (b : Binary) : Decimal :=
  (firstGrid b b.place 1 17).dropZeros 20

example : (Binary.ofFloat 0.1).shortest = ⟨1, -1⟩ := by decide +kernel

example : (Binary.ofFloat 5e-324).shortest = ⟨5, -324⟩ := by decide +kernel

end Binary
end LiveCanvas
