/-!
# Doubles as binary fractions

A finite double is a natural number times a power of two.  Everything that has to be exact about
a double (its digits, its integer part, rounding to a whole number) is done on that form.
-/

namespace LiveCanvas

/-- The number `mantissa * 2 ^ exponent`. -/
structure Binary where
  mantissa : Nat
  exponent : Int
deriving DecidableEq, Repr

namespace Binary

/-- The fraction bits of a double. -/
def fractionBits (bits : UInt64) : Nat :=
  (bits &&& 0xfffffffffffff).toNat

/-- The exponent bits of a double. -/
def exponentBits (bits : UInt64) : Nat :=
  ((bits >>> 52) &&& 0x7ff).toNat

/-- The size of the finite double with these bits. -/
def ofBits (bits : UInt64) : Binary :=
  if exponentBits bits = 0 then ⟨fractionBits bits, -1074⟩
  else ⟨fractionBits bits + Nat.pow 2 52, exponentBits bits - 1075⟩

/-- The size of a finite double. -/
def ofFloat (x : Float) : Binary :=
  ofBits x.toBits

/-- Numerator and denominator of the number. -/
def fraction (b : Binary) : Nat × Nat :=
  (b.mantissa * Nat.pow 2 b.exponent.toNat, Nat.pow 2 (-b.exponent).toNat)

/-- The number when it is whole. -/
def whole? (b : Binary) : Option Nat :=
  let (num, den) := b.fraction
  if num % den = 0 then some (num / den) else none

/-- The nearest whole number; a half goes to the even neighbour. -/
def round (b : Binary) : Nat :=
  let (num, den) := b.fraction
  let floor := num / den
  let rest := 2 * (num % den)
  if rest < den then floor
  else if den < rest then floor + 1
  else floor + floor % 2

end Binary

/-- The sign bit is set. -/
def isNegative (x : Float) : Bool :=
  x.toBits >>> 63 == 1

/-- The whole number with the sign of `x`. -/
def withSignOf (x : Float) (n : Nat) : Int :=
  if isNegative x then -(n : Int) else n

/-- The value of a finite double that is a whole number. -/
def wholeValue? (x : Float) : Option Int :=
  if x.isFinite then (Binary.ofFloat x).whole?.map (withSignOf x) else none

example : (Binary.round ⟨5, -1⟩, Binary.round ⟨7, -1⟩, Binary.round ⟨3, -2⟩) = (2, 4, 1) := by
  decide

end LiveCanvas
