import LiveCanvas.Text.Blank

/-!
# Decimal digits of every script

Each script's ten digits stand in order after its zero, so a list of zeros is enough.
-/

namespace LiveCanvas
namespace Text

/-- The zeros beyond ASCII. -/
def digitZeros : List Nat :=
  [0x660, 0x6f0, 0x7c0, 0x966, 0x9e6, 0xa66, 0xae6, 0xb66, 0xbe6, 0xc66, 0xce6, 0xd66, 0xde6,
   0xe50, 0xed0, 0xf20, 0x1040, 0x1090, 0x17e0, 0x1810, 0x1946, 0x19d0, 0x1a80, 0x1a90, 0x1b50,
   0x1bb0, 0x1c40, 0x1c50, 0xa620, 0xa8d0, 0xa900, 0xa9d0, 0xa9f0, 0xaa50, 0xabf0, 0xff10,
   0x104a0, 0x10d30, 0x11066, 0x110f0, 0x11136, 0x111d0, 0x112f0, 0x11450, 0x114d0, 0x11650,
   0x116c0, 0x11730, 0x118e0, 0x11950, 0x11c50, 0x11d50, 0x11da0, 0x16a60, 0x16ac0, 0x16b50,
   0x1d7ce, 0x1d7d8, 0x1d7e2, 0x1d7ec, 0x1d7f6, 0x1e140, 0x1e2f0, 0x1e950, 0x1fbf0]

/-- The value of a decimal digit of any script. -/
def digitValue? (c : Rune) : Option Nat :=
  if c.isDigit then some (c.toNat - 48)
  else (digitZeros.find? fun first => first ≤ c.toNat && c.toNat < first + 10).map (c.toNat - ·)

/-- A character as a numeral reads it: digits of every script as ASCII digits and blanks beyond
ASCII as a plain space. -/
def numeralChar (c : Rune) : Rune :=
  if c.toNat < 128 then c
  else if isBlank c then ' '
  else match digitValue? c with
    | some d => Rune.ofNat (48 + d)
    | none => c

/-- The blanks that may surround a numeral. -/
def isNumeralBlank (c : Rune) : Bool :=
  (9 ≤ c.toNat && c.toNat ≤ 13) || c == ' '

example : digitValue? '٣' = some 3 ∧ digitValue? 'x' = none := by decide +kernel

end Text
end LiveCanvas
