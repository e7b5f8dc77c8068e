import LiveCanvas.Text.Encoding

/-!
# Base64

Three bytes become four characters of six bits each; one or two bytes at the end are filled up with
`=`.
-/

namespace LiveCanvas
namespace Base64

/-- The character of six bits. -/
def symbol (n : Nat) : Rune :=
  if n < 26 then Rune.ofNat (65 + n)
  else if n < 52 then Rune.ofNat (71 + n)
  else if n < 62 then Rune.ofNat (n - 4)
  else if n = 62 then '+'
  else '/'

/-- The characters of a run of bytes. -/
def encode : List UInt8 → List Rune
  | [] => []
  | [a] => [symbol (a.toNat / 4), symbol (a.toNat % 4 * 16), '=', '=']
  | [a, b] =>
    [symbol (a.toNat / 4), symbol (a.toNat % 4 * 16 + b.toNat / 16),
      symbol (b.toNat % 16 * 4), '=']
  | a :: b :: c :: rest =>
    symbol (a.toNat / 4) :: symbol (a.toNat % 4 * 16 + b.toNat / 16) ::
      symbol (b.toNat % 16 * 4 + c.toNat / 64) :: symbol (c.toNat % 64) :: encode rest

/-- The characters of a text's UTF-8 bytes, where a question mark stands for each half in it. -/
def ofText (s : Text) : Text :=
  Text.ofList (encode s.replaced.toUTF8.toList)

/-- The six bits of a character. -/
def bits? (c : Rune) : Option Nat :=
  if 'A' ≤ c && c ≤ 'Z' then some (c.toNat - 65)
  else if 'a' ≤ c && c ≤ 'z' then some (c.toNat - 71)
  else if c.isDigit then some (c.toNat + 4)
  else if c == '+' then some 62
  else if c == '/' then some 63
  else none

/-- The bytes of four characters at a time; `=` fills up the last four, and what follows it does
not count. -/
def decodeGroups : List Rune → Option (List UInt8)
  | [] => some []
  | a :: b :: .char '=' :: .char '=' :: _ => do
    return [(4 * (← bits? a) + (← bits? b) / 16).toUInt8]
  | a :: b :: c :: .char '=' :: _ => do
    let second ← bits? b
    let third ← bits? c
    return [(4 * (← bits? a) + second / 16).toUInt8, (second % 16 * 16 + third / 4).toUInt8]
  | a :: b :: c :: d :: rest => do
    let second ← bits? b
    let third ← bits? c
    let bytes ← decodeGroups rest
    return (4 * (← bits? a) + second / 16).toUInt8 :: (second % 16 * 16 + third / 4).toUInt8 ::
      (third % 4 * 64 + (← bits? d)).toUInt8 :: bytes
  | _ => none

/-- The bytes of a run of characters; characters that stand for nothing are passed over. -/
def decode? (cs : List Rune) : Option (List UInt8) :=
  if cs.all (·.toNat < 128) then decodeGroups (cs.filter fun c => (bits? c).isSome || c == '=')
  else none

example : encode [97] = Text.toList "YQ==" ∧ encode [97, 98, 99] = Text.toList "YWJj" := by
  decide +kernel

end Base64
end LiveCanvas
