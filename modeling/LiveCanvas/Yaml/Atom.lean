import LiveCanvas.Digest.Base64
import LiveCanvas.Text.Cut
import LiveCanvas.Value.Shown
import LiveCanvas.Yaml.Cursor
import LiveCanvas.Yaml.Moment
import LiveCanvas.Yaml.Tag

/-!
# What a scalar stands for

The text of a scalar and its kind give a single value: null, a truth value, a number, a text, or
something that is only ever used by its text, such as a date.
-/

namespace LiveCanvas
namespace Yaml

/-- A value without parts. -/
inductive Atom
  | null
  | bool (b : Bool)
  | number (n : Number)
  | text (s : Text)
  /-- A date, a time or a run of bytes, by its text. -/
  | shown (s : Text)

namespace Atom

/-- The atom as a value. -/
def toValue : Atom → Value
  | null => .null
  | bool b => .bool b
  | number n => .number n
  | text s | shown s => .text s

/-- The number that an atom counts as when keys are compared. -/
def asNumber? : Atom → Option Number
  | number n => some n
  | bool b => some (.whole (if b then 1 else 0))
  | _ => none

/-- Numbers of the same size; what is not a number is the same as itself. -/
def sameNumber : Number → Number → Bool
  | .whole m, .whole n => m == n
  | .whole m, .real x => wholeValue? x == some m
  | .real x, .whole n => wholeValue? x == some n
  | .real x, .real y => x == y || (x.isNaN && y.isNaN)

/-- The same key of an object. -/
def sameKey (a b : Atom) : Bool :=
  match a, b with
  | null, null => true
  | text s, text t => s == t
  | shown s, shown t => s == t
  | _, _ =>
    match a.asNumber?, b.asNumber? with
    | some m, some n => sameNumber m n
    | _, _ => false

/-- The name of a field with this key. -/
def name (a : Atom) : Text :=
  a.toValue.asText

end Atom

/-! ## Numbers -/

namespace Numeric

/-- The value of a digit below a base. -/
def digit? (base : Nat) (c : Rune) : Option Nat :=
  let value? := match Text.digitValue? c with
    | some d => some d
    | none =>
      if 'a' ≤ c && c ≤ 'f' then some (c.toNat - 87)
      else if 'A' ≤ c && c ≤ 'F' then some (c.toNat - 55)
      else none
  value?.filter (· < base)

/-- A run of at least one digit. -/
def natural? (base : Nat) (cs : List Rune) : Option Nat :=
  if cs.isEmpty then none
  else cs.foldlM (fun n c => (digit? base c).map (base * n + ·)) 0

/-- The mark of a base, which may stand in front of its digits. -/
def withoutMark (base : Nat) (cs : List Rune) : List Rune :=
  match cs with
  | .char '0' :: mark :: rest =>
    if (base = 16 && (mark == 'x' || mark == 'X')) || (base = 8 && (mark == 'o' || mark == 'O')) ||
        (base = 2 && (mark == 'b' || mark == 'B')) then rest
    else cs
  | cs => cs

/-- A whole number to a base, with blanks around it and a sign.  A decimal number has a limit on
its digits. -/
def whole (base : Nat) (cs : List Rune) : Except Fault Int :=
  let cs := Text.stripWhile (fun c => Text.isBlank c) cs
  let (negative, cs) := Numeral.scanSign cs
  let cs := withoutMark base cs
  match natural? base cs with
  | none => .error .unreadable
  | some n =>
    if base = 10 && 4300 < cs.length then .error .unreadable
    else .ok (if negative then -(n : Int) else n)

/-- A double, with blanks around it and a sign. -/
def real (cs : List Rune) : Except Fault Float :=
  match Numeral.loose? (Text.ofList cs) with
  | some x => .ok x
  | none => .error .unreadable

/-- The sign of a number, and the number without it. -/
def signed (cs : List Rune) : Except Fault (Bool × List Rune) :=
  if cs.isEmpty then .error .noDigits else .ok (Numeral.scanSign cs)

/-- A whole number as YAML writes it. -/
def int (text : List Rune) : Except Fault Int := do
  let (negative, cs) ← signed (text.filter (· != .char '_'))
  let size ←
    match cs with
    | [.char '0'] => pure 0
    | .char '0' :: .char 'b' :: rest => whole 2 rest
    | .char '0' :: .char 'x' :: rest => whole 16 rest
    | .char '0' :: rest => whole 8 (.char '0' :: rest)
    | [] => throw .noDigits
    | cs =>
      if cs.contains ':' then do
        let parts ← (Text.splitAt ':' cs).mapM (whole 10)
        pure (parts.foldl (fun n part => 60 * n + part) 0)
      else whole 10 cs
  return if negative then -size else size

/-- Parts to the base sixty, the last one first, added up from the smallest. -/
def sumSixtieths (sum base : Float) : List Float → Float
  | [] => sum
  | part :: rest => sumSixtieths (sum + part * base) (base * 60) rest

/-- A number with a point as YAML writes it. -/
def float (text : List Rune) : Except Fault Float := do
  let (negative, cs) ← signed ((text.filter (· != .char '_')).map Rune.toLower)
  if cs == Text.toList ".nan" then return 0 / 0
  let size ←
    if cs == Text.toList ".inf" then pure (1 / 0)
    else if cs.contains ':' then do
      let parts ← (Text.splitAt ':' cs).mapM real
      pure (sumSixtieths 0 1 parts.reverse)
    else real cs
  return if negative then -size else size

end Numeric

namespace Bytes

/-- The bytes of a base-64 text, shown with escapes for all that is not ASCII. -/
def byteShown (quote : Rune) (b : UInt8) : List Rune :=
  let c := Rune.ofNat b.toNat
  if c == quote || c == '\\' then ['\\', c]
  else if c == '\n' then ['\\', 'n']
  else if c == '\r' then ['\\', 'r']
  else if c == '\t' then ['\\', 't']
  else if 0x20 ≤ b && b < 0x7f then [c]
  else .char '\\' :: .char 'x' :: Text.hexPadded 2 b.toNat

/-- The text that shows a run of bytes. -/
def shown (bytes : List UInt8) : Text :=
  let quote := Text.quoteFor (bytes.map fun b => Rune.ofNat b.toNat)
  Text.ofList (.char 'b' :: quote :: (bytes.flatMap (byteShown quote) ++ [quote]))

end Bytes

namespace Atom

/-- The atom that the text of a scalar stands for.  A kind that is not one of a scalar has none. -/
def ofText (tag : Tag) (text : Text) : Except Fault Atom :=
  let cs := text.toList
  match tag with
  | .null => .ok null
  | .str => .ok (.text text)
  | .bool =>
    match Form.truthWords.find? fun entry => entry.1.toList == cs.map Rune.toLower with
    | some entry => .ok (bool entry.2)
    | none => .error .unknownWord
  | .int => (Numeric.int cs).map fun n => number (.whole n)
  | .float => (Numeric.float cs).map fun x => number (.real x)
  | .timestamp =>
    match Moment.ofChars? cs with
    | some m => if m.isReal then .ok (shown m.text) else .error .unreadable
    | none => .error .notADate
  | .binary =>
    match Base64.decode? cs with
    | some bytes => .ok (shown (Bytes.shown bytes))
    | none => .error .malformed
  | _ => .error .malformed

end Atom

end Yaml
end LiveCanvas
