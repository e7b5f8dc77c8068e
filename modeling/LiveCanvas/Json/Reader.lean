import LiveCanvas.Value.Basic

/-!
# Reading JSON

A JSON text is read from left to right into a value.  Besides the standard the reader knows the
words `NaN`, `Infinity` and `-Infinity`; when a name stands twice in an object the last value
counts.  A whole number keeps all its digits, up to a limit on their count.
-/

namespace LiveCanvas
namespace Json

/-- Why a text is not a value. -/
inductive Fault
  /-- The text breaks the grammar. -/
  | malformed
  /-- A whole number has more digits than are read. -/
  | tooManyDigits
deriving DecidableEq, Repr

/-- The most digits of a whole number. -/
def maxDigits : Nat := 4300

/-- A blank between the parts of a JSON text. -/
def isGap (c : Rune) : Bool :=
  c == ' ' || c == '\n' || c == '\r' || c == '\t'

/-- The text without gaps at its start. -/
def skipGaps (cs : List Rune) : List Rune :=
  cs.dropWhile isGap

/-- The value of a hexadecimal digit. -/
def hexValue? (c : Rune) : Option Nat :=
  if c.isDigit then some (c.toNat - 48)
  else if 'a' ≤ c && c ≤ 'f' then some (c.toNat - 87)
  else if 'A' ≤ c && c ≤ 'F' then some (c.toNat - 55)
  else none

/-- Exactly `count` hexadecimal digits at the start of the text, and what follows them. -/
def scanHex (cs : List Rune) : Nat → Nat → Option (Nat × List Rune)
  | 0, n => some (n, cs)
  | count + 1, n =>
    match cs with
    | [] => none
    | c :: rest => (hexValue? c).bind fun d => scanHex rest count (16 * n + d)

/-- The first of two units that stand for one character. -/
def isHighUnit (n : Nat) : Bool := 0xd800 ≤ n && n ≤ 0xdbff

/-- The second of two units that stand for one character. -/
def isLowUnit (n : Nat) : Bool := 0xdc00 ≤ n && n ≤ 0xdfff

/-- The code point that an escape by number stands for, and what follows it.  Two units are taken
together where they can be; a unit that is left alone stands for a half. -/
def scanUnits (cs : List Rune) : Option (Rune × List Rune) :=
  match scanHex cs 4 0 with
  | none => none
  | some (high, rest) =>
    match rest with
    | .char '\\' :: .char 'u' :: more =>
      match scanHex more 4 0 with
      | some (low, rest') =>
        if isHighUnit high && isLowUnit low then
          some (Rune.ofNat (0x10000 + 0x400 * (high - 0xd800) + (low - 0xdc00)), rest')
        else some (Rune.ofNat high, rest)
      | none => some (Rune.ofNat high, rest)
    | _ => some (Rune.ofNat high, rest)

/-- The character that an escape stands for, given what follows the backslash. -/
def scanEscape : List Rune → Option (Rune × List Rune)
  | .char '"' :: rest => some ('"', rest)
  | .char '\\' :: rest => some ('\\', rest)
  | .char '/' :: rest => some ('/', rest)
  | .char 'b' :: rest => some ('\x08', rest)
  | .char 'f' :: rest => some ('\x0c', rest)
  | .char 'n' :: rest => some ('\n', rest)
  | .char 'r' :: rest => some ('\r', rest)
  | .char 't' :: rest => some ('\t', rest)
  | .char 'u' :: rest => scanUnits rest
  | _ => none

/-- A text up to its closing quote; `read` holds the characters read so far, last first. -/
def readText (read : List Rune) (cs : List Rune) : Nat → Except Fault (Text × List Rune)
  | 0 => .error .malformed
  | fuel + 1 =>
    match cs with
    | [] => .error .malformed
    | .char '"' :: rest => .ok (Text.ofList read.reverse, rest)
    | .char '\\' :: rest =>
      match scanEscape rest with
      | some (c, rest) => readText (c :: read) rest fuel
      | none => .error .malformed
    | c :: rest => if c.toNat < 0x20 then .error .malformed else readText (c :: read) rest fuel

/-- The digits before the point: a zero alone, or digits that start with another one. -/
def scanWhole (cs : List Rune) : List Rune × List Rune :=
  match cs with
  | .char '0' :: rest => (['0'], rest)
  | cs => cs.span Rune.isDigit

/-- A fraction counts only with a digit after the point. -/
def scanFraction (cs : List Rune) : List Rune × List Rune :=
  match Numeral.scanFraction cs with
  | ([], _) => ([], cs)
  | found => found

/-- A number at the start of the text. -/
def readNumber (cs : List Rune) : Except Fault (Value × List Rune) :=
  let (negative, size) := match cs with
    | .char '-' :: rest => (true, rest)
    | cs => (false, cs)
  match scanWhole size with
  | ([], _) => .error .malformed
  | (whole, afterWhole) =>
    let (fraction, afterFraction) := scanFraction afterWhole
    let (exponent, rest) := Numeral.scanExponent afterFraction
    -- without a fraction and an exponent the number is whole
    if afterWhole.length = rest.length then
      if maxDigits < whole.length then .error .tooManyDigits
      else
        let n : Int := Numeral.natOfDigits whole
        .ok (.int (if negative then -n else n), rest)
    else
      let x := Numeral.Parts.value ⟨whole, fraction, exponent⟩
      .ok (.real (if negative then -x else x), rest)

/-- A word at the start of the text. -/
def readWord (cs : List Rune) : Option (Value × List Rune) :=
  match cs with
  | .char 'n' :: .char 'u' :: .char 'l' :: .char 'l' :: rest => some (.null, rest)
  | .char 't' :: .char 'r' :: .char 'u' :: .char 'e' :: rest => some (.bool true, rest)
  | .char 'f' :: .char 'a' :: .char 'l' :: .char 's' :: .char 'e' :: rest =>
    some (.bool false, rest)
  | .char 'N' :: .char 'a' :: .char 'N' :: rest => some (.real (0 / 0), rest)
  | .char 'I' :: .char 'n' :: .char 'f' :: .char 'i' :: .char 'n' :: .char 'i' :: .char 't' ::
      .char 'y' :: rest => some (.real (1 / 0), rest)
  | .char '-' :: .char 'I' :: .char 'n' :: .char 'f' :: .char 'i' :: .char 'n' :: .char 'i' ::
      .char 't' :: .char 'y' :: rest => some (.real (-1 / 0), rest)
  | _ => none

mutual

/-- A value at the start of the text. -/
def readValue (cs : List Rune) : Nat → Except Fault (Value × List Rune)
  | 0 => .error .malformed
  | fuel + 1 =>
    match cs with
    | .char '"' :: rest =>
      match readText [] rest (rest.length + 1) with
      | .ok (s, rest) => .ok (.text s, rest)
      | .error e => .error e
    | .char '[' :: rest =>
      match skipGaps rest with
      | .char ']' :: rest => .ok (.list [], rest)
      | rest => readItems [] rest fuel
    | .char '\x7b' :: rest =>
      match skipGaps rest with
      | .char '\x7d' :: rest => .ok (.object [], rest)
      | rest => readFields [] rest fuel
    | cs =>
      match readWord cs with
      | some found => .ok found
      | none => readNumber cs

/-- Items up to the closing bracket; `read` holds the items so far, last first. -/
def readItems (read : List Value) (cs : List Rune) : Nat → Except Fault (Value × List Rune)
  | 0 => .error .malformed
  | fuel + 1 =>
    match readValue cs fuel with
    | .error e => .error e
    | .ok (v, rest) =>
      match skipGaps rest with
      | .char ',' :: rest => readItems (v :: read) (skipGaps rest) fuel
      | .char ']' :: rest => .ok (.list (v :: read).reverse, rest)
      | _ => .error .malformed

/-- Fields up to the closing brace; `read` holds the fields so far, last first. -/
def readFields (read : List (Text × Value)) (cs : List Rune) :
    Nat → Except Fault (Value × List Rune)
  | 0 => .error .malformed
  | fuel + 1 =>
    match cs with
    | .char '"' :: rest =>
      match readText [] rest (rest.length + 1) with
      | .error e => .error e
      | .ok (name, rest) =>
        match skipGaps rest with
        | .char ':' :: rest =>
          match readValue (skipGaps rest) fuel with
          | .error e => .error e
          | .ok (v, rest) =>
            match skipGaps rest with
            | .char ',' :: rest => readFields ((name, v) :: read) (skipGaps rest) fuel
            | .char '\x7d' :: rest =>
              .ok (.object (Fields.ofList ((name, v) :: read).reverse), rest)
            | _ => .error .malformed
        | _ => .error .malformed
    | _ => .error .malformed

end

/-- The value of a JSON text. -/
def read (s : Text) : Except Fault Value :=
  let cs := s.toList
  match readValue (skipGaps cs) (2 * cs.length + 2) with
  | .error e => .error e
  | .ok (v, rest) => if (skipGaps rest).isEmpty then .ok v else .error .malformed

end Json
end LiveCanvas
