import LiveCanvas.Yaml.Moment

/-!
# Kinds of nodes

What a node is: a text, a number, a list and so on.  A tag says it outright; a plain text without
one is recognised by its form.
-/

namespace LiveCanvas
namespace Yaml

/-- What a node is. -/
inductive Tag
  | null
  | bool
  | int
  | float
  | binary
  | timestamp
  | str
  | seq
  | map
  | omap
  | pairs
  | set
  /-- The key that stands for the fields of another object. -/
  | merge
  /-- The key that stands for the object as a whole. -/
  | value
  /-- A tag without a meaning. -/
  | unknown
deriving DecidableEq, Repr

namespace Tag

/-- What the standard handle stands for. -/
def standard : Text := "tag:yaml.org,2002:"

/-- The standard tags, by what follows the standard handle. -/
def names : List (Text × Tag) :=
  [("null", null), ("bool", bool), ("int", int), ("float", float), ("binary", binary),
    ("timestamp", timestamp), ("str", str), ("seq", seq), ("map", map), ("omap", omap),
    ("pairs", pairs), ("set", set), ("merge", merge), ("value", value)]

/-- The kind that a complete tag names. -/
def ofText (text : Text) : Tag :=
  match names.find? fun entry => standard ++ entry.1 == text with
  | some entry => entry.2
  | none => unknown

end Tag

/-! ## Forms of plain texts -/

namespace Form

/-- A digit, or the mark between groups of digits. -/
def isGrouped (c : Rune) : Bool :=
  c.isDigit || c == '_'

/-- Without a sign in front. -/
def unsigned : List Rune → List Rune
  | .char '+' :: cs => cs
  | .char '-' :: cs => cs
  | cs => cs

/-- The words for truth values, in small letters. -/
def truthWords : List (Text × Bool) :=
  [("yes", true), ("no", false), ("true", true), ("false", false), ("on", true), ("off", false)]

/-- A word in small letters, in capitals, or with one capital in front. -/
def isCased (word : Text) (cs : List Rune) : Bool :=
  let small := word.toList
  let capitals := small.map Rune.toUpper
  cs == small || cs == capitals || cs == capitals.take 1 ++ small.drop 1

/-- A truth value. -/
def isBool (cs : List Rune) : Bool :=
  truthWords.any fun entry => isCased entry.1 cs

/-- Nothing at all. -/
def isNull (cs : List Rune) : Bool :=
  cs.isEmpty || cs == [.char '~'] || isCased "null" cs

/-- Parts of a number to the base sixty, each after a colon; `stop` says what may follow. -/
def sixtieths (stop : List Rune → Bool) : List Rune → Bool
  | .char ':' :: a :: b :: rest =>
    if a.isDigit && b.isDigit then a ≤ '5' && (stop rest || sixtieths stop rest)
    else a.isDigit && (stop (b :: rest) || sixtieths stop (b :: rest))
  | [.char ':', a] => a.isDigit && stop []
  | _ => false

/-- A whole number: with the base two, eight, sixteen, ten or sixty. -/
def isInt (cs : List Rune) : Bool :=
  match unsigned cs with
  | .char '0' :: .char 'b' :: c :: rest => (c :: rest).all fun c => c == '0' || c == '1' || c == '_'
  | .char '0' :: .char 'x' :: c :: rest =>
    (c :: rest).all fun c => isGrouped c || ('a' ≤ c && c ≤ 'f') || ('A' ≤ c && c ≤ 'F')
  | .char '0' :: rest => rest.all fun c => ('0' ≤ c && c ≤ '7') || c == '_'
  | c :: rest =>
    c.isDigit && (let rest := rest.dropWhile isGrouped; rest.isEmpty || sixtieths List.isEmpty rest)
  | [] => false

/-- An exponent, which needs a sign, or nothing. -/
def isExponent : List Rune → Bool
  | [] => true
  | e :: sign :: c :: rest =>
    (e == 'e' || e == 'E') && (sign == '-' || sign == '+') && (c :: rest).all Rune.isDigit
  | _ => false

/-- A fraction and an exponent. -/
def isFraction : List Rune → Bool
  | .char '.' :: rest => isExponent (rest.dropWhile isGrouped)
  | _ => false

/-- A point, and grouped digits to the end. -/
def isSixtiethsFraction : List Rune → Bool
  | .char '.' :: rest => rest.all isGrouped
  | _ => false

/-- The words for a number that is none, after their point. -/
def nanWords : List Text := ["nan", "NaN", "NAN"]

/-- A number with a point, or a word for what has no digits.  A number that starts with its point
has no sign. -/
def isFloat (cs : List Rune) : Bool :=
  match cs with
  | .char '.' :: c :: rest =>
    (c.isDigit && isExponent (rest.dropWhile isGrouped)) || isCased "inf" (c :: rest) ||
      nanWords.any (·.toList == c :: rest)
  | _ =>
    match unsigned cs with
    | .char '.' :: rest => isCased "inf" rest
    | c :: rest =>
      c.isDigit && (let rest := rest.dropWhile isGrouped
        isFraction rest || sixtieths isSixtiethsFraction rest)
    | [] => false

end Form

/-- The kind of a plain text without a tag, by its form.  A line end at its end does not count. -/
def Tag.ofPlain (text : Text) : Tag :=
  let cs := text.toList
  let cs := if cs.getLast? == some (.char '\n') && 1 < cs.length then cs.dropLast else cs
  -- the forms do not overlap but for numbers, of which one with a point is looked for first
  if Form.isNull cs then .null
  else if Form.isBool cs then .bool
  else if Form.isFloat cs then .float
  else if Form.isInt cs then .int
  else if Moment.isPlain cs then .timestamp
  else if cs == [.char '<', .char '<'] then .merge
  else if cs == [.char '='] then .value
  else .str

end Yaml
end LiveCanvas
