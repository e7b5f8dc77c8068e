import LiveCanvas.Text.Basic

/-!
# A place in a YAML text

A cursor is what is left of a text, together with the line, the column and the number of characters
before it.  Line ends are the line feed, the next-line character and the two separators; the others
have become line feeds before a text is read.
-/

namespace LiveCanvas
namespace Yaml

/-- Why a YAML text has no value. -/
inductive Fault
  /-- The text breaks a rule of YAML. -/
  | malformed
  /-- A number, a date or a character that does not exist. -/
  | unreadable
  /-- A character whose number is beyond every machine word. -/
  | tooLarge
  /-- A number without any character. -/
  | noDigits
  /-- A truth value that is none of the words for one. -/
  | unknownWord
  /-- A date that is not written as one. -/
  | notADate
deriving DecidableEq, Repr

/-- A line end. -/
def isBreak (c : Rune) : Bool :=
  c == '\n' || c == '\x85' || c == '\u2028' || c == '\u2029'

/-- A space, a tab or a line end. -/
def isGap (c : Rune) : Bool :=
  c == ' ' || c == '\t' || isBreak c

/-- The text or the line ends here. -/
def endsLine (c : Option Rune) : Bool :=
  c.all isBreak

/-- A word ends here; a tab does not end it. -/
def endsWord (c : Option Rune) : Bool :=
  c.all fun c : Rune => c == ' ' || isBreak c

/-- The text, the line or a word ends here. -/
def endsRun (c : Option Rune) : Bool :=
  c.all isGap

/-- A character of the names of anchors, handles and directives. -/
def isNameChar (c : Rune) : Bool :=
  c.isAlphanum || c == '-' || c == '_'

/-- What is left of a text, and where that is. -/
structure Cursor where
  rest : List Rune
  /-- How many characters stand before. -/
  index : Nat := 0
  line : Nat := 0
  column : Nat := 0

namespace Cursor

/-- The next character. -/
def peek? (c : Cursor) : Option Rune :=
  c.rest.head?

/-- The character after the next one. -/
def second? (c : Cursor) : Option Rune :=
  c.rest[1]?

/-- One character further.  The byte order mark takes no column. -/
def next (c : Cursor) : Cursor :=
  match c.rest with
  | [] => c
  | ch :: rest =>
    if isBreak ch then ⟨rest, c.index + 1, c.line + 1, 0⟩
    else if ch == '\ufeff' then ⟨rest, c.index + 1, c.line, c.column⟩
    else ⟨rest, c.index + 1, c.line, c.column + 1⟩

/-- A number of characters further. -/
def forward (c : Cursor) : Nat → Cursor
  | 0 => c
  | count + 1 => c.next.forward count

/-- The characters from here on that satisfy `p`, and what follows them. -/
def span (c : Cursor) (p : Rune → Bool) : List Rune × Cursor :=
  let run := c.rest.takeWhile p
  (run, c.forward run.length)

/-- Past the characters that satisfy `p`. -/
def skip (c : Cursor) (p : Rune → Bool) : Cursor :=
  (c.span p).2

/-- A line end, if there is one here: as a line feed, except for the two separators. -/
def takeBreak (c : Cursor) : List Rune × Cursor :=
  match c.peek? with
  | some ch =>
    if ch == '\n' || ch == '\x85' then (['\n'], c.next)
    else if isBreak ch then ([ch], c.next)
    else ([], c)
  | none => ([], c)

/-- Past a comment, up to the end of its line. -/
def skipComment (c : Cursor) : Cursor :=
  if c.peek? == some (.char '#') then c.skip (!isBreak ·) else c

/-- Past spaces and a comment, over the end of the line.  Nothing else may stand there. -/
def finishLine (c : Cursor) : Except Fault Cursor :=
  let c := (c.skip (· == .char ' ')).skipComment
  if endsLine c.peek? then .ok c.takeBreak.2 else .error .malformed

/-- The text goes on with these three characters alone. -/
def meetsMark (c : Cursor) (mark : Rune) : Bool :=
  c.rest.take 3 == [mark, mark, mark] && endsRun c.rest[3]?

/-- A document starts or ends here. -/
def meetsDocument (c : Cursor) : Bool :=
  c.meetsMark '-' || c.meetsMark '.'

end Cursor
end Yaml
end LiveCanvas
