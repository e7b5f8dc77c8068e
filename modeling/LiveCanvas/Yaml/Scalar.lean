import LiveCanvas.Json.Reader
import LiveCanvas.Yaml.Cursor

/-!
# The text of a scalar

A scalar is written plainly, between quotes, or as a block of indented lines.  In all three a line
end inside the text is folded: a single one becomes a space, and of several the first is dropped.
A block may keep its line ends instead.
-/

namespace LiveCanvas
namespace Yaml

/-- What a line end and the ones right after it stand for inside a text. -/
def folded (first more : List Rune) : List Rune :=
  if first != [.char '\n'] then first ++ more
  else if more.isEmpty then [' ']
  else more

/-! ## Plain text -/

namespace Plain

/-- The characters that end a plain text inside brackets, or that a colon may stand before. -/
def isFlowEnd (c : Rune) : Bool :=
  c == ',' || c == '[' || c == ']' || c == '\x7b' || c == '\x7d'

/-- A colon before this character ends a plain text. -/
def endsKey (inFlow : Bool) (c : Option Rune) : Bool :=
  c.all fun c => isGap c || (inFlow && isFlowEnd c)

/-- The part of a plain text up to the next gap. -/
def run (inFlow : Bool) : List Rune → List Rune
  | [] => []
  | c :: rest =>
    if isGap c || (c == ':' && endsKey inFlow rest.head?) ||
        (inFlow && (c == '?' || isFlowEnd c)) then []
    else c :: run inFlow rest

/-- A plain text may start here. -/
def starts (inFlow : Bool) (c : Cursor) : Bool :=
  match c.peek? with
  | none => false
  | some ch =>
    let special : List Rune := ['-', '?', ':', ',', '[', ']', '\x7b', '\x7d', '#', '&', '*', '!',
      '|', '>', '\'', '"', '%', '@', '\x60']
    (!isGap ch && !special.contains ch) ||
      (!endsRun c.second? && (ch == '-' || (!inFlow && (ch == '?' || ch == ':'))))

/-- Spaces and line ends, as far as the text goes on after them.  A line that starts or ends a
document ends the text: then there are none. -/
def breaks (read : List Rune) (c : Cursor) : Nat → Option (List Rune) × Cursor
  | 0 => (none, c)
  | fuel + 1 =>
    match c.peek? with
    | some (.char ' ') => breaks read c.next fuel
    | some ch =>
      if isBreak ch then
        let (lineEnd, c) := c.takeBreak
        if c.meetsDocument then (none, c) else breaks (read ++ lineEnd) c fuel
      else (some read, c)
    | none => (some read, c)

/-- What stands between two parts of a plain text, and whether a line ended there. -/
def gap (c : Cursor) : List Rune × Cursor × Bool :=
  let (spaces, c) := c.span (· == .char ' ')
  match c.takeBreak with
  | ([], _) => (spaces, c, false)
  | (first, c) =>
    if c.meetsDocument then ([], c, true)
    else match breaks [] c (c.rest.length + 1) with
      | (none, c) => ([], c, true)
      | (some more, c) => (folded first more, c, true)

/-- A plain text from here on, where it ends, and whether it ended with a line.  Outside brackets
every further line has to be indented. -/
def read (inFlow : Bool) (indent : Int) (text between : List Rune) (lineEnded : Bool) (c : Cursor) :
    Nat → List Rune × Cursor × Bool
  | 0 => (text, c, lineEnded)
  | fuel + 1 =>
    let part := run inFlow c.rest
    if c.peek? == some (.char '#') || part.isEmpty then (text, c, lineEnded)
    else
      -- the gap counts only when more text follows it
      let text := text ++ between ++ part
      let (between, c, lineEnded) := gap (c.forward part.length)
      if between.isEmpty || c.peek? == some (.char '#') || (!inFlow && c.column < indent) then
        (text, c, lineEnded)
      else read inFlow indent text between lineEnded c fuel

end Plain

/-! ## Text between quotes -/

namespace Quotes

/-- The escapes of one character. -/
def escapes : List (Rune × Rune) :=
  [('0', '\x00'), ('a', '\x07'), ('b', '\x08'), ('t', '\t'), ('\t', '\t'), ('n', '\n'),
    ('v', '\x0b'), ('f', '\x0c'), ('r', '\r'), ('e', '\x1b'), (' ', ' '), ('"', '"'),
    ('\\', '\\'), ('/', '/'), ('N', '\x85'), ('_', '\xa0'), ('L', '\u2028'), ('P', '\u2029')]

/-- How many digits follow an escape by number. -/
def escapeDigits? (c : Rune) : Option Nat :=
  if c == 'x' then some 2 else if c == 'u' then some 4 else if c == 'U' then some 8 else none

/-- The code point with this number. -/
def runeOf (n : Nat) : Except Fault Rune :=
  if n < 0x110000 then .ok (Rune.ofNat n)
  else if n < 0x80000000 then .error .unreadable
  else .error .tooLarge

/-- Line ends and blanks between the lines of a quoted text; no document may start or end there. -/
def breaks (read : List Rune) (c : Cursor) : Nat → Except Fault (List Rune × Cursor)
  | 0 => .error .malformed
  | fuel + 1 =>
    if c.meetsDocument then .error .malformed
    else
      let c := c.skip fun ch => ch == ' ' || ch == '\t'
      match c.takeBreak with
      | ([], _) => .ok (read, c)
      | (lineEnd, c) => breaks (read ++ lineEnd) c fuel

/-- What an escape stands for; the backslash is already passed. -/
def escape (c : Cursor) : Except Fault (List Rune × Cursor) :=
  match c.peek? with
  | none => .error .malformed
  | some ch =>
    match escapes.find? fun e => e.1 == ch, escapeDigits? ch with
    | some e, _ => .ok ([e.2], c.next)
    | none, some count =>
      match Json.scanHex c.next.rest count 0 with
      | none => .error .malformed
      | some (n, _) => do
        let decoded ← runeOf n
        return ([decoded], c.next.forward count)
    | none, none =>
      if isBreak ch then
        let c := c.takeBreak.2
        breaks [] c (c.rest.length + 1)
      else .error .malformed

/-- The text up to the next gap or the closing quote. -/
def run (double : Bool) (text : List Rune) (c : Cursor) :
    Nat → Except Fault (List Rune × Cursor)
  | 0 => .error .malformed
  | fuel + 1 =>
    let (part, c) := c.span fun ch => !isGap ch && ch != '\'' && ch != '"' && ch != '\\'
    let text := text ++ part
    match c.peek? with
    | some (.char '\'') =>
      if double then run double (text ++ [.char '\'']) c.next fuel
      else if c.second? == some (.char '\'') then
        run double (text ++ [.char '\'']) (c.forward 2) fuel
      else .ok (text, c)
    | some (.char '"') =>
      if double then .ok (text, c) else run double (text ++ [.char '"']) c.next fuel
    | some (.char '\\') =>
      if double then
        match escape c.next with
        | .ok (decoded, c) => run double (text ++ decoded) c fuel
        | .error e => .error e
      else run double (text ++ [.char '\\']) c.next fuel
    | _ => .ok (text, c)

/-- What blanks and line ends between two parts stand for. -/
def gap (c : Cursor) : Except Fault (List Rune × Cursor) :=
  let (blanks, c) := c.span fun ch => ch == ' ' || ch == '\t'
  match c.takeBreak with
  | ([], _) => if c.rest.isEmpty then .error .malformed else .ok (blanks, c)
  | (first, c) => do
    let (more, c) ← breaks [] c (c.rest.length + 1)
    return (folded first more, c)

/-- The text up to the closing quote, and what follows it. -/
def read (double : Bool) (text : List Rune) (c : Cursor) :
    Nat → Except Fault (List Rune × Cursor)
  | 0 => .error .malformed
  | fuel + 1 => do
    let (text, c) ← run double text c (c.rest.length + 1)
    if c.peek? == some (if double then '"' else '\'') then return (text, c.next)
    else
      let (between, c) ← gap c
      read double (text ++ between) c fuel

end Quotes

/-! ## Blocks of lines -/

namespace Block

/-- What becomes of the line ends after a block. -/
inductive Ending
  /-- The last line keeps its end. -/
  | single
  /-- All line ends are kept. -/
  | keep
  /-- No line end is kept. -/
  | strip
deriving DecidableEq, Repr

/-- The sign for an ending. -/
def ending? : Option Rune → Option Ending
  | some (.char '+') => some .keep
  | some (.char '-') => some .strip
  | _ => none

/-- The digit for an indentation, from one to nine. -/
def indentation? (c : Option Rune) : Option Nat :=
  (c.filter Rune.isDigit).map fun c => c.toNat - 48

/-- The signs after the mark of a block: its ending and its indentation, in any order. -/
def header (c : Cursor) : Except Fault (Ending × Option Nat × Cursor) :=
  let (ending, indentation, c) :=
    match ending? c.peek? with
    | some e =>
      match indentation? c.next.peek? with
      | some n => (e, some n, c.forward 2)
      | none => (e, none, c.next)
    | none =>
      match indentation? c.peek? with
      | some n =>
        match ending? c.next.peek? with
        | some e => (e, some n, c.forward 2)
        | none => (.single, some n, c.next)
      | none => (.single, none, c)
  if indentation == some 0 || !endsWord c.peek? then .error .malformed
  else .ok (ending, indentation, c)

/-- The empty lines before the first line of a block, and the widest indentation among them and
that line. -/
def leading (read : List Rune) (widest : Nat) (c : Cursor) : Nat → List Rune × Nat × Cursor
  | 0 => (read, widest, c)
  | fuel + 1 =>
    match c.peek? with
    | some (.char ' ') =>
      let c := c.next
      leading read (max widest c.column) c fuel
    | _ =>
      match c.takeBreak with
      | ([], _) => (read, widest, c)
      | (lineEnd, c) => leading (read ++ lineEnd) widest c fuel

/-- Past the spaces of an indentation. -/
def skipIndent (indent : Nat) (c : Cursor) : Cursor :=
  c.forward (min (indent - c.column) (c.rest.takeWhile (· == .char ' ')).length)

/-- The empty lines between two lines of a block. -/
def breaks (indent : Nat) (read : List Rune) (c : Cursor) : Nat → List Rune × Cursor
  | 0 => (read, c)
  | fuel + 1 =>
    let c := skipIndent indent c
    match c.takeBreak with
    | ([], _) => (read, c)
    | (lineEnd, c) => breaks indent (read ++ lineEnd) c fuel

/-- A line of a block starts here. -/
def meetsLine (indent : Nat) (c : Cursor) : Bool :=
  c.column == indent && !c.rest.isEmpty

/-- A line that starts with a blank is not folded. -/
def startsBlank (c : Cursor) : Bool :=
  c.peek?.any fun ch : Rune => ch == ' ' || ch == '\t'

/-- The lines of a block: the text, the end of the last line, and the empty lines after it.
`before` are the empty lines before the line that starts here. -/
def lines (fold : Bool) (indent : Nat) (text before : List Rune) (c : Cursor) :
    Nat → List Rune × List Rune × List Rune × Cursor
  | 0 => (text, [], before, c)
  | fuel + 1 =>
    if meetsLine indent c then
      let blankBefore := startsBlank c
      let (line, c) := c.span (!isBreak ·)
      let text := text ++ before ++ line
      let (lineEnd, c) := c.takeBreak
      let (empty, c) := breaks indent [] c (c.rest.length + 1)
      if meetsLine indent c then
        -- lines that start with a blank keep the ends around them
        let between :=
          if fold && lineEnd == [.char '\n'] && !blankBefore && !startsBlank c then
            (if empty.isEmpty then [.char ' '] else [])
          else lineEnd
        lines fold indent (text ++ between) empty c fuel
      else (text, lineEnd, empty, c)
    else (text, [], before, c)

/-- The text of a block, and what follows it.  `outer` is the indentation of what holds it. -/
def read (fold : Bool) (outer : Int) (c : Cursor) : Except Fault (List Rune × Cursor) := do
  let (ending, indentation, c) ← header c
  let c ← c.finishLine
  let least := (max (outer + 1) 1).toNat
  let fuel := c.rest.length + 1
  let (indent, before, c) :=
    match indentation with
    | none =>
      let (before, widest, c) := leading [] 0 c fuel
      (max least widest, before, c)
    | some n =>
      let indent := least + n - 1
      let (before, c) := breaks indent [] c fuel
      (indent, before, c)
  let (text, lineEnd, empty, c) := lines fold indent [] before c fuel
  return (match ending with
    | .strip => text
    | .single => text ++ lineEnd
    | .keep => text ++ lineEnd ++ empty, c)

end Block
end Yaml
end LiveCanvas
