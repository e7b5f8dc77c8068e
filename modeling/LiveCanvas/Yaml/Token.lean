import LiveCanvas.Yaml.Property
import LiveCanvas.Yaml.Scalar

/-!
# Tokens

A YAML text is a run of tokens.  Indentation becomes tokens too: a block starts where a line is
indented deeper than the block around it, and ends where a line is indented less.  What stands
before a colon is known to be a key only when the colon is met; its tokens are then put in front of
what was already read.
-/

namespace LiveCanvas
namespace Yaml

/-- A token. -/
inductive Token
  | directive (d : Directive)
  | documentStart
  | documentEnd
  | blockSequenceStart
  | blockMappingStart
  | blockEnd
  | flowSequenceStart
  | flowSequenceEnd
  | flowMappingStart
  | flowMappingEnd
  | blockEntry
  | flowEntry
  | key
  | value
  | alias (name : Text)
  | anchor (name : Text)
  | tag (name : TagName)
  | scalar (text : Text) (plain : Bool)
  | streamEnd
  /-- The text cannot be read on from here. -/
  | broken (fault : Fault)
deriving DecidableEq, Repr

/-- Where a key may have started: the number of its first token, and its place. -/
structure PossibleKey where
  token : Nat
  /-- Nothing but a key can stand there. -/
  required : Bool
  index : Nat
  line : Nat
  column : Nat
deriving DecidableEq, Repr

/-- What has been read of a text, and what is known about the place. -/
structure Lexer where
  cursor : Cursor
  /-- How many brackets are open. -/
  depth : Nat := 0
  /-- The indentation of the innermost block. -/
  indent : Int := -1
  /-- The indentations of the blocks around it. -/
  outer : List Int := []
  /-- A key may start here. -/
  keyAllowed : Bool := true
  /-- Where keys may have started, by the depth of brackets. -/
  keys : List (Nat × PossibleKey) := []
  tokens : Array Token := #[]

namespace Lexer

/-- Inside brackets indentation means nothing. -/
def inFlow (l : Lexer) : Bool :=
  0 < l.depth

/-- One more token. -/
def emit (l : Lexer) (t : Token) : Lexer :=
  { l with tokens := l.tokens.push t }

/-- A token that is the next characters. -/
def emitSign (l : Lexer) (t : Token) (width : Nat) : Lexer :=
  { l.emit t with cursor := l.cursor.forward width }

/-- The indentation after the blocks that end, and the ends of these blocks. -/
def closedBlocks (column indent : Int) (tokens : Array Token) :
    List Int → Int × List Int × Array Token
  | [] => (indent, [], tokens)
  | out :: rest =>
    if column < indent then closedBlocks column out (tokens.push .blockEnd) rest
    else (indent, out :: rest, tokens)

/-- Ends the blocks that are indented deeper than a column. -/
def closeBlocks (l : Lexer) (column : Int) : Lexer :=
  if l.inFlow then l
  else
    let (indent, outer, tokens) := closedBlocks column l.indent l.tokens l.outer
    { l with indent, outer, tokens }

/-- Starts a block when a column is indented deeper than the block around it. -/
def openBlock (l : Lexer) (column : Nat) : Bool × Lexer :=
  if l.indent < column then (true, { l with indent := column, outer := l.indent :: l.outer })
  else (false, l)

/-- Starts a block with this token at the cursor's column, outside brackets. -/
def openBlockHere (l : Lexer) (start : Token) : Lexer :=
  if l.inFlow then l
  else match l.openBlock l.cursor.column with
    | (true, l) => l.emit start
    | (false, l) => l

/-- A place where a key may have started is too far back: on another line, or too many characters
away. -/
def PossibleKey.isStale (k : PossibleKey) (c : Cursor) : Bool :=
  k.line != c.line || 1024 < c.index - k.index

/-- Gives up the places where a key may have started too far back. -/
def dropStaleKeys (l : Lexer) : Except Fault Lexer :=
  if l.keys.any fun k => k.2.required && PossibleKey.isStale k.2 l.cursor then .error .malformed
  else .ok { l with keys := l.keys.filter fun k => !PossibleKey.isStale k.2 l.cursor }

/-- Gives up the place where a key may have started between the innermost brackets. -/
def dropKey (l : Lexer) : Except Fault Lexer :=
  if l.keys.any fun k => k.1 == l.depth && k.2.required then .error .malformed
  else .ok { l with keys := l.keys.filter fun k => k.1 != l.depth }

/-- Notes that a key may start here. -/
def markKey (l : Lexer) : Except Fault Lexer :=
  if l.keyAllowed then do
    let required := !l.inFlow && l.indent == l.cursor.column
    let l ← l.dropKey
    let place : PossibleKey :=
      ⟨l.tokens.size, required, l.cursor.index, l.cursor.line, l.cursor.column⟩
    return { l with keys := (l.depth, place) :: l.keys }
  else return l

/-- Past spaces, comments and line ends.  A key may start on a new line. -/
def skipGaps (l : Lexer) : Nat → Lexer
  | 0 => l
  | fuel + 1 =>
    let c := (l.cursor.skip (· == .char ' ')).skipComment
    match c.takeBreak with
    | ([], _) => { l with cursor := c }
    | (_, c) =>
      skipGaps { l with cursor := c, keyAllowed := l.keyAllowed || !l.inFlow } fuel

/-- The end of all blocks, where no key can be open. -/
def endBlocks (l : Lexer) : Except Fault Lexer := do
  let l ← (l.closeBlocks (-1)).dropKey
  return { l with keyAllowed := false }

/-- An opening bracket. -/
def openFlow (l : Lexer) (t : Token) : Except Fault Lexer := do
  let l ← l.markKey
  return { l.emitSign t 1 with depth := l.depth + 1, keyAllowed := true }

/-- A closing bracket; more of them than were opened are refused. -/
def closeFlow (l : Lexer) (t : Token) : Except Fault Lexer := do
  let l ← l.dropKey
  if l.depth = 0 then throw .malformed
  return { l.emitSign t 1 with depth := l.depth - 1, keyAllowed := false }

/-- A comma between brackets. -/
def flowEntry (l : Lexer) : Except Fault Lexer := do
  let l ← l.dropKey
  return { l.emitSign .flowEntry 1 with keyAllowed := true }

/-- The dash of a list item. -/
def blockEntry (l : Lexer) : Except Fault Lexer := do
  if !l.inFlow && !l.keyAllowed then throw .malformed
  let l ← { l.openBlockHere .blockSequenceStart with keyAllowed := true }.dropKey
  return l.emitSign .blockEntry 1

/-- The question mark of a key. -/
def explicitKey (l : Lexer) : Except Fault Lexer := do
  if !l.inFlow && !l.keyAllowed then throw .malformed
  let l ← { l.openBlockHere .blockMappingStart with keyAllowed := !l.inFlow }.dropKey
  return l.emitSign .key 1

/-- Puts a token in front of the one with this number. -/
def insertToken (l : Lexer) (place : Nat) (t : Token) : Lexer :=
  { l with tokens := l.tokens.insertIdxIfInBounds place t }

/-- Everything from the place where the key started on was a key. -/
def confirmKey (l : Lexer) (k : PossibleKey) : Lexer :=
  let l := { l with keys := l.keys.filter fun k => k.1 != l.depth, keyAllowed := false }
  let l := l.insertToken k.token .key
  -- a block of entries starts in front of its first key
  if l.inFlow then l
  else match l.openBlock k.column with
    | (true, l) => l.insertToken k.token .blockMappingStart
    | (false, l) => l

/-- The colon of a value. -/
def valueSign (l : Lexer) : Except Fault Lexer := do
  match l.keys.find? fun k => k.1 == l.depth with
  | some (_, k) => return (l.confirmKey k).emitSign .value 1
  | none =>
    if !l.inFlow && !l.keyAllowed then throw .malformed
    let l ← { l.openBlockHere .blockMappingStart with keyAllowed := !l.inFlow }.dropKey
    return l.emitSign .value 1

/-- A token that may start a key, read by `read` from a number of characters on. -/
def keyToken {α : Type} (l : Lexer) (passed : Nat) (read : Cursor → Except Fault (α × Cursor))
    (token : α → Token) : Except Fault Lexer := do
  let l ← l.markKey
  let (found, cursor) ← read (l.cursor.forward passed)
  return { l.emit (token found) with cursor, keyAllowed := false }

/-- A text between quotes. -/
def quoted (l : Lexer) (double : Bool) : Except Fault Lexer :=
  l.keyToken 1 (fun c => Quotes.read double [] c (c.rest.length + 1)) fun text =>
    .scalar (Text.ofList text) false

/-- A block of lines. -/
def block (l : Lexer) (fold : Bool) : Except Fault Lexer := do
  let l ← { l with keyAllowed := true }.dropKey
  let (text, cursor) ← Block.read fold l.indent l.cursor.next
  return { l.emit (.scalar (Text.ofList text) false) with cursor }

/-- A plain text. -/
def plain (l : Lexer) : Except Fault Lexer := do
  let l ← l.markKey
  let (text, cursor, lineEnded) :=
    Plain.read l.inFlow (l.indent + 1) [] [] false l.cursor (l.cursor.rest.length + 1)
  return { l.emit (.scalar (Text.ofList text) true) with cursor, keyAllowed := lineEnded }

/-- The next token that is not an end of blocks. -/
def nextToken (l : Lexer) : Except Fault Lexer :=
  let c := l.cursor
  let alone := endsRun c.second?
  match c.peek? with
  | none => do
    let l ← l.endBlocks
    return { l.emit .streamEnd with keys := [] }
  | some ch =>
    -- directives and document marks stand at the start of a line
    if ch == '%' && c.column == 0 then do
      let l ← l.endBlocks
      let (d, cursor) ← Directive.read c
      return { l.emit (.directive d) with cursor }
    else if c.column == 0 && c.meetsMark '-' then do
      let l ← l.endBlocks
      return l.emitSign .documentStart 3
    else if c.column == 0 && c.meetsMark '.' then do
      let l ← l.endBlocks
      return l.emitSign .documentEnd 3
    else if ch == '[' then l.openFlow .flowSequenceStart
    else if ch == '\x7b' then l.openFlow .flowMappingStart
    else if ch == ']' then l.closeFlow .flowSequenceEnd
    else if ch == '\x7d' then l.closeFlow .flowMappingEnd
    else if ch == ',' then l.flowEntry
    -- a sign that something follows at once is part of a text, except between brackets
    else if ch == '-' && alone then l.blockEntry
    else if ch == '?' && (l.inFlow || alone) then l.explicitKey
    else if ch == ':' && (l.inFlow || alone) then l.valueSign
    else if ch == '*' then l.keyToken 1 readAnchor .alias
    else if ch == '&' then l.keyToken 1 readAnchor .anchor
    else if ch == '!' then l.keyToken 0 TagName.read .tag
    else if ch == '|' && !l.inFlow then l.block false
    else if ch == '>' && !l.inFlow then l.block true
    else if ch == '\'' then l.quoted false
    else if ch == '"' then l.quoted true
    else if Plain.starts l.inFlow c then l.plain
    else .error .malformed

/-- One step: over the gaps before a token, the ends of blocks there, and the token. -/
def step (l : Lexer) : Except Fault Lexer := do
  let l ← (l.skipGaps (l.cursor.rest.length + 1)).dropStaleKeys
  (l.closeBlocks l.cursor.column).nextToken

/-- All tokens; where the text cannot be read on, the last token says why. -/
def run (l : Lexer) : Nat → Array Token
  | 0 => l.tokens.push (.broken .malformed)
  | fuel + 1 =>
    match l.step with
    | .error e => l.tokens.push (.broken e)
    | .ok l => if l.tokens.back? == some .streamEnd then l.tokens else run l fuel

end Lexer

/-- A character that may stand in a YAML text. -/
def isPermitted : Rune → Bool :=
  Rune.isChar fun c =>
    c == '\t' || c == '\n' || c == '\r' || c == '\x85' || (' ' ≤ c && c ≤ '~') ||
      ('\xa0' ≤ c && c ≠ '\ufffe' && c ≠ '\uffff')

/-- A carriage return, with a line feed after it or not, is a line feed. -/
def plainBreaks : List Rune → List Rune
  | .char '\r' :: .char '\n' :: rest => .char '\n' :: plainBreaks rest
  | .char '\r' :: rest => .char '\n' :: plainBreaks rest
  | c :: rest => c :: plainBreaks rest
  | [] => []

/-- The tokens of a text.  A byte order mark at its start is passed over. -/
def Token.ofText (s : Text) : List Token :=
  let cs := plainBreaks s.toList
  if cs.all isPermitted then
    let start : Cursor := ⟨cs, 0, 0, 0⟩
    let start := if start.peek? == some (.char '\ufeff') then start.next else start
    (Lexer.run { cursor := start } (cs.length + 2)).toList
  else [.broken .malformed]

end Yaml
end LiveCanvas
