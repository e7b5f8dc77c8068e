import LiveCanvas.Json.Reader
import LiveCanvas.Yaml.Cursor

/-!
# Names, tags and directives

A node may be given a name by an anchor, may be named by an alias, and may carry a tag.  A tag is a
handle with a suffix, or stands complete between angle brackets.  Directives before a document say
what its handles stand for.
-/

namespace LiveCanvas
namespace Yaml

/-- A name at the cursor; it may not be empty. -/
def readName (c : Cursor) : Except Fault (Text × Cursor) :=
  match c.span isNameChar with
  | ([], _) => .error .malformed
  | (name, c) => .ok (Text.ofList name, c)

/-- The characters that may follow the name of an anchor or alias. -/
def anchorEnds : List Rune := ['?', ':', ',', ']', '\x7d', '%', '@', '\x60']

/-- The name of an anchor or alias; its sign is already passed. -/
def readAnchor (c : Cursor) : Except Fault (Text × Cursor) := do
  let (name, c) ← readName c
  let endsHere := c.peek?.all fun ch =>
    isGap ch || anchorEnds.contains ch
  if endsHere then return (name, c) else throw .malformed

/-- A tag as it is written: a handle, unless the tag is complete, and what follows it. -/
structure TagName where
  handle : Option Text
  suffix : Text
deriving DecidableEq, Repr

namespace TagName

/-- The marks that a tag may hold. -/
def tagMarks : List Rune :=
  ['-', ';', '/', '?', ':', '@', '&', '=', '+', '$', ',', '_', '.', '!', '~', '*', '\'', '(', ')',
    '[', ']', '%']

/-- A character that a tag may hold. -/
def isTagChar (c : Rune) : Bool :=
  c.isAlphanum || tagMarks.contains c

/-- The bytes of a run of escapes, each a `%` with two digits. -/
def escapedBytes (read : List UInt8) (c : Cursor) : Nat → Except Fault (List UInt8 × Cursor)
  | 0 => .error .malformed
  | fuel + 1 =>
    if c.peek? == some (.char '%') then
      match Json.scanHex c.next.rest 2 0 with
      | some (n, _) => escapedBytes (read ++ [n.toUInt8]) (c.forward 3) fuel
      | none => .error .malformed
    else .ok (read, c)

/-- The characters of a tag from here on, with its escapes replaced. -/
def chars (read : List Rune) (c : Cursor) : Nat → Except Fault (List Rune × Cursor)
  | 0 => .error .malformed
  | fuel + 1 =>
    let (part, c) := c.span fun ch => isTagChar ch && ch != '%'
    if c.peek? == some (.char '%') then do
      let (bytes, c) ← escapedBytes [] c (c.rest.length + 1)
      match String.fromUTF8? (ByteArray.mk bytes.toArray) with
      | some s => chars (read ++ part ++ (Text.ofString s).toList) c fuel
      | none => .error .malformed
    else .ok (read ++ part, c)

/-- The text of a tag or of what a handle stands for; it may not be empty. -/
def readText (c : Cursor) : Except Fault (Text × Cursor) := do
  let (text, after) ← chars [] c (c.rest.length + 1)
  if after.rest.length = c.rest.length then throw .malformed else return (Text.ofList text, after)

/-- A handle: `!`, or a name between two of them. -/
def readHandle (c : Cursor) : Except Fault (Text × Cursor) :=
  if c.peek? != some (.char '!') then .error .malformed
  else if c.second? == some (.char ' ') then .ok ("!", c.next)
  else
    let (name, after) := c.next.span isNameChar
    if after.peek? == some (.char '!') then
      .ok (Text.ofList (.char '!' :: name ++ [.char '!']), after.next)
    else .error .malformed

/-- A tag; the cursor is at its exclamation mark. -/
def read (c : Cursor) : Except Fault (TagName × Cursor) := do
  let (tag, c) ←
    if c.second? == some (.char '<') then do
      let (text, c) ← readText (c.forward 2)
      if c.peek? == some (.char '>') then pure (TagName.mk none text, c.next) else throw .malformed
    else if endsRun c.second? then pure (TagName.mk none "!", c.next)
    else do
      let word := c.next.rest.takeWhile fun ch : Rune => !(ch == ' ' || isBreak ch)
      let (handle, c) ← if word.contains '!' then readHandle c else pure ("!", c.next)
      let (suffix, c) ← readText c
      pure (TagName.mk (some handle) suffix, c)
  if endsWord c.peek? then return (tag, c) else throw .malformed

end TagName

/-- A line before a document that tells how to read it. -/
inductive Directive
  /-- The version of the language. -/
  | version (major : Nat)
  /-- A handle and what it stands for. -/
  | handle (name text : Text)
  /-- A directive that means nothing here. -/
  | other
deriving DecidableEq, Repr

namespace Directive

/-- The digits of a version number. -/
def readNumber (c : Cursor) : Except Fault (Nat × Cursor) :=
  match c.span Rune.isDigit with
  | ([], _) => .error .malformed
  | (digits, c) => .ok (Numeral.natOfDigits digits, c)

/-- The version after its directive's name. -/
def readVersion (c : Cursor) : Except Fault (Directive × Cursor) := do
  let (major, c) ← readNumber (c.skip (· == .char ' '))
  if c.peek? != some (.char '.') then throw .malformed
  let (_, c) ← readNumber c.next
  if endsWord c.peek? then return (.version major, c) else throw .malformed

/-- The handle after its directive's name, and what it stands for. -/
def readTag (c : Cursor) : Except Fault (Directive × Cursor) := do
  let (name, c) ← TagName.readHandle (c.skip (· == .char ' '))
  if c.peek? != some (.char ' ') then throw .malformed
  let (text, c) ← TagName.readText (c.skip (· == .char ' '))
  if endsWord c.peek? then return (.handle name text, c) else throw .malformed

/-- A directive with its line; the cursor is at its percent sign. -/
def read (c : Cursor) : Except Fault (Directive × Cursor) := do
  let (name, c) ← readName c.next
  if !endsWord c.peek? then throw .malformed
  let (directive, c) ←
    if name = "YAML" then readVersion c
    else if name = "TAG" then readTag c
    else pure (other, c.skip (!isBreak ·))
  let c ← c.finishLine
  return (directive, c)

end Directive
end Yaml
end LiveCanvas
