import LiveCanvas.Fields
import LiveCanvas.Yaml.Tag
import LiveCanvas.Yaml.Token

/-!
# Nodes

The tokens of a document make one node: a scalar, a list or an object of nodes, each of some kind.
An alias stands for the node with its name.  Two nodes of one document may not have the same name.
-/

namespace LiveCanvas
namespace Yaml

/-- A node of a document. -/
inductive Node
  | scalar (tag : Tag) (text : Text)
  | sequence (tag : Tag) (items : List Node)
  | mapping (tag : Tag) (entries : List (Node × Node))
  /-- A node inside itself. -/
  | inner

namespace Node

/-- What stands where nothing is written. -/
def absent : Node := .scalar .null ""

end Node

/-- What is left of the tokens, and what names stand for. -/
structure Reader where
  tokens : List Token
  anchors : Fields Node := []
  handles : Fields Text := []

namespace Reader

/-- The next token. -/
def peek (r : Reader) : Except Fault Token :=
  match r.tokens with
  | [] => .error .malformed
  | .broken e :: _ => .error e
  | t :: _ => .ok t

/-- Past the next token. -/
def next (r : Reader) : Reader :=
  { r with tokens := r.tokens.tail }

/-- Past the next token, which has to be this one. -/
def expect (r : Reader) (t : Token) : Except Fault Reader := do
  if (← r.peek) = t then return r.next else throw .malformed

/-- The next token is one of these. -/
def meets (r : Reader) (ts : List Token) : Except Fault Bool := do
  return ts.contains (← r.peek)

/-- A name for a node, if one stands here. -/
def takeAnchor (r : Reader) : Except Fault (Option Text × Reader) := do
  match ← r.peek with
  | .anchor name => return (some name, r.next)
  | _ => return (none, r)

/-- A tag, if one stands here, complete with what its handle stands for. -/
def takeTag (r : Reader) : Except Fault (Option TagName × Reader) := do
  match ← r.peek with
  | .tag name => return (some name, r.next)
  | _ => return (none, r)

/-- The complete text of a tag. -/
def tagText (r : Reader) (name : TagName) : Except Fault Text :=
  match name.handle with
  | none => .ok name.suffix
  | some handle =>
    match r.handles.get? handle with
    | some start => .ok (start ++ name.suffix)
    | none => .error .malformed

/-- A name and a tag in any order. -/
def takeProperties (r : Reader) : Except Fault (Option Text × Option Text × Reader) := do
  let (anchor, r) ← r.takeAnchor
  let (tag, r) ← r.takeTag
  let (anchor, r) ← match anchor, tag with
    | none, some _ => r.takeAnchor
    | _, _ => pure (anchor, r)
  let text ← match tag with
    | some name => some <$> r.tagText name
    | none => pure none
  return (anchor, text, r)

/-- Gives a node its name. -/
def bind (r : Reader) (anchor : Option Text) (n : Node) : Reader :=
  match anchor with
  | some name => { r with anchors := r.anchors.set name n }
  | none => r

/-- The kind that a tag names; without one, or with the tag `!`, the kind is `default`. -/
def kindOf (tag : Option Text) (default : Tag) : Tag :=
  match tag with
  | none => default
  | some text => if text = "!" then default else .ofText text

/-- The kind of a scalar: that of its tag; else that of its form, for a plain text or one with the
tag `!`; else a text. -/
def scalarKind (tag : Option Text) (text : Text) (plain : Bool) : Tag :=
  kindOf tag (if plain || tag.isSome then .ofPlain text else .str)

mutual

/-- A node.  Only inside a block may it be a block itself; as a value it may be a list whose dashes
are not indented. -/
def node (inBlock loose : Bool) (r : Reader) : Nat → Except Fault (Node × Reader)
  | 0 => .error .malformed
  | fuel + 1 => do
    match ← r.peek with
    | .alias name =>
      match r.anchors.get? name with
      | some n => return (n, r.next)
      | none => throw .malformed
    | _ =>
      let (anchor, tag, r) ← r.takeProperties
      if anchor.any r.anchors.has then throw .malformed
      let body ← r.peek
      match body with
      | .scalar text plain =>
        let n := Node.scalar (scalarKind tag text plain) text
        return (n, r.next.bind anchor n)
      | _ =>
        -- the name may be used inside, where the node is not known yet
        let inside := r.bind anchor .inner
        if body = .blockEntry && loose then do
          let (items, r) ← looseItems [] inside fuel
          let n := Node.sequence (kindOf tag .seq) items
          return (n, r.bind anchor n)
        else if body = .flowSequenceStart then do
          let (items, r) ← flowItems true [] inside.next fuel
          let n := Node.sequence (kindOf tag .seq) items
          return (n, r.bind anchor n)
        else if body = .flowMappingStart then do
          let (entries, r) ← flowEntries true [] inside.next fuel
          let n := Node.mapping (kindOf tag .map) entries
          return (n, r.bind anchor n)
        else if body = .blockSequenceStart && inBlock then do
          let (items, r) ← blockItems [] inside.next fuel
          let n := Node.sequence (kindOf tag .seq) items
          return (n, r.bind anchor n)
        else if body = .blockMappingStart && inBlock then do
          let (entries, r) ← blockEntries [] inside.next fuel
          let n := Node.mapping (kindOf tag .map) entries
          return (n, r.bind anchor n)
        else if anchor.isSome || tag.isSome then
          let n := Node.scalar (scalarKind tag "" (tag.all (· == .ofString "!"))) ""
          return (n, r.bind anchor n)
        else throw .malformed

/-- A node, unless one of these tokens stands here: then nothing is written. -/
def nodeUnless (stops : List Token) (inBlock loose : Bool) (r : Reader) :
    Nat → Except Fault (Node × Reader)
  | 0 => .error .malformed
  | fuel + 1 => do
    if ← r.meets stops then return (.absent, r) else node inBlock loose r fuel

/-- The items of a block up to its end. -/
def blockItems (read : List Node) (r : Reader) : Nat → Except Fault (List Node × Reader)
  | 0 => .error .malformed
  | fuel + 1 => do
    if (← r.peek) = .blockEntry then
      let (n, r) ← nodeUnless [.blockEntry, .blockEnd] true false r.next fuel
      blockItems (n :: read) r fuel
    else
      let r ← r.expect .blockEnd
      return (read.reverse, r)

/-- The items of a list whose dashes are not indented; it has no end of its own. -/
def looseItems (read : List Node) (r : Reader) : Nat → Except Fault (List Node × Reader)
  | 0 => .error .malformed
  | fuel + 1 => do
    if (← r.peek) = .blockEntry then
      let (n, r) ← nodeUnless [.blockEntry, .key, .value, .blockEnd] true false r.next fuel
      looseItems (n :: read) r fuel
    else return (read.reverse, r)

/-- The value after a key, where these tokens mean that there is none. -/
def valueOf (stops : List Token) (inBlock : Bool) (r : Reader) :
    Nat → Except Fault (Node × Reader)
  | 0 => .error .malformed
  | fuel + 1 => do
    if (← r.peek) = .value then nodeUnless stops inBlock inBlock r.next fuel
    else return (.absent, r)

/-- The entries of a block up to its end. -/
def blockEntries (read : List (Node × Node)) (r : Reader) :
    Nat → Except Fault (List (Node × Node) × Reader)
  | 0 => .error .malformed
  | fuel + 1 => do
    if (← r.peek) = .key then
      let stops := [Token.key, .value, .blockEnd]
      let (k, r) ← nodeUnless stops true true r.next fuel
      let (v, r) ← valueOf stops true r fuel
      blockEntries ((k, v) :: read) r fuel
    else
      let r ← r.expect .blockEnd
      return (read.reverse, r)

/-- The items between brackets.  A key among them is an object with one entry. -/
def flowItems (first : Bool) (read : List Node) (r : Reader) :
    Nat → Except Fault (List Node × Reader)
  | 0 => .error .malformed
  | fuel + 1 => do
    if (← r.peek) = .flowSequenceEnd then return (read.reverse, r.next)
    else
      let r ← if first then pure r else r.expect .flowEntry
      match ← r.peek with
      | .flowSequenceEnd => return (read.reverse, r.next)
      | .key =>
        let (k, r) ← nodeUnless [.value, .flowEntry, .flowSequenceEnd] false false r.next fuel
        let (v, r) ← valueOf [.flowEntry, .flowSequenceEnd] false r fuel
        flowItems false (.mapping .map [(k, v)] :: read) r fuel
      | _ =>
        let (n, r) ← node false false r fuel
        flowItems false (n :: read) r fuel

/-- The entries between braces.  A node without a colon is a key without a value. -/
def flowEntries (first : Bool) (read : List (Node × Node)) (r : Reader) :
    Nat → Except Fault (List (Node × Node) × Reader)
  | 0 => .error .malformed
  | fuel + 1 => do
    if (← r.peek) = .flowMappingEnd then return (read.reverse, r.next)
    else
      let r ← if first then pure r else r.expect .flowEntry
      match ← r.peek with
      | .flowMappingEnd => return (read.reverse, r.next)
      | .key =>
        let (k, r) ← nodeUnless [.value, .flowEntry, .flowMappingEnd] false false r.next fuel
        let (v, r) ← valueOf [.flowEntry, .flowMappingEnd] false r fuel
        flowEntries false ((k, v) :: read) r fuel
      | _ =>
        let (k, r) ← node false false r fuel
        flowEntries false ((k, .absent) :: read) r fuel

end

/-- Past the ends of documents. -/
def skipEnds (r : Reader) : Reader :=
  { r with tokens := r.tokens.dropWhile (· == .documentEnd) }

/-- The directives before a document: at most one version, which has to be the first one, and what
each handle stands for. -/
def directives (versioned : Bool) (handles : Fields Text) : List Token →
    Except Fault (Fields Text × List Token)
  | .directive (.version major) :: rest =>
    if versioned || major != 1 then .error .malformed else directives true handles rest
  | .directive (.handle name text) :: rest =>
    if handles.has name then .error .malformed
    else directives versioned (handles ++ [(name, text)]) rest
  | .directive .other :: rest => directives versioned handles rest
  | rest => .ok (handles, rest)

/-- The handles that need no directive. -/
def standardHandles : Fields Text :=
  [("!", "!"), ("!!", Tag.standard)]

/-- A document after its directives and its start, if it has any. -/
def document (r : Reader) : Except Fault (Option (Node × Reader)) := do
  let fuel := 4 * r.tokens.length + 8
  match ← r.peek with
  | .streamEnd => return none
  | .directive _ | .documentStart =>
    let (handles, tokens) ← directives false [] r.tokens
    let r ← { r with tokens }.expect .documentStart
    let all := handles ++ standardHandles.filter fun h => !handles.has h.1
    match ← r.peek with
    | .directive _ | .documentStart | .documentEnd | .streamEnd =>
      return some (.absent, { r with handles := all })
    | _ => some <$> node true false { r with handles := all } fuel
  | _ => some <$> node true false { r with handles := standardHandles } fuel

end Reader

/-- The node of a text; a text without a document has none.  More than one document is refused. -/
def Node.ofText? (s : Text) : Except Fault (Option Node) := do
  match ← ({ tokens := Token.ofText s } : Reader).document with
  | none => return none
  | some (n, r) =>
    let _ ← r.skipEnds.expect .streamEnd
    return some n

end Yaml
end LiveCanvas
