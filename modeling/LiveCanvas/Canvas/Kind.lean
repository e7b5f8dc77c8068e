import LiveCanvas.Text.Basic

/-!
# Kinds of nodes

What a node on the canvas is.  The kind decides which content the node carries and which ports it
has.
-/

namespace LiveCanvas

/-- What a node on the canvas is. -/
inductive Kind
  | code
  | preview
  | terminal
  | chat
  | packageSearch
  | image
  | note
  | folder
deriving DecidableEq, Repr

namespace Kind

/-- Every kind. -/
def all : List Kind :=
  [code, preview, terminal, chat, packageSearch, image, note, folder]

/-- The name of a kind in files and payloads. -/
def wire : Kind → Text
  | code => "CODE"
  | preview => "PREVIEW"
  | terminal => "TERMINAL"
  | chat => "AI_CHAT"
  | packageSearch => "NPM"
  | image => "IMAGE"
  | note => "TEXT"
  | folder => "FOLDER"

/-- The kind with a name. -/
def ofWire? (name : Text) : Option Kind :=
  all.find? fun kind => kind.wire == name

/-- The kinds that can lie in a folder. -/
def isFile : Kind → Bool
  | code | image | note => true
  | preview | terminal | chat | packageSearch | folder => false

@[simp] theorem ofWire?_wire (kind : Kind) : ofWire? kind.wire = some kind := by
  cases kind <;> decide

/-- How the content of a node is to be read. -/
inductive Payload
  | script
  | query
  | markdown
  | image
  | empty
deriving DecidableEq, Repr

/-- The reading that a kind gives to its content. -/
def payload : Kind → Payload
  | code => .script
  | packageSearch => .query
  | note => .markdown
  | image => .image
  | preview | terminal | chat | folder => .empty

end Kind
end LiveCanvas
