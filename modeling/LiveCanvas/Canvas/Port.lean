import LiveCanvas.Canvas.Node
import LiveCanvas.Text.Cut
import LiveCanvas.Text.LowerCase

/-!
# Ports

Ports are never stored.  The id of a port is built from the id of its node, its direction and its
role, with hyphens between them, so it can be made again at any time; direction and role are read
off the last two parts.
-/

namespace LiveCanvas

/-- Whether a port takes connections in or gives them out. -/
inductive Direction
  | input
  | output
deriving DecidableEq, Repr

/-- The part of a port id that tells the direction. -/
def Direction.wire : Direction → Text
  | input => "in"
  | output => "out"

/-- What a port is for. -/
abbrev Role := Text

namespace Role

/-- Files and packages that a code file imports. -/
def imports : Role := "imports"

/-- The document that a preview shows. -/
def dom : Role := "dom"

/-- The console lines of a preview. -/
def logs : Role := "logs"

/-- The preview that a terminal listens to. -/
def source : Role := "source"

/-- The package that a search found. -/
def package : Role := "pkg"

/-- The files in a folder. -/
def files : Role := "files"

/-- The folder as a whole. -/
def folder : Role := "folder"

end Role

/-- A port of a node. -/
structure Port where
  id : Text
  direction : Direction
  role : Role
  label : Text
  /-- The kinds that may be connected here; none when any may. -/
  accepts : Option (List Kind) := none

namespace Port

/-- The id of a port. -/
def idOf (node : NodeId) (direction : Direction) (role : Role) : Text :=
  node ++ "-" ++ direction.wire ++ "-" ++ role

/-- The id of an input. -/
def inputId (node : NodeId) (role : Role) : Text :=
  idOf node .input role

/-- The role that a port id tells: what follows its last hyphen. -/
def roleOf (port : Text) : Role :=
  Text.ofList (Text.afterLast '-' port.toList)

/-- The direction that a part of a port id tells. -/
def directionOfPart? (part : List Rune) : Option Direction :=
  if part == Direction.input.wire.toList then some .input
  else if part == Direction.output.wire.toList then some .output
  else none

/-- The direction that a port id tells: the part between its last two hyphens. -/
def directionOf? (port : Text) : Option Direction :=
  match Text.cutLast? '-' port.toList with
  | none => none
  | some (front, _) =>
    match Text.cutLast? '-' front with
    | none => none
    | some (_, part) => directionOfPart? part

/-- The role occurs in the role that the port id tells; case does not matter. -/
def matchesRole (port : Text) (role : Role) : Bool :=
  Text.occursIn (Text.lower role).toList (Text.lower (roleOf port)).toList

/-- The roles of inputs that take one connection at most. -/
def singularRoles : List Role := [Role.dom]

/-- The port id is that of an input which takes one connection at most. -/
def isSingularInput (port : Text) : Bool :=
  directionOf? port == some .input && singularRoles.contains (roleOf port)

/-- The port takes one connection at most. -/
def isSingular (p : Port) : Bool :=
  p.direction == .input && singularRoles.contains p.role

/-- A node of this kind may be connected here. -/
def acceptsKind (p : Port) (kind : Kind) : Bool :=
  p.accepts.all (·.contains kind)

/-- An input of a node. -/
def input (node : NodeId) (role : Role) (label : Text) (accepts : List Kind) : Port :=
  { id := idOf node .input role, direction := .input, role, label, accepts := some accepts }

/-- An output of a node. -/
def output (node : NodeId) (role : Role) (label : Text) : Port :=
  { id := idOf node .output role, direction := .output, role, label }

end Port

/-- The kinds that a code file can import. -/
def Kind.importable : List Kind := [.code, .packageSearch, .folder]

/-- The ports of a node, inputs first. -/
def Kind.ports (kind : Kind) (node : NodeId) : List Port :=
  match kind with
  | code =>
    [.input node Role.imports "Imports" Kind.importable, .output node Role.dom "DOM/File"]
  | preview => [.input node Role.dom "DOM" [.code], .output node Role.logs "Logs"]
  | terminal => [.input node Role.source "Source" [.preview]]
  | packageSearch => [.output node Role.package "Package"]
  | folder =>
    [.input node Role.files "Files" [.code, .image, .note], .output node Role.folder "Export"]
  | image => [.output node Role.dom "File"]
  | note => [.output node Role.dom "File"]
  | chat => []

/-- The id of the first output of a node. -/
def Node.outputPort? (n : Node) : Option Text :=
  ((n.kind.ports n.id).find? fun p => p.direction == .output).map (·.id)

example : Port.roleOf "a-in-dom" = "dom" ∧ Port.directionOf? "a-in-dom" = some .input ∧
    Port.isSingularInput "a-in-dom" = true ∧ Port.directionOf? "in-dom" = none := by
  decide +kernel

end LiveCanvas
