import LiveCanvas.Canvas.Path
import LiveCanvas.Text.Blank

/-!
# Names of files and packages

The title of a code file tells what it is in a document.  The other names follow from the title:
the identifier that stands for the file in a script, and every spelling under which it can be named
there.
-/

namespace LiveCanvas

/-- What a file is in a document. -/
inductive FileRole
  | style
  | markup
  | script
deriving DecidableEq, Repr

/-- The name of a role. -/
def FileRole.name : FileRole → Text
  | style => "style"
  | markup => "markup"
  | script => "script"

namespace Naming

/-- The title ends in this suffix; case does not matter. -/
def endsIn (title suffix : Text) : Bool :=
  suffix.toList.isSuffixOf (Text.lower title).toList

/-- What a node is in a document; only code files are anything. -/
def fileRole? (n : Node) : Option FileRole :=
  if n.kind = .code then
    if endsIn n.title ".css" then some .style
    else if endsIn n.title ".html" || endsIn n.title ".htm" then some .markup
    else some .script
  else none

/-- The name without its extension.  A dot at the start, or one before a slash, begins none. -/
def stripExtension (name : Text) : Text :=
  match Text.cutLast? '.' name.toList with
  | some (base, extension) =>
    if base.isEmpty || extension.contains '/' then name else Text.ofList base
  | none => name

/-- A character that may stand in an identifier. -/
def isIdentifierChar (c : Rune) : Bool :=
  c.isAlphanum || c == '_' || c == '$'

/-- The characters of an identifier that stand for a name. -/
def identifierChars (name : List Rune) : List Rune :=
  match name.map fun c => if isIdentifierChar c then c else '_' with
  | [] => ['_']
  | c :: rest => if c.isDigit then .char '_' :: c :: rest else c :: rest

/-- The identifier that stands for a file or package in a script: its last path part without the
extension, with an underscore for every character that an identifier cannot have. -/
def identifier (name : Text) : Text :=
  let file := Text.ofList (Text.afterLast '/' name.toList)
  Text.ofList (identifierChars (stripExtension file).toList)

/-- The ways to write a name in an import. -/
def spellings (name : Text) : List Text :=
  [name, "./" ++ name, "/" ++ name]

/-- Every spelling under which a script may import a node, each once. -/
def referenceKeys (n : Node) (nodes : List Node) (connections : List Connection) : List Text :=
  ([n.title, Path.pathOf n nodes connections].flatMap fun name =>
    [name, stripExtension name].flatMap spellings).eraseDups

/-- The package that a package search stands for: its query, or else its title. -/
def packageName (n : Node) : Text :=
  let query := Text.trim n.content
  if query = "" then Text.trim n.title else query

example : stripExtension "a.b.js" = "a.b" ∧ stripExtension ".css" = ".css" ∧
    stripExtension "a.b/c" = "a.b/c" := by
  decide +kernel

example : identifier "my-utils.js" = "my_utils" ∧ identifier "3d.js" = "_3d" ∧
    identifier "" = "_" := by
  decide +kernel

end Naming
end LiveCanvas
