import LiveCanvas.Canvas.Traversal
import LiveCanvas.Preview.Naming
import LiveCanvas.Text.Word

/-!
# Imports of wired files

A script that is wired to a file or package but never mentions it gets an import line for it.  A
text mentions a dependency when one of its names occurs anywhere, or when the identifier that would
be bound stands somewhere on its own.
-/

namespace LiveCanvas
namespace Imports

/-- A character that continues an identifier. -/
def continuesIdentifier (c : Rune) : Bool :=
  Text.isWord c || c == '$'

/-- The identifier stands somewhere in the text with nothing that continues it on either side. -/
def standsAlone (identifier : List Rune) (before : Option Rune) : List Rune → Bool
  | [] => false
  | c :: cs =>
    (identifier.isPrefixOf (c :: cs) && !before.any continuesIdentifier &&
      !((c :: cs).drop identifier.length).head?.any continuesIdentifier) ||
    standsAlone identifier (some c) cs

/-- Something that a script may import. -/
structure Dependency where
  /-- The names that a script would mention. -/
  names : List Text
  /-- What an import line imports from. -/
  specifier : Text
  /-- What an import line binds. -/
  identifier : Text
deriving DecidableEq, Repr

/-- What a wired node offers to a script: a package with a name, or a script file. -/
def offered? (packageBase : Text) (nodes : List Node) (connections : List Connection) (n : Node) :
    Option Dependency :=
  if n.kind = .packageSearch then
    let name := Naming.packageName n
    if name = "" then none
    else some ⟨[name], packageBase ++ name, Naming.identifier name⟩
  else if Naming.fileRole? n = some .script then
    some ⟨[n.title, Path.pathOf n nodes connections], "./" ++ n.title, Naming.identifier n.title⟩
  else none

/-- The text mentions the dependency. -/
def isMentioned (text : List Rune) (d : Dependency) : Bool :=
  d.names.any (fun name => Text.occursIn name.toList text) ||
    standsAlone d.identifier.toList none text

/-- The line that imports a dependency. -/
def Dependency.line (d : Dependency) : Text :=
  "import * as " ++ d.identifier ++ " from \"" ++ d.specifier ++ "\";"

/-- The dependencies that a script is wired to and does not mention. -/
def unmentioned (packageBase : Text) (nodes : List Node) (connections : List Connection)
    (n : Node) : List Dependency :=
  ((Traversal.allSources n.id Role.imports nodes connections).filterMap
    (offered? packageBase nodes connections)).filter fun d => !isMentioned n.content.toList d

/-- The content of a script below an import line for each dependency it does not mention. -/
def sourceOf (packageBase : Text) (nodes : List Node) (connections : List Connection)
    (n : Node) : Text :=
  match unmentioned packageBase nodes connections n with
  | [] => n.content
  | missing => Text.unlines (missing.map Dependency.line) ++ "\n" ++ n.content

example : standsAlone (Text.toList "React") none (Text.toList "new React()") = true ∧
    standsAlone (Text.toList "React") none (Text.toList "ReactDOM $React") = false := by
  decide +kernel

end Imports
end LiveCanvas
