import LiveCanvas.Canvas.Graph
import LiveCanvas.Canvas.Traversal
import LiveCanvas.Preview.Naming

/-!
# Importing a package

A package can be imported by every code file it feeds: each gets an import line at its start, unless
the address of the package occurs in it already.
-/

namespace LiveCanvas
namespace PackageImport

/-- The identifier that stands for a package. -/
def identifier (name : Text) : Text :=
  Text.ofList (name.toList.map fun c => if c.isAlphanum then c else '_')

/-- The line that imports a package from its address. -/
def line (name address : Text) : Text :=
  "import * as " ++ identifier name ++ " from '" ++ address ++ "';\n"

/-- The code file with this id, if the import is to be added to it. -/
def wants (g : Graph) (permits : NodeId → Bool) (address : Text) (id : NodeId) : Bool :=
  match g.node? id with
  | some n =>
    n.kind == .code && !Text.occursIn address.toList n.content.toList && permits id
  | none => false

/-- Adds a line in front of a file. -/
def prepend (line : Text) (g : Graph) (id : NodeId) : Graph :=
  g.modifyNode id fun n => { n with content := line ++ n.content }

/-- The name of the package that a node of the graph stands for. -/
def packageAt? (g : Graph) (id : NodeId) : Option Text :=
  ((g.node? id).filter (·.kind == .packageSearch)).map Naming.packageName |>.filter (· != "")

/-- The code files that the import is to be added to. -/
def targets (g : Graph) (id : NodeId) (address : Text) (permits : NodeId → Bool) : List NodeId :=
  (Traversal.consumers id g.connections).filter (wants g permits address)

/-- Adds the import of a package to every code file that it feeds; also how many those are. -/
def inject (g : Graph) (id : NodeId) (packageBase : Text) (permits : NodeId → Bool) :
    Nat × Graph :=
  match packageAt? g id with
  | none => (0, g)
  | some name =>
    let address := packageBase ++ name
    let ids := targets g id address permits
    (ids.length, ids.foldl (prepend (line name address)) g)

end PackageImport
end LiveCanvas
