import LiveCanvas.Digest.Base64
import LiveCanvas.Digest.Sha256
import LiveCanvas.Preview.Document
import LiveCanvas.Preview.Imports
import LiveCanvas.Preview.Markup
import LiveCanvas.Preview.Transform

/-!
# Compiled documents

A preview shows one page that is made from the file wired into it and everything that file depends
on.  Styles are joined, every script becomes a module of its own, and a table leads from each
spelling of a dependency to its module or address.  Nothing here fails: without a root there is a
page that says so, and a script that cannot be transformed is replaced by a module that reports it.
-/

namespace LiveCanvas

/-- What documents use from outside the graph. -/
structure Runtime where
  /-- Names that every script may import, and where they lead. -/
  imports : Fields Text :=
    [("react", "https://esm.sh/react@18.2.0"),
      ("react-dom/client", "https://esm.sh/react-dom@18.2.0/client")]
  /-- What comes before the name of a package in its address. -/
  packageBase : Text := "https://esm.sh/"
  stylesheets : List Text := ["https://cdn.tailwindcss.com"]
deriving DecidableEq, Repr

/-- A script of a document. -/
structure Module where
  node : NodeId
  file : Text
  /-- The content with imports added. -/
  source : Text
  /-- What the page runs. -/
  code : Text
  failure : Option Text
deriving DecidableEq, Repr

/-- The address of code that travels inside the document. -/
def moduleHandle (code : Text) : Text :=
  Markup.moduleStart ++ Base64.ofText code

/-- The address of a module. -/
def Module.handle (m : Module) : Text := moduleHandle m.code

/-- The result of a compile. -/
structure CompiledDocument where
  preview : NodeId
  html : Text
  /-- The digest of the page without its reload mark. -/
  fingerprint : Text
  root : Option NodeId := none
  modules : List Module := []
deriving DecidableEq, Repr

/-- Why scripts could not be transformed, in the order of the scripts. -/
def CompiledDocument.failures (document : CompiledDocument) : List Text :=
  document.modules.filterMap (·.failure)

namespace Compile

/-- The root and everything it depends on. -/
def members (root : Node) (nodes : List Node) (connections : List Connection) : List Node :=
  root :: Traversal.closure root nodes connections

/-- The name of the package that a node stands for, if it stands for one and has a name. -/
def namedPackage? (n : Node) : Option Text :=
  if n.kind = .packageSearch then some (Naming.packageName n) |>.filter (· != "") else none

/-- The module of a script. -/
def moduleOf (packageBase : Text) (transform : Transform) (nodes : List Node)
    (connections : List Connection) (n : Node) : Module :=
  let source := Imports.sourceOf packageBase nodes connections n
  match transform source n.title with
  | .ok code => ⟨n.id, n.title, source, code, none⟩
  | .error failure =>
    let message := failure.message n.title
    ⟨n.id, n.title, source, Document.errorStub message, some message⟩

/-- The scripts among some nodes. -/
def scripts (members : List Node) : List Node :=
  members.filter fun n => Naming.fileRole? n == some .script

/-- Adds entries whose names are not taken yet. -/
def addEntries (table : Fields Text) (entries : List (Text × Text)) : Fields Text :=
  entries.foldl (fun table entry => table.setDefault entry.1 entry.2) table

/-- Where packages lead. -/
def packageEntries (packageBase : Text) (members : List Node) : List (Text × Text) :=
  (members.filterMap namedPackage?).map fun name => (name, packageBase ++ name)

/-- Where the spellings of a script lead. -/
def moduleEntries (nodes : List Node) (connections : List Connection) (n : Node) (m : Module) :
    List (Text × Text) :=
  (Naming.referenceKeys n nodes connections).map fun key => (key, m.handle)

/-- The styles of the style files, one below the other, each under its title. -/
def styles (members : List Node) : Text :=
  Text.join ((members.filter fun n => Naming.fileRole? n == some .style).map fun n =>
    "\n/* " ++ n.title ++ " */\n" ++ n.content ++ "\n")

/-- The body of a page whose root is not markup. -/
def mountBody : Text :=
  "<div id=\"" ++ Document.mountPoint ++ "\"></div>"

/-- The digest of a page. -/
def fingerprint (html : Text) : Text := Sha256.hex html

/-- The mark that makes a page differ from the one before. -/
def reloadMark (token : Text) : Text :=
  "<!-- reload: " ++ token ++ " -->\n"

/-- The modules of the scripts among some nodes, in order. -/
def modulesOf (packageBase : Text) (transform : Transform) (nodes : List Node)
    (connections : List Connection) (members : List Node) : List Module :=
  (scripts members).map (moduleOf packageBase transform nodes connections)

/-- Where names lead.  A name belongs to whoever claims it first: the runtime, then packages, then
scripts. -/
def table (runtime : Runtime) (nodes : List Node) (connections : List Connection)
    (members : List Node) (modules : List Module) : Fields Text :=
  let packages := addEntries runtime.imports (packageEntries runtime.packageBase members)
  addEntries packages
    (((scripts members).zip modules).flatMap fun (n, m) => moduleEntries nodes connections n m)

/-- The table as the page has it. -/
def importMap (table : Fields Text) : Value :=
  .object [("imports", .object (table.map fun (name, target) => (name, .text target)))]

/-- The page of a preview with a root. -/
def page (runtime : Runtime) (preview : NodeId) (root : Node) (members : List Node)
    (modules : List Module) (table : Fields Text) : Document.Page :=
  let role := Naming.fileRole? root
  { previewId := preview
    css := styles members
    importMap := importMap table
    body := if role = some .markup then Markup.linkModules root.content table else mountBody
    entry := if role = some .script then
        ((modules.find? (·.node == root.id)).map fun m => Document.entryModule m.handle).getD ""
      else ""
    stylesheets := runtime.stylesheets }

/-- The document of a preview with a root. -/
def withRoot (runtime : Runtime) (transform : Transform) (preview : NodeId) (root : Node)
    (nodes : List Node) (connections : List Connection) (reload : Option Text) : CompiledDocument :=
  let members := members root nodes connections
  let modules := modulesOf runtime.packageBase transform nodes connections members
  let table := table runtime nodes connections members modules
  -- the mark comes after the digest, so a forced document has the digest of a plain one
  let html := (page runtime preview root members modules table).render
  { preview, root := some root.id, modules
    html := html ++ (reload.map reloadMark).getD ""
    fingerprint := fingerprint html }

end Compile

/-- The document of a preview.  One that is forced by a token ends in a mark and is otherwise the
same. -/
def compile (runtime : Runtime) (transform : Transform) (preview : NodeId) (nodes : List Node)
    (connections : List Connection) (reload : Option Text) : CompiledDocument :=
  match Traversal.singleSource preview Role.dom nodes connections with
  | some root => Compile.withRoot runtime transform preview root nodes connections reload
  | none =>
    let html := Document.placeholder Document.placeholderHint
    { preview, html, fingerprint := Compile.fingerprint html }

/-- The members of a preview's document; none without a root. -/
def documentMembers (preview : NodeId) (nodes : List Node) (connections : List Connection) :
    List Node :=
  ((Traversal.singleSource preview Role.dom nodes connections).map fun root =>
    Compile.members root nodes connections).getD []

end LiveCanvas
