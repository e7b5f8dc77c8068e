import LiveCanvas.Preview.Compile

/-!
# Compiling member by member

A compile passes through the members of a document and gathers what the page needs: where names
lead, the handles of the modules and what is to be told about scripts without code.  A transform may
stop in the middle of that, and so may the look-up of a handle.  What was gathered until then stays
gathered; work that catches a failure goes on from there.
-/

namespace LiveCanvas

/-- What stops a compile. -/
inductive CompileFault
  /-- A script has no transformed code. -/
  | untransformed (failure : TransformFailure)
  /-- No handle was gathered for a script. -/
  | noHandle (node : NodeId)
deriving DecidableEq, Repr

/-- What a compile has gathered. -/
structure Gathered where
  /-- Where names lead. -/
  table : Fields Text := []
  /-- The handles of the modules by their scripts. -/
  handles : Fields Text := []
  /-- Why scripts could not be transformed. -/
  failures : List Text := []
deriving DecidableEq, Repr

/-- What a compile hands over. -/
structure CompiledPage where
  preview : NodeId
  html : Text
  fingerprint : Text
  root : Option NodeId := none
  handles : Fields Text := []
  failures : List Text := []
deriving DecidableEq, Repr

/-- What is handed over of a document: of each module only its handle. -/
def CompiledDocument.handedOver (document : CompiledDocument) : CompiledPage where
  preview := document.preview
  html := document.html
  fingerprint := document.fingerprint
  root := document.root
  handles := document.modules.map fun m => (m.node, m.handle)
  failures := document.failures

/-- Work on a document: it comes to something or stops with a fault, and keeps what it gathered. -/
abbrev CompileWork (α : Type) := EStateM CompileFault Gathered α

namespace CompileWork

variable (runtime : Runtime) (transform : Transform) (nodes : List Node)
  (connections : List Connection)

/-- Lets a name lead somewhere unless it leads somewhere already. -/
def claim (name target : Text) : CompileWork Unit :=
  modify fun s => { s with table := s.table.setDefault name target }

/-- What the transform makes of a source; it may stop here. -/
def transformed (source file : Text) : CompileWork Text :=
  MonadExcept.ofExcept ((transform source file).mapError CompileFault.untransformed)

/-- What the page runs for a script.  A failure of the transform is caught and told, and code that
reports it takes the place of the script's. -/
def codeOf (n : Node) : CompileWork Text := do
  let source := Imports.sourceOf runtime.packageBase nodes connections n
  tryCatch (transformed transform source n.title) fun
    | .untransformed failure => do
      let message := failure.message n.title
      modify fun s => { s with failures := s.failures ++ [message] }
      return Document.errorStub message
    | fault => throw fault

/-- Claims the name of a package. -/
def addPackage (n : Node) : CompileWork Unit :=
  match Compile.namedPackage? n with
  | some name => claim name (runtime.packageBase ++ name)
  | none => return

/-- Makes the module of a script and claims the names under which it can be imported. -/
def addScript (n : Node) : CompileWork Unit := do
  if Naming.fileRole? n = some .script then
    let handle := moduleHandle (← codeOf runtime transform nodes connections n)
    modify fun s => { s with handles := s.handles.set n.id handle }
    (Naming.referenceKeys n nodes connections).forM fun key => claim key handle

/-- What starts a page: the module of a root that is a script. -/
def entryOf (root : Node) : CompileWork Text := do
  if Naming.fileRole? root = some .script then
    match (← get).handles.get? root.id with
    | some handle => return Document.entryModule handle
    | none => throw (.noHandle root.id)
  else return ""

/-- The page of a preview with a root, made of what was gathered from its members. -/
def assemble (preview : NodeId) (root : Node) (members : List Node) (entry : Text)
    (reload : Option Text) (gathered : Gathered) : CompiledPage :=
  let html := Document.Page.render
    { previewId := preview
      css := Compile.styles members
      importMap := Compile.importMap gathered.table
      body := if Naming.fileRole? root = some .markup then
          Markup.linkModules root.content gathered.table
        else Compile.mountBody
      entry
      stylesheets := runtime.stylesheets }
  { preview, root := some root.id
    html := html ++ (reload.map Compile.reloadMark).getD ""
    fingerprint := Compile.fingerprint html
    handles := gathered.handles
    failures := gathered.failures }

/-- Compiles the document of a preview with a root. -/
def compileRoot (preview : NodeId) (root : Node) (reload : Option Text) :
    CompileWork CompiledPage := do
  let members := Compile.members root nodes connections
  modify fun s => { s with table := runtime.imports }
  members.forM (addPackage runtime)
  members.forM (addScript runtime transform nodes connections)
  let entry ← entryOf root
  return assemble runtime preview root members entry reload (← get)

/-- Compiles the document of a preview. -/
def compile (preview : NodeId) (reload : Option Text) : CompileWork CompiledPage :=
  match Traversal.singleSource preview Role.dom nodes connections with
  | some root => compileRoot runtime transform nodes connections preview root reload
  | none =>
    let html := Document.placeholder Document.placeholderHint
    return { preview, html, fingerprint := Compile.fingerprint html }

end CompileWork
end LiveCanvas
