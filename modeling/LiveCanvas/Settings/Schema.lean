import LiveCanvas.Edit.Batch
import LiveCanvas.Preview.Recompile
import LiveCanvas.Settings.Merge
import LiveCanvas.Value.Shown

/-!
# The settings

Five sections, each with a default for every field.  Fields that are only handed on may hold any
value; the others are converted when the settings are read.
-/

namespace LiveCanvas
namespace Settings

/-- How documents are made. -/
structure Documents where
  runtimeImports : Fields Text := ({} : Runtime).imports
  packageBase : Value := .text ({} : Runtime).packageBase
  stylesheets : List Text := ({} : Runtime).stylesheets
  transform : Value := .text "babel"
  presets : List Text := ["react"]
  /-- Seconds of quiet before documents are made again. -/
  debounce : Float := 0.3

/-- How the assistant is called. -/
structure Assistant where
  model : Value := .null
  /-- The names under which the environment holds keys. -/
  keyNames : List Text :=
    ["NODECANVAS_API_KEY", "NODECANVAS_API_KEY_2", "NODECANVAS_API_KEY_3"]
  /-- In seconds. -/
  timeout : Float := 60

/-- How other sessions are followed. -/
structure Sync where
  debounce : Float := 0.8
  presenceTimeout : Float := 30

/-- What is written to the journal. -/
structure Journal where
  level : Value := .null
  verbose : Value := .null
  file : Value := .null

/-- The section of a name; a missing one holds nothing. -/
def sectionOf (data : Fields Value) (name : Text) : Except Misuse (Fields Value) :=
  match data.get? name with
  | some v => v.toFields
  | none => .ok []

/-- The texts among the elements of a field. -/
def textsOf (fields : Fields Value) (name : Text) (default : List Text) :
    Except Misuse (List Text) :=
  match fields.get? name with
  | none => .ok default
  | some v => do
    let elements ← v.elements
    return elements.filterMap fun
      | .text s => some s
      | _ => none

/-- The names and addresses of a field, all as texts. -/
def importsOf : Value → Fields Text → Fields Text
  | .object fields, _ => Fields.ofList (fields.map fun (name, v) => (name, v.asText))
  | _, default => default

/-- A pair of numbers; anything else is as good as missing, except a number beyond every double. -/
def pairOf (v : Value) (default : Position) : Except Misuse Position :=
  match v with
  | .list [x, y] =>
    -- the first coordinate decides before the second one is looked at
    match x.toReal, y.toReal with
    | .error .tooLarge, _ => .error .tooLarge
    | .error _, _ => .ok default
    | .ok _, .error .tooLarge => .error .tooLarge
    | .ok _, .error _ => .ok default
    | .ok x, .ok y => .ok ⟨x, y⟩
  | _ => .ok default

/-- The section on documents. -/
def Documents.ofFields (fields : Fields Value) : Except Misuse Documents := do
  let default : Documents := {}
  let stylesheets ← textsOf fields "stylesheets" default.stylesheets
  let presets ← textsOf fields "babel_presets" default.presets
  let debounce ← Value.realField fields "debounce" default.debounce
  return {
    runtimeImports := importsOf (Value.field fields "runtime_imports") default.runtimeImports
    packageBase := (fields.get? "package_cdn").getD default.packageBase
    stylesheets
    transform := (fields.get? "transform").getD default.transform
    presets, debounce }

/-- The section on edits. -/
def placementOf (fields : Fields Value) : Except Misuse Placement := do
  let default : Placement := {}
  let fileOffset ← pairOf (Value.field fields "file_offset") default.fileOffset
  let folderOffset ← pairOf (Value.field fields "folder_offset") default.folderOffset
  let moveFolderOffset ← pairOf (Value.field fields "move_folder_offset") default.moveFolderOffset
  let fallback ← pairOf (Value.field fields "fallback_position") default.fallback
  return { fileOffset, folderOffset, moveFolderOffset, fallback }

/-- The section on the assistant. -/
def Assistant.ofFields (fields : Fields Value) : Except Misuse Assistant := do
  let default : Assistant := {}
  let keyNames ← textsOf fields "api_key_env" default.keyNames
  let timeout ← Value.realField fields "timeout" default.timeout
  return { model := Value.field fields "model", keyNames, timeout }

/-- The section on other sessions. -/
def Sync.ofFields (fields : Fields Value) : Except Misuse Sync := do
  let default : Sync := {}
  let debounce ← Value.realField fields "debounce" default.debounce
  let presenceTimeout ← Value.realField fields "presence_timeout" default.presenceTimeout
  return { debounce, presenceTimeout }

/-- The section on the journal. -/
def Journal.ofFields (fields : Fields Value) : Journal :=
  { level := Value.field fields "level"
    verbose := Value.field fields "verbose"
    file := Value.field fields "file" }

end Settings

/-- All settings. -/
structure Settings where
  documents : Settings.Documents := {}
  placement : Placement := {}
  assistant : Settings.Assistant := {}
  sync : Settings.Sync := {}
  journal : Settings.Journal := {}

namespace Settings

/-- The settings from merged layers. -/
def ofFields (data : Fields Value) : Except Misuse Settings := do
  let documents ← Documents.ofFields (← sectionOf data "compiler")
  let placement ← placementOf (← sectionOf data "tools")
  let assistant ← Assistant.ofFields (← sectionOf data "assistant")
  let sync ← Sync.ofFields (← sectionOf data "sync")
  let journal ← sectionOf data "logging"
  return { documents, placement, assistant, sync, journal := Journal.ofFields journal }

/-- The settings from layers. -/
def ofLayers (layers : List Value) : Except Misuse Settings := do
  let data ← mergeLayers layers
  ofFields data

/-- What documents use from outside the graph, with a base for packages. -/
def Documents.runtime (d : Documents) (packageBase : Text) : Runtime :=
  { imports := d.runtimeImports, packageBase, stylesheets := d.stylesheets }

/-- The compiler of these settings.  A base that is not a text cannot be put before the name of a
package, so it matters only to documents with a package. -/
def Documents.compiler (d : Documents) (transform : Transform) (nodes : List Node)
    (connections : List Connection) (preview : NodeId) (reload : Option Text) :
    Except Misuse CompiledDocument :=
  match d.packageBase with
  | .text base => .ok (compile (d.runtime base) transform preview nodes connections reload)
  | _ =>
    if ((documentMembers preview nodes connections).filterMap Compile.namedPackage?).isEmpty then
      .ok (compile (d.runtime "") transform preview nodes connections reload)
    else .error .wrongKind

/-- The compiler of these settings for the previews of a graph. -/
def Documents.previewCompiler (d : Documents) (transform : Transform) : PreviewCompiler :=
  fun g preview reload => d.compiler transform g.nodes g.connections preview reload

/-- The transform that the settings name. -/
def Documents.transformChoice (d : Documents) : TransformChoice :=
  if d.transform.isText "none" then .unchanged else .presets d.presets

end Settings
end LiveCanvas
