import LiveCanvas.Disk.Path
import LiveCanvas.Settings.Schema

/-!
# The environment

Named texts from outside that choose where settings are looked for, override two of them, and hold
the keys of the assistant's service.  An empty text counts as none.
-/

namespace LiveCanvas

/-- The named texts of the environment. -/
abbrev Environment := Fields Text

namespace Environment

/-- The text of a name when it is not empty. -/
def nonempty? (env : Environment) (name : Text) : Option Text :=
  (env.get? name).filter (· != "")

/-- The keys that stand under these names, in their order. -/
def keys (env : Environment) (names : List Text) : List Text :=
  names.filterMap env.nonempty?

/-- A section with one field, when the environment has a text for it. -/
def override (env : Environment) (name area field : Text) : Fields Value :=
  match env.nonempty? name with
  | some s => [(area, .object [(field, .text s)])]
  | none => []

/-- The layer of settings that the environment holds. -/
def layer (env : Environment) : Value :=
  .object (env.override "NODECANVAS_LOG" "logging" "file" ++
    env.override "NODECANVAS_MODEL" "assistant" "model")

/-- The user's directory; slashes at its end do not count. -/
def home (env : Environment) : DiskPath :=
  match env.get? "HOME" with
  | none => .ofText "/root"
  | some s =>
    match Text.dropEndWhile (· == .char '/') s.toList with
    | [] => .ofText "/"
    | cs => .ofText (Text.ofList cs)

end Environment

namespace Settings

/-- The file for every user. -/
def systemFile : DiskPath :=
  (DiskPath.ofText "/etc").below ["nodecanvas", "config.yaml"]

/-- The file of one user. -/
def userFile (env : Environment) : DiskPath :=
  match env.nonempty? "XDG_CONFIG_HOME" with
  | some s => (DiskPath.ofText s).below ["nodecanvas", "config.yaml"]
  | none => env.home.below [".config", "nodecanvas", "config.yaml"]

/-- The file of a project. -/
def projectFile (root : DiskPath) : DiskPath :=
  root.below [".nodecanvas", "config.yaml"]

/-- The files that hold settings, the weakest first. -/
def filesFor (env : Environment) (root : Option DiskPath) : List DiskPath :=
  [systemFile, userFile env] ++ (root.map projectFile).toList

example : (filesFor [("HOME", "/h/")] (some (.ofText "."))).map DiskPath.text =
    ["/etc/nodecanvas/config.yaml", "/h/.config/nodecanvas/config.yaml",
      ".nodecanvas/config.yaml"].map Text.ofString := by
  decide +kernel

end Settings
end LiveCanvas
