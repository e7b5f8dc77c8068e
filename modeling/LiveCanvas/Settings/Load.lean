import LiveCanvas.Disk.Basic
import LiveCanvas.Settings.Environment
import LiveCanvas.Yaml.Data

/-!
# Loading settings

The layers of settings are the files for every user, of one user and of a project, and the
environment above them all.  A file that cannot be read counts as empty.
-/

namespace LiveCanvas
namespace Settings

/-- Why there are no settings. -/
inductive LoadFault
  /-- A file holds something that cannot be read. -/
  | file (fault : Yaml.Fault)
  /-- A setting is of the wrong kind. -/
  | setting (misuse : Misuse)
deriving DecidableEq, Repr

/-- The fields of a file of settings. -/
def readFile (disk : Disk) (p : DiskPath) : Except Yaml.Fault (Fields Value) :=
  match disk.read p with
  | .ok text => Yaml.readFields text
  | .error _ => .ok []

/-- The layers of settings, the weakest first. -/
def layersFor (disk : Disk) (env : Environment) (root : Option DiskPath) :
    Except Yaml.Fault (List Value) := do
  let files ← (filesFor env root).mapM (readFile disk)
  return files.map Value.object ++ [env.layer]

/-- The settings of a project, or those outside of any project. -/
def load (disk : Disk) (env : Environment) (root : Option DiskPath) :
    Except LoadFault Settings := do
  let layers ← (layersFor disk env root).mapError LoadFault.file
  (ofLayers layers).mapError LoadFault.setting

end Settings
end LiveCanvas
