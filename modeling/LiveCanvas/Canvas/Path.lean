import LiveCanvas.Canvas.Traversal

/-!
# Paths of files

A file that is wired into a folder lies at `folder/file`, any other at its title.  Folders nest one
level deep.  A path is looked up among the titles first, so a title that looks like a path wins.
-/

namespace LiveCanvas
namespace Path

/-- The folder that a node lies in: that of its first connection into the files of a folder. -/
def folderOf (n : Node) (nodes : List Node) (connections : List Connection) : Option Node :=
  (connections.filter fun c => c.source == n.id && Port.matchesRole c.targetPort Role.files)
    |>.findSome? fun c => (nodeWithId? nodes c.target).filter (·.kind == .folder)

/-- The path of a node. -/
def pathOf (n : Node) (nodes : List Node) (connections : List Connection) : Text :=
  match folderOf n nodes connections with
  | some folder => folder.title ++ "/" ++ n.title
  | none => n.title

/-- The first node with this title, or else the first one at this path. -/
def resolve (path : Text) (nodes : List Node) (connections : List Connection) : Option Node :=
  match nodes.find? fun n => n.title == path with
  | some n => some n
  | none => nodes.find? fun n => pathOf n nodes connections == path

/-- The file name of a path, and its folder unless that is empty. -/
def split (path : Text) : Text × Option Text :=
  match Text.cutLast? '/' path.toList with
  | none => (path, none)
  | some (folder, file) =>
    (Text.ofList file, if folder.isEmpty then none else some (Text.ofList folder))

example : split "lib/a.js" = ⟨"a.js", some (.ofString "lib")⟩ ∧ split "a.js" = ⟨"a.js", none⟩ ∧
    split "/a.js" = ⟨"a.js", none⟩ := by
  decide +kernel

end Path
end LiveCanvas
