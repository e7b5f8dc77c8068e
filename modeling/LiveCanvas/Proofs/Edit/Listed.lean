import LiveCanvas.Chat.Prompt
import LiveCanvas.Proofs.Edit.Refused
import LiveCanvas.Proofs.Edit.Writing

/-!
# Writing to a listed path

The assistant is shown the files of a project by their paths, and a write looks for its file among
the titles before it looks among the paths.  If the paths are distinct, what stands in the way of a
file at its own path is a node that has this path as its title and lies in a folder.  A file that is
found at its path stays where it is when it is written there.
-/

namespace LiveCanvas
namespace Path

variable {nodes : List Node} {connections : List Connection} {n : Node}

/-- With distinct paths every other node that is titled like the path of a node is in a folder. -/
theorem exists_folderOf_of_title_eq (hpaths : (nodes.map (pathOf · nodes connections)).Nodup)
    (hn : n ∈ nodes) {m : Node} (hm : m ∈ nodes) (htitle : m.title = pathOf n nodes connections)
    (hne : m ≠ n) : ∃ folder, folderOf m nodes connections = some folder := by
  cases hfolder : folderOf m nodes connections with
  | some folder => exact ⟨folder, rfl⟩
  | none =>
      have hpath : pathOf m nodes connections = pathOf n nodes connections := by
        rw [← htitle, pathOf, hfolder]
      exact absurd (List.inj_on_of_nodup_map hpaths hm hn hpath) hne

/-- With distinct paths the path of a node leads to it, unless it is the title of another one. -/
theorem resolve_pathOf_iff (hpaths : (nodes.map (pathOf · nodes connections)).Nodup)
    (hn : n ∈ nodes) :
    resolve (pathOf n nodes connections) nodes connections = some n ↔
      ∀ m, nodes.find? (fun m => m.title == pathOf n nodes connections) = some m → m = n := by
  unfold resolve
  cases nodes.find? fun m => m.title == pathOf n nodes connections with
  | some m => simp
  | none =>
      have hfind : nodes.find? (fun m => pathOf m nodes connections ==
          pathOf n nodes connections) = some n :=
        find?_of_nodup_map hpaths hn
      simp [hfind]

/-- What lies at a path is below the folder that the path names. -/
theorem filter_isBelow_eq_none :
    (split (pathOf n nodes connections)).2.filter (fun folder =>
      !isBelow folder n nodes connections) = none := by
  rw [Option.filter_eq_none_iff]
  intro folder hfolder
  have hpath := (split_eq_some (Prod.ext rfl hfolder)).1
  rw [isBelow_of_pathOf_eq hpath]
  decide

end Path

/-- The line that lists a file shows its path.  When the paths of all nodes are distinct, the path
leads back to the file unless the first node that has it as its title is another one, which then
lies in a folder; and a write to the path of a file to which it leads gives the file its content and
changes nothing else. -/
theorem resolve_pathOf_listed {g : Graph} {n : Node}
    (hpaths : (g.nodes.map (Path.pathOf · g.nodes g.connections)).Nodup) (hn : n ∈ g.nodes)
    (hfile : n.isFile = true) :
    let path := Path.pathOf n g.nodes g.connections
    Prompt.listingLine? g.nodes g.connections n =
      some ("- " ++ path ++ " (" ++ n.kind.wire ++ ")") ∧
    (Path.resolve path g.nodes g.connections = some n ↔
      ∀ m, g.nodes.find? (fun m => m.title == path) = some m → m = n) ∧
    (∀ m ∈ g.nodes, m.title = path → m ≠ n →
      ∃ folder, Path.folderOf m g.nodes g.connections = some folder) ∧
    ∀ (setting : BatchSetting) (ids : IdSource) (call : Value) (content : Text),
      (idsOf g.nodes).Nodup → ids.FreshFor g →
      Command.ofCall call = .ok (.updateFile path content) → setting.permits g n.id = true →
      Path.resolve path g.nodes g.connections = some n →
        (runBatch setting g ids [call]).graph = g.setContent n.id content := by
  intro path
  refine ⟨?_, Path.resolve_pathOf_iff hpaths hn, ?_, ?_⟩
  · have hkind : n.kind ≠ .folder := by
      intro hfolder
      rw [Node.isFile, hfolder] at hfile
      cases hfile
    rw [Prompt.listingLine?, if_neg hkind, if_pos hfile]
  · exact fun m hm htitle hne => Path.exists_folderOf_of_title_eq hpaths hn hm htitle hne
  · intro setting ids call content hnodup hfresh hcall hpermits hresolve
    have htarget : Path.target? path g.nodes g.connections = some n := by
      rw [Path.target?, hresolve]
    have hdecide : (Batch.start g ids).decideUpdate (setting.context g) path content =
        .ok (.overwrite n content none) := by
      rw [Batch.decideUpdate_of_some (Batch.tidy_start hnodup hfresh) content htarget]
      refine (if_pos hpermits).trans ?_
      exact congrArg (fun folder => Except.ok (Action.overwrite n content folder))
        Path.filter_isBelow_eq_none
    rw [runBatch_singleton hcall hdecide]
    rfl

/-- A file in a folder and one with the same title outside of it, which is found first by that
title.  Each is overwritten at the path under which it is listed. -/
theorem resolve_pathOf_listed_same_title :
    let outer : Node := { id := "a", kind := .code, title := "a.js" }
    let inner : Node := { id := "b", kind := .code, title := "a.js" }
    let g : Graph := {
      nodes := [outer, inner, { id := "f", kind := .folder, title := "lib" }]
      connections := [⟨"x", "b", "b-out-dom", "f", "f-in-files"⟩] }
    let write (path : Text) : Value := .object [("name", .text "updateFile"),
      ("args", .object [("filename", .text path), ("code", .text "1")])]
    (g.nodes.map (Path.pathOf · g.nodes g.connections)) =
      ["a.js", "lib/a.js", "lib"].map Text.ofString ∧
      (runBatch {} g {} [write "a.js"]).graph = g.setContent "a" "1" ∧
      (runBatch {} g {} [write "lib/a.js"]).graph = g.setContent "b" "1" := by
  intro outer inner g write
  have hpaths : (g.nodes.map (Path.pathOf · g.nodes g.connections)) =
      ["a.js", "lib/a.js", "lib"] := by
    decide +kernel
  have hdistinct : (g.nodes.map (Path.pathOf · g.nodes g.connections)).Nodup := by
    rw [hpaths]
    decide
  have hnodup : (idsOf g.nodes).Nodup := by decide +kernel
  have hfresh : IdSource.FreshFor {} g :=
    .of_not_endsInDigit {} (by decide +kernel) (by decide +kernel)
  have houter : outer ∈ g.nodes := List.mem_cons_self
  have hinner : inner ∈ g.nodes := List.mem_cons_of_mem _ List.mem_cons_self
  refine ⟨hpaths, ?_, ?_⟩
  · obtain ⟨-, hresolve, -, hwrite⟩ := resolve_pathOf_listed hdistinct houter rfl
    refine hwrite {} {} (write "a.js") "1" hnodup hfresh rfl rfl (hresolve.2 fun m hm => ?_)
    exact (Option.some.inj hm).symm
  · obtain ⟨-, hresolve, -, hwrite⟩ := resolve_pathOf_listed hdistinct hinner rfl
    refine hwrite {} {} (write "lib/a.js") "1" hnodup hfresh rfl rfl (hresolve.2 fun m hm => ?_)
    exact nomatch hm

/-- The paths of all nodes are distinct, but a file in a folder stands before the one outside of it
that has the same title, or the title of a file in one folder is the path of a file in another.  The
path leads to the wrong file, and a write to it overwrites that one.  A write to a file that may not
be changed is refused. -/
theorem resolve_pathOf_ne_self_of_filed :
    let code (id title : Text) : Node := { id, kind := .code, title }
    let folder (id : Text) : Node := { id, kind := .folder, title := id }
    let filed (id folder : Text) : Connection :=
      ⟨id, id, id ++ "-out-dom", folder, folder ++ "-in-files"⟩
    let write (path : Text) : Value := .object [("name", .text "updateFile"),
      ("args", .object [("filename", .text path), ("code", .text "1")])]
    let paths (g : Graph) := g.nodes.map (Path.pathOf · g.nodes g.connections)
    let found (g : Graph) (path : Text) :=
      (Path.resolve path g.nodes g.connections).map fun n => n.id
    let before : Graph := {
      nodes := [code "a" "a.js", code "b" "a.js", folder "lib"]
      connections := [filed "a" "lib"] }
    let between : Graph := {
      nodes := [code "a" "a.js", code "b" "lib/a.js", folder "lib", folder "src"]
      connections := [filed "a" "lib", filed "b" "src"] }
    let contents (setting : BatchSetting) (path : Text) :=
      (runBatch setting before {} [write path]).graph.nodes.map fun n => n.content
    (paths before = ["lib/a.js", "a.js", "lib"].map Text.ofString ∧
      found before "a.js" = some (.ofString "a") ∧
      contents {} "a.js" = ["1", "", ""].map Text.ofString) ∧
    (paths between = ["lib/a.js", "src/lib/a.js", "lib", "src"].map Text.ofString ∧
      found between "lib/a.js" = some (.ofString "b")) ∧
    contents { permits := fun _ _ => false } "lib/a.js" = ["", "", ""].map Text.ofString := by
  decide +kernel

end LiveCanvas
