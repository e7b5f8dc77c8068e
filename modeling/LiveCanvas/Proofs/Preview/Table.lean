import LiveCanvas.Preview.Compile
import LiveCanvas.Proofs.Canvas.Closure

/-!
# Where the names of a document lead

The table of a document is filled in three passes, and a name that is taken stays with whoever took
it.  Read name by name this is a rule of precedence: what the runtime imports comes first, then the
packages among the members, then the first script that can be imported under the name.
-/

namespace LiveCanvas
namespace Compile

/-! ## Filling a table -/

theorem get?_addEntries (table : Fields Text) (entries : List (Text × Text)) (key : Text) :
    (addEntries table entries).get? key = (table.get? key).or (Fields.get? entries key) :=
  Fields.get?_foldl_setDefault table entries key

theorem nodup_names_addEntries {table : Fields Text} (h : table.names.Nodup)
    (entries : List (Text × Text)) : (addEntries table entries).names.Nodup := by
  induction entries generalizing table with
  | nil => exact h
  | cons entry entries ih => exact ih (Fields.nodup_names_setDefault h entry.1 entry.2)

/-! ## What packages add -/

/-- The node stands for the package with this name. -/
def IsPackage (name : Text) (n : Node) : Prop :=
  n.kind = .packageSearch ∧ Naming.packageName n = name ∧ name ≠ ""

instance (name : Text) : DecidablePred (IsPackage name) := fun _ =>
  inferInstanceAs (Decidable (_ ∧ _ ∧ _))

theorem namedPackage?_eq_some_iff {n : Node} {name : Text} :
    namedPackage? n = some name ↔ IsPackage name n := by
  rw [namedPackage?, IsPackage]
  by_cases hkind : n.kind = .packageSearch
  · rw [if_pos hkind, Option.filter_some]
    by_cases hname : Naming.packageName n = name
    · subst hname
      simp [hkind]
    · simp [hname]
  · simp [hkind]

/-- A package leads behind the base of packages, whichever member stands for it. -/
theorem get?_packageEntries (packageBase : Text) (members : List Node) (key : Text) :
    Fields.get? (packageEntries packageBase members) key =
      if ∃ n ∈ members, IsPackage key n then some (packageBase ++ key) else none := by
  rw [packageEntries, Fields.get?_map_names _ fun name => packageBase ++ name]
  simp only [List.mem_filterMap, namedPackage?_eq_some_iff]

/-! ## What scripts add -/

section Scripts

variable (packageBase : Text) (transform : Transform) (nodes : List Node)
  (connections : List Connection)

/-- The node is a script that can be imported under this name. -/
def IsImportedAs (name : Text) (n : Node) : Prop :=
  Naming.fileRole? n = some .script ∧ name ∈ Naming.referenceKeys n nodes connections

instance (name : Text) : DecidablePred (IsImportedAs nodes connections name) := fun _ =>
  inferInstanceAs (Decidable (_ ∧ _))

/-- Each script goes with its own module. -/
theorem zip_modulesOf (members : List Node) :
    (scripts members).zip (modulesOf packageBase transform nodes connections members) =
      (scripts members).map fun n => (n, moduleOf packageBase transform nodes connections n) := by
  rw [modulesOf, ← List.zip_map', List.map_id']

/-- Of the scripts that can be imported under a name the first one gives its module. -/
theorem get?_moduleEntries (scripts : List Node) (key : Text) :
    Fields.get? (scripts.flatMap fun n => moduleEntries nodes connections n
        (moduleOf packageBase transform nodes connections n)) key =
      (scripts.find? fun n => key ∈ Naming.referenceKeys n nodes connections).map fun n =>
        (moduleOf packageBase transform nodes connections n).handle :=
  Fields.get?_flatMap_names scripts _ _ key

theorem find?_scripts (members : List Node) (key : Text) :
    ((scripts members).find? fun n => key ∈ Naming.referenceKeys n nodes connections) =
      members.find? fun n => IsImportedAs nodes connections key n := by
  rw [scripts, List.find?_filter]
  congr 1
  funext n
  rw [decide_eq_decide, beq_iff_eq, decide_eq_true_iff]
  rfl

theorem node_moduleOf (n : Node) :
    (moduleOf packageBase transform nodes connections n).node = n.id := by
  unfold moduleOf
  dsimp only
  split <;> rfl

/-- The module of a script is the only one with its id. -/
theorem filter_modulesOf {members : List Node} (hnodup : (idsOf members).Nodup) {n : Node}
    (hn : n ∈ members) (hscript : Naming.fileRole? n = some .script) :
    (modulesOf packageBase transform nodes connections members).filter (·.node == n.id) =
      [moduleOf packageBase transform nodes connections n] := by
  have hmem : n ∈ scripts members := List.mem_filter.mpr ⟨hn, by simp [hscript]⟩
  have hscripts : (idsOf (scripts members)).Nodup :=
    hnodup.sublist (List.filter_sublist.map _)
  have hids : ((·.node == n.id) ∘ moduleOf packageBase transform nodes connections) =
      fun m => m.id == n.id := by
    funext m
    rw [Function.comp_apply, node_moduleOf]
  rw [modulesOf, List.filter_map, hids, filter_id_eq_singleton hscripts hmem, List.map_singleton]

end Scripts

/-! ## The table of a document -/

/-- Where a name is to lead: to what the runtime imports under it, or else to the package of that
name if a member stands for it, or else to the first script that can be imported under it. -/
def target? (runtime : Runtime) (transform : Transform) (nodes : List Node)
    (connections : List Connection) (members : List Node) (key : Text) : Option Text :=
  match runtime.imports.get? key with
  | some target => some target
  | none =>
    if ∃ n ∈ members, IsPackage key n then some (runtime.packageBase ++ key)
    else (members.find? fun n => IsImportedAs nodes connections key n).map fun n =>
      (moduleOf runtime.packageBase transform nodes connections n).handle

theorem get?_table (runtime : Runtime) (transform : Transform) (nodes : List Node)
    (connections : List Connection) (members : List Node) (key : Text) :
    (table runtime nodes connections members
      (modulesOf runtime.packageBase transform nodes connections members)).get? key =
        target? runtime transform nodes connections members key := by
  rw [table, get?_addEntries, get?_addEntries, get?_packageEntries, zip_modulesOf,
    List.flatMap_map, get?_moduleEntries, find?_scripts, target?, Option.or_assoc]
  cases runtime.imports.get? key with
  | some target => rfl
  | none =>
      rw [Option.none_or]
      split <;> rfl

theorem nodup_names_table {runtime : Runtime} (h : runtime.imports.names.Nodup) (nodes : List Node)
    (connections : List Connection) (members : List Node) (modules : List Module) :
    (table runtime nodes connections members modules).names.Nodup :=
  nodup_names_addEntries (nodup_names_addEntries h _) _

end Compile

/-- The document of a preview with a root has the table of its members.  Every name leads where the
order of precedence says and no other name is in the table, no name is in it twice, and every script
among the members has one module. -/
theorem compile_table (runtime : Runtime) (transform : Transform) (preview : NodeId)
    (nodes : List Node) (connections : List Connection) (reload : Option Text) {root : Node}
    (hroot : Traversal.singleSource preview Role.dom nodes connections = some root) :
    let members := Compile.members root nodes connections
    let document := compile runtime transform preview nodes connections reload
    let table := Compile.table runtime nodes connections members document.modules
    document.html =
      (Compile.page runtime preview root members document.modules table).render ++
        (reload.map Compile.reloadMark).getD "" ∧
    (∀ key, table.get? key = Compile.target? runtime transform nodes connections members key) ∧
    (runtime.imports.names.Nodup → table.names.Nodup) ∧
    ∀ n ∈ members, Naming.fileRole? n = some .script →
      document.modules.filter (·.node == n.id) =
        [Compile.moduleOf runtime.packageBase transform nodes connections n] := by
  intro members document table
  have hdocument : document =
      Compile.withRoot runtime transform preview root nodes connections reload := by
    simp only [document, compile, hroot]
  have hmodules : document.modules =
      Compile.modulesOf runtime.packageBase transform nodes connections members := by
    rw [hdocument]
    rfl
  refine ⟨?_, ?_, ?_, ?_⟩
  · simp only [table, hmodules]
    rw [hdocument]
    rfl
  · intro key
    simp only [table, hmodules]
    exact Compile.get?_table runtime transform nodes connections members key
  · exact fun hnames => Compile.nodup_names_table hnames nodes connections members _
  · intro n hn hscript
    rw [hmodules]
    exact Compile.filter_modulesOf runtime.packageBase transform nodes connections
      (Traversal.nodup_idsOf_closure root nodes connections) hn hscript

/-- A file has the title of a package, two files have one title, and a package has a name that the
runtime imports. -/
theorem compile_table_shared_names :
    let code (id title : Text) : Node := { id, kind := .code, title }
    let package (id name : Text) : Node := { id, kind := .packageSearch, title := name }
    let imported (id port : Text) : Connection := ⟨id, id, port, "m", "m-in-imports"⟩
    let nodes := [{ id := "p", kind := .preview, title := "Preview" }, code "m" "main.js",
      code "a" "lodash", code "b" "util.js", code "c" "util.js", package "l" "lodash",
      package "r" "react"]
    let connections := [⟨"w", "m", "m-out-dom", "p", "p-in-dom"⟩, imported "a" "a-out-dom",
      imported "b" "b-out-dom", imported "c" "c-out-dom", imported "l" "l-out-pkg",
      imported "r" "r-out-pkg"]
    let members := Compile.members (code "m" "main.js") nodes connections
    let document := compile {} .unchanged "p" nodes connections none
    let table := Compile.table {} nodes connections members document.modules
    let handle (n : Node) :=
      (Compile.moduleOf "https://esm.sh/" .unchanged nodes connections n).handle
    Traversal.singleSource "p" Role.dom nodes connections = some (code "m" "main.js") ∧
    table.get? "react" = some (.ofString "https://esm.sh/react@18.2.0") ∧
    table.get? "lodash" = some (.ofString "https://esm.sh/lodash") ∧
    table.get? "./lodash" = some (handle (code "a" "lodash")) ∧
    table.get? "util" = some (handle (code "b" "util.js")) ∧
    table.get? "util.ts" = none ∧
    ∃ n ∈ members, n.id = "c" ∧ document.modules.filter (fun m => m.node == Text.ofString "c") =
      [Compile.moduleOf "https://esm.sh/" .unchanged nodes connections n] := by
  intro code package imported nodes connections members document table handle
  have hroot : Traversal.singleSource "p" Role.dom nodes connections = some (code "m" "main.js") :=
    rfl
  have hlast : ∃ n ∈ members, n.id = "c" ∧ Naming.fileRole? n = some .script := by
    decide +kernel
  obtain ⟨-, htable, -, hmodules⟩ := compile_table {} .unchanged "p" nodes connections none hroot
  refine ⟨hroot, ?_, ?_, ?_, ?_, ?_, ?_⟩
  · exact (htable "react").trans (by decide +kernel)
  · exact (htable "lodash").trans (by decide +kernel)
  · exact (htable "./lodash").trans (by decide +kernel)
  · exact (htable "util").trans (by decide +kernel)
  · exact (htable "util.ts").trans (by decide +kernel)
  · obtain ⟨n, hn, hid, hscript⟩ := hlast
    exact ⟨n, hn, hid, hid ▸ hmodules n hn hscript⟩

end LiveCanvas
