import LiveCanvas.Preview.Gather
import LiveCanvas.Proofs.Preview.Table
import LiveCanvas.Proofs.Reading

/-!
# A script that fails fails alone

The only step of a compile that a transform can stop is the one that makes the code of a script, and
that step catches what stops it.  So the members are passed through to the end whatever the
transform does, and the module of a script depends on the transform through one source and one name
only.
-/

namespace LiveCanvas

namespace Compile

variable (packageBase : Text) (transform transform' : Transform) (nodes : List Node)
  (connections : List Connection)

/-- What the transform is given for a node: the source with imports, and the name of the file. -/
def inputOf (n : Node) : Text × Text :=
  (Imports.sourceOf packageBase nodes connections n, n.title)

/-- What the page runs for a node: what the transform makes of it, or what reports the failure. -/
def codeFor (n : Node) : Text :=
  match transform (Imports.sourceOf packageBase nodes connections n) n.title with
  | .ok code => code
  | .error failure => Document.errorStub (failure.message n.title)

/-- What is told about a node that the transform fails on. -/
def messageOf? (n : Node) : Option Text :=
  match transform (Imports.sourceOf packageBase nodes connections n) n.title with
  | .ok _ => none
  | .error failure => some (failure.message n.title)

theorem code_moduleOf (n : Node) :
    (moduleOf packageBase transform nodes connections n).code =
      codeFor packageBase transform nodes connections n := by
  rw [moduleOf, codeFor]
  cases transform (Imports.sourceOf packageBase nodes connections n) n.title <;> rfl

theorem failure_moduleOf (n : Node) :
    (moduleOf packageBase transform nodes connections n).failure =
      messageOf? packageBase transform nodes connections n := by
  rw [moduleOf, messageOf?]
  cases transform (Imports.sourceOf packageBase nodes connections n) n.title <;> rfl

/-- The code for a node follows from what the transform makes of its source under its name. -/
theorem codeFor_congr {n : Node}
    (h : transform (Imports.sourceOf packageBase nodes connections n) n.title =
      transform' (Imports.sourceOf packageBase nodes connections n) n.title) :
    codeFor packageBase transform nodes connections n =
      codeFor packageBase transform' nodes connections n := by
  rw [codeFor, codeFor, h]

theorem handles_modulesOf (members : List Node) :
    (modulesOf packageBase transform nodes connections members).map (fun m => (m.node, m.handle)) =
      (scripts members).map fun n =>
        (n.id, (moduleOf packageBase transform nodes connections n).handle) := by
  simp only [modulesOf, List.map_map, Function.comp_def, node_moduleOf]

theorem failures_modulesOf (members : List Node) :
    (modulesOf packageBase transform nodes connections members).filterMap (·.failure) =
      (scripts members).filterMap (messageOf? packageBase transform nodes connections) := by
  simp only [modulesOf, List.filterMap_map, Function.comp_def, failure_moduleOf]

theorem nodup_idsOf_scripts {members : List Node} (h : (idsOf members).Nodup) :
    (idsOf (scripts members)).Nodup :=
  h.sublist (List.filter_sublist.map _)

end Compile

/-! ## What members add -/

/-- What is gathered after a script. -/
def Gathered.add (nodes : List Node) (connections : List Connection) (s : Gathered) (n : Node)
    (m : Module) : Gathered where
  table := Compile.addEntries s.table (Compile.moduleEntries nodes connections n m)
  handles := s.handles.set n.id m.handle
  failures := s.failures ++ m.failure.toList

namespace CompileWork

variable (runtime : Runtime) (transform : Transform) (nodes : List Node)
  (connections : List Connection)

theorem run_claim (name target : Text) (s : Gathered) :
    (claim name target).run s = .ok () { s with table := s.table.setDefault name target } := rfl

theorem run_forM_claim (names : List Text) (target : Text) (s : Gathered) :
    (names.forM fun name => claim name target).run s = .ok ()
      { s with table := Compile.addEntries s.table (names.map fun name => (name, target)) } := by
  rw [run_forM fun name => run_claim name target]
  congr 1
  induction names generalizing s with
  | nil => rfl
  | cons name names ih => exact ih _

/-- Making the code of a script never stops; a failure is told. -/
theorem run_codeOf (n : Node) (s : Gathered) :
    let m := Compile.moduleOf runtime.packageBase transform nodes connections n
    (codeOf runtime transform nodes connections n).run s =
      .ok m.code { s with failures := s.failures ++ m.failure.toList } := by
  simp only [codeOf, transformed, Compile.moduleOf]
  cases transform (Imports.sourceOf runtime.packageBase nodes connections n) n.title with
  | ok code =>
      rw [Option.toList_none, List.append_nil]
      rfl
  | error failure => rfl

theorem run_addPackage (n : Node) (s : Gathered) :
    (addPackage runtime n).run s = .ok ()
      { s with table :=
        Compile.addEntries s.table (Compile.packageEntries runtime.packageBase [n]) } := by
  rw [addPackage, Compile.packageEntries]
  cases h : Compile.namedPackage? n with
  | none =>
      rw [List.filterMap_cons_none h]
      rfl
  | some name =>
      rw [List.filterMap_cons_some h]
      rfl

theorem run_addScript (n : Node) (s : Gathered) :
    (addScript runtime transform nodes connections n).run s = .ok ()
      (if Naming.fileRole? n == some .script then
        s.add nodes connections n
          (Compile.moduleOf runtime.packageBase transform nodes connections n)
      else s) := by
  rw [addScript]
  by_cases hscript : Naming.fileRole? n = some .script
  · rw [if_pos hscript, if_pos (by simp [hscript]), EStateM.run_bind, run_codeOf]
    simp only [EStateM.run_bind, EStateM.run_modify, run_forM_claim]
    rfl
  · rw [if_neg hscript, if_neg (by simp [hscript])]
    rfl

/-! ## What all members add -/

theorem run_forM_addPackage (members : List Node) (s : Gathered) :
    (members.forM (addPackage runtime)).run s = .ok ()
      { s with table :=
        Compile.addEntries s.table (Compile.packageEntries runtime.packageBase members) } := by
  rw [run_forM (run_addPackage runtime)]
  congr 1
  induction members generalizing s with
  | nil => rfl
  | cons n members ih =>
      rw [List.foldl_cons, ih]
      congr 1
      simp only [Compile.addEntries, ← List.foldl_append]
      congr 1
      simp only [Compile.packageEntries, ← List.map_append, ← List.filterMap_append,
        List.singleton_append]

theorem foldl_add (scripts : List Node) (moduleOf : Node → Module) (s : Gathered) :
    scripts.foldl (fun s n => s.add nodes connections n (moduleOf n)) s =
      { table := Compile.addEntries s.table
          (scripts.flatMap fun n => Compile.moduleEntries nodes connections n (moduleOf n))
        handles := (scripts.map fun n => (n.id, (moduleOf n).handle)).foldl
          (fun handles entry => handles.set entry.1 entry.2) s.handles
        failures := s.failures ++ scripts.filterMap fun n => (moduleOf n).failure } := by
  induction scripts generalizing s with
  | nil => simp [Compile.addEntries]
  | cons n scripts ih =>
      rw [List.foldl_cons, ih]
      simp only [Gathered.add, Compile.addEntries, List.flatMap_cons, List.foldl_append,
        List.map_cons, List.foldl_cons, Gathered.mk.injEq, true_and]
      cases h : (moduleOf n).failure <;> simp [h]

/-- The scripts with distinct ids are passed through to the end, whatever the transform does. -/
theorem run_forM_addScript {members : List Node} (hnodup : (idsOf members).Nodup)
    (table : Fields Text) :
    let modules := Compile.modulesOf runtime.packageBase transform nodes connections members
    (members.forM (addScript runtime transform nodes connections)).run { table } = .ok ()
      { table := Compile.addEntries table (((Compile.scripts members).zip modules).flatMap
          fun (n, m) => Compile.moduleEntries nodes connections n m)
        handles := modules.map fun m => (m.node, m.handle)
        failures := modules.filterMap (·.failure) } := by
  intro modules
  let moduleOf := Compile.moduleOf runtime.packageBase transform nodes connections
  have hzip : (Compile.scripts members).zip modules =
      (Compile.scripts members).map fun n => (n, moduleOf n) :=
    Compile.zip_modulesOf runtime.packageBase transform nodes connections members
  have hnames : (Fields.names ((Compile.scripts members).map fun n =>
      (n.id, (moduleOf n).handle))).Nodup := by
    rw [Fields.names, List.map_map]
    exact Compile.nodup_idsOf_scripts hnodup
  rw [run_forM (run_addScript runtime transform nodes connections), ← List.foldl_filter]
  refine congrArg (EStateM.Result.ok ()) ((foldl_add nodes connections _ moduleOf _).trans ?_)
  rw [hzip, List.flatMap_map, Compile.handles_modulesOf, Compile.failures_modulesOf]
  simp only [moduleOf, Compile.failure_moduleOf, List.nil_append]
  congr 1
  exact Fields.ofList_of_nodup hnames

/-- The root of a document, if it is a script, has a handle. -/
theorem run_entryOf {root : Node} {modules : List Module}
    (hroot : Naming.fileRole? root = some .script → ∃ m ∈ modules, m.node = root.id)
    (table : Fields Text) (failures : List Text) :
    let s : Gathered :=
      { table, handles := modules.map fun m => (m.node, m.handle), failures }
    (entryOf root).run s = .ok
      (if Naming.fileRole? root = some .script then
        ((modules.find? (·.node == root.id)).map fun m => Document.entryModule m.handle).getD ""
      else "") s := by
  intro s
  rw [entryOf]
  by_cases hscript : Naming.fileRole? root = some .script
  · have hget : s.handles.get? root.id =
        (modules.find? (·.node == root.id)).map Module.handle := by
      rw [Fields.get?, List.find?_map, Option.map_map]
      rfl
    obtain ⟨m, hm⟩ : ∃ m, modules.find? (·.node == root.id) = some m := by
      rw [← Option.isSome_iff_exists, List.find?_isSome]
      obtain ⟨m, hm, hid⟩ := hroot hscript
      exact ⟨m, hm, by simp [hid]⟩
    rw [if_pos hscript, if_pos hscript, EStateM.run_bind, EStateM.run_get]
    simp only [hget, hm]
    rfl
  · rw [if_neg hscript, if_neg hscript]
    rfl

theorem run_compileRoot (preview : NodeId) (root : Node) (reload : Option Text) :
    ∃ s, (compileRoot runtime transform nodes connections preview root reload).run {} =
      .ok (Compile.withRoot runtime transform preview root nodes connections reload).handedOver
        s := by
  have hnodup : (idsOf (Compile.members root nodes connections)).Nodup :=
    Traversal.nodup_idsOf_closure root nodes connections
  have hroot : Naming.fileRole? root = some .script →
      ∃ m ∈ Compile.modulesOf runtime.packageBase transform nodes connections
        (Compile.members root nodes connections), m.node = root.id := by
    intro hscript
    have hmem : root ∈ Compile.scripts (Compile.members root nodes connections) :=
      List.mem_filter.mpr ⟨List.mem_cons_self, by simp [hscript]⟩
    exact ⟨_, List.mem_map_of_mem hmem, Compile.node_moduleOf _ _ _ _ root⟩
  apply Exists.intro
  rw [compileRoot]
  simp only [EStateM.run_bind, EStateM.run_modify, EStateM.run_get, EStateM.run_pure,
    run_forM_addPackage, run_forM_addScript runtime transform nodes connections hnodup,
    run_entryOf hroot]
  rfl

/-- A compile ends with the document of the preview, whatever the transform does. -/
theorem run_compile (preview : NodeId) (reload : Option Text) :
    ∃ s, (compile runtime transform nodes connections preview reload).run {} =
      .ok (LiveCanvas.compile runtime transform preview nodes connections reload).handedOver s := by
  rw [compile, LiveCanvas.compile]
  cases Traversal.singleSource preview Role.dom nodes connections with
  | none => exact ⟨{}, rfl⟩
  | some root => exact run_compileRoot runtime transform nodes connections preview root reload

end CompileWork

/-! ## What is handed over -/

section HandedOver

variable (runtime : Runtime) (transform transform' : Transform) (preview : NodeId)
  (nodes : List Node) (connections : List Connection) (reload : Option Text)

/-- The page has one module for each script among the members and for nothing else, and it tells
of the scripts without code in the order of the members. -/
structure CompiledPage.Covers (page : CompiledPage) (packageBase : Text) (transform : Transform)
    (nodes : List Node) (connections : List Connection) (members : List Node) : Prop where
  names : page.handles.names = idsOf (Compile.scripts members)
  handle : ∀ n ∈ Compile.scripts members, page.handles.get? n.id =
    some (moduleHandle (Compile.codeFor packageBase transform nodes connections n))
  failures : page.failures =
    (Compile.scripts members).filterMap (Compile.messageOf? packageBase transform nodes connections)

theorem modules_compile :
    (compile runtime transform preview nodes connections reload).modules =
      Compile.modulesOf runtime.packageBase transform nodes connections
        (documentMembers preview nodes connections) := by
  rw [compile, documentMembers]
  cases Traversal.singleSource preview Role.dom nodes connections <;> rfl

theorem root_compile :
    (compile runtime transform preview nodes connections reload).root =
      (Traversal.singleSource preview Role.dom nodes connections).map (·.id) := by
  rw [compile]
  cases Traversal.singleSource preview Role.dom nodes connections <;> rfl

theorem nodup_idsOf_documentMembers :
    (idsOf (documentMembers preview nodes connections)).Nodup := by
  rw [documentMembers]
  cases Traversal.singleSource preview Role.dom nodes connections with
  | none => exact List.nodup_nil
  | some root => exact Traversal.nodup_idsOf_closure root nodes connections

theorem covers_handedOver :
    (compile runtime transform preview nodes connections reload).handedOver.Covers
      runtime.packageBase transform nodes connections
      (documentMembers preview nodes connections) := by
  let members := documentMembers preview nodes connections
  have hhandles : (compile runtime transform preview nodes connections reload).handedOver.handles =
      (Compile.scripts members).map fun n =>
        (n.id, (Compile.moduleOf runtime.packageBase transform nodes connections n).handle) := by
    rw [CompiledDocument.handedOver, modules_compile, Compile.handles_modulesOf]
  constructor
  · rw [hhandles, Fields.names, List.map_map]
    rfl
  · intro n hn
    have hids : (idsOf (Compile.scripts members)).Nodup :=
      Compile.nodup_idsOf_scripts (nodup_idsOf_documentMembers preview nodes connections)
    have hfind : (Compile.scripts members).find? (fun m => m.id == n.id) = some n := by
      rw [← List.head?_filter, filter_id_eq_singleton hids hn, List.head?_singleton]
    rw [hhandles, Fields.get?, List.find?_map, ← Compile.code_moduleOf]
    exact congrArg (Option.map _ <| Option.map _ ·) hfind
  · rw [CompiledDocument.handedOver, CompiledDocument.failures, modules_compile,
      Compile.failures_modulesOf]

end HandedOver

/-- Two transforms that differ on what one node gives them only, and may fail as they like, come to
documents with the same scripts, in which every other member has the same handle.  Each compile ends
with its document, in which every script has a handle and the failures stand in the order of the
members. -/
theorem compile_isolated (runtime : Runtime) (transform transform' : Transform) (preview : NodeId)
    (nodes : List Node) (connections : List Connection) (reload : Option Text) (x : Node)
    (hagree : ∀ source file,
      (source, file) ≠ Compile.inputOf runtime.packageBase nodes connections x →
        transform source file = transform' source file) :
    let members := documentMembers preview nodes connections
    let page := (compile runtime transform preview nodes connections reload).handedOver
    let page' := (compile runtime transform' preview nodes connections reload).handedOver
    (∃ s, (CompileWork.compile runtime transform nodes connections preview reload).run {} =
      .ok page s) ∧
    (∃ s, (CompileWork.compile runtime transform' nodes connections preview reload).run {} =
      .ok page' s) ∧
    page.Covers runtime.packageBase transform nodes connections members ∧
    page'.Covers runtime.packageBase transform' nodes connections members ∧
    page.root = page'.root ∧ page.handles.names = page'.handles.names ∧
    ∀ n ∈ members, Compile.inputOf runtime.packageBase nodes connections n ≠
        Compile.inputOf runtime.packageBase nodes connections x →
      page.handles.get? n.id = page'.handles.get? n.id := by
  intro members page page'
  have hcovers : page.Covers runtime.packageBase transform nodes connections members :=
    covers_handedOver runtime transform preview nodes connections reload
  have hcovers' : page'.Covers runtime.packageBase transform' nodes connections members :=
    covers_handedOver runtime transform' preview nodes connections reload
  have hnames : page.handles.names = page'.handles.names := hcovers.names.trans hcovers'.names.symm
  refine ⟨CompileWork.run_compile runtime transform nodes connections preview reload,
    CompileWork.run_compile runtime transform' nodes connections preview reload,
    hcovers, hcovers', ?_, hnames, ?_⟩
  · simp only [page, page', CompiledDocument.handedOver, root_compile]
  · intro n hn hinput
    by_cases hscript : n ∈ Compile.scripts members
    · rw [hcovers.handle n hscript, hcovers'.handle n hscript,
        Compile.codeFor_congr _ transform transform' _ _ (hagree _ _ hinput)]
    · -- a member that is no script has no handle in either page
      have hnotMem : n.id ∉ page.handles.names := by
        rw [hcovers.names]
        intro hid
        obtain ⟨m, hm, hmid⟩ := mem_idsOf.mp hid
        have hnm := eq_of_mem_of_id_eq (nodup_idsOf_documentMembers preview nodes connections)
          (List.mem_of_mem_filter hm) hn hmid
        exact hscript (hnm ▸ hm)
      rw [Fields.get?_eq_none_iff.mpr hnotMem, Fields.get?_eq_none_iff.mpr (hnames ▸ hnotMem)]

/-- The root is refused by both transforms.  One of them refuses a dependency too, on which the
other breaks; what else is imported is not touched by that. -/
theorem compile_isolated_two_failures :
    let code (id title : Text) : Node := { id, kind := .code, title, content := id }
    let nodes := [{ id := "p", kind := .preview, title := "Preview" }, code "m" "main.js",
      code "a" "bad.js", code "b" "good.js"]
    let imported (id : Text) : Connection := ⟨id, id, id ++ "-out-dom", "m", "m-in-imports"⟩
    let connections := [⟨"w", "m", "m-out-dom", "p", "p-in-dom"⟩, imported "a", imported "b"]
    let failing (failure : TransformFailure) : Transform := fun source file =>
      if (source, file) = (.ofString "a", .ofString "bad.js") then .error failure
      else if file = "main.js" then .error (.refused "no such syntax")
      else .ok source
    let page (failure : TransformFailure) :=
      (compile {} (failing failure) "p" nodes connections none).handedOver
    (∀ source file, (source, file) ≠ (.ofString "a", .ofString "bad.js") →
      failing (.refused "odd") source file = failing (.broken "TypeError" "") source file) ∧
    (page (.refused "odd")).handles.names = ["m", "a", "b"].map Text.ofString ∧
    (page (.refused "odd")).failures =
      ["Failed to compile main.js: no such syntax",
        "Failed to compile bad.js: odd"].map Text.ofString ∧
    (page (.broken "TypeError" "")).failures =
      ["Failed to compile main.js: no such syntax",
        "Failed to compile bad.js: TypeError: "].map Text.ofString ∧
    (page (.refused "odd")).handles.get? "b" =
      (page (.broken "TypeError" "")).handles.get? "b" := by
  intro code nodes imported connections failing page
  have hinput : Compile.inputOf "https://esm.sh/" nodes connections (code "a" "bad.js") =
      (.ofString "a", .ofString "bad.js") := by
    decide +kernel
  have hagree : ∀ source file, (source, file) ≠ (.ofString "a", .ofString "bad.js") →
      failing (.refused "odd") source file = failing (.broken "TypeError" "") source file := by
    intro source file hne
    simp only [failing, if_neg hne]
  obtain ⟨-, -, hcovers, hcovers', -, -, hhandle⟩ :=
    compile_isolated {} _ _ "p" nodes connections none (code "a" "bad.js") (hinput ▸ hagree)
  obtain ⟨n, hn, hid, hother⟩ : ∃ n ∈ documentMembers "p" nodes connections, n.id = "b" ∧
      Compile.inputOf "https://esm.sh/" nodes connections n ≠
        Compile.inputOf "https://esm.sh/" nodes connections (code "a" "bad.js") := by
    decide +kernel
  refine ⟨hagree, ?_, ?_, ?_, ?_⟩
  · exact hcovers.names.trans (by decide +kernel)
  · exact hcovers.failures.trans (by decide +kernel)
  · exact hcovers'.failures.trans (by decide +kernel)
  · exact hid ▸ hhandle n hn hother

end LiveCanvas
