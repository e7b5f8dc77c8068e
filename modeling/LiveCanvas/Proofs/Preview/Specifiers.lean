import LiveCanvas.Proofs.Canvas.DepthFirst
import LiveCanvas.Proofs.Preview.Mentions
import LiveCanvas.Proofs.Preview.Table

/-!
# Where import lines lead

An import line for a wired script names it by `./` and its title.  The script is a member of the
document and can be imported by this specifier, so the specifier is always in the table.  But names
go to whoever claims them first, and the title alone does not tell scripts apart: the line leads to
the first script with a spelling that is the title, and to the wired script itself just when nothing
before it is spelled so.
-/

namespace LiveCanvas

namespace Naming

variable {nodes : List Node} {connections : List Connection} {n : Node} {key title written : Text}

/-! ## Spellings -/

theorem mem_referenceKeys_iff : key ∈ referenceKeys n nodes connections ↔
    ∃ name ∈ [n.title, Path.pathOf n nodes connections],
      ∃ written ∈ [name, stripExtension name], key ∈ spellings written := by
  simp only [referenceKeys, List.mem_eraseDups, List.mem_flatMap]

/-- A name is spelled `./title` when it is the title, or is written like this already. -/
theorem mem_spellings_iff :
    "./" ++ title ∈ spellings written ↔ written = title ∨ written = "./" ++ title := by
  have hslash : "./" ++ title ≠ "/" ++ written := by
    intro h
    have hchars := congrArg Text.toList h
    simp at hchars
  simp only [spellings, List.mem_cons, hslash, List.not_mem_nil, or_false]
  rw [or_comm, Text.append_right_inj, eq_comm (a := title), eq_comm (a := "./" ++ title)]

end Naming

namespace Compile

variable {runtime : Runtime} {transform : Transform} {nodes : List Node}
  {connections : List Connection} {root m n d : Node} {title : Text}

/-! ## What can be imported by a title -/

/-- The script has a title or path that is the given title, with or without its extension.  It does
not matter whether the name itself begins with `./`. -/
def IsSpelled (nodes : List Node) (connections : List Connection) (title : Text) (n : Node) :
    Prop :=
  Naming.fileRole? n = some .script ∧
    ∃ name ∈ [n.title, Path.pathOf n nodes connections],
      ∃ written ∈ [name, Naming.stripExtension name], written = title ∨ written = "./" ++ title

instance (title : Text) : DecidablePred (IsSpelled nodes connections title) := fun _ =>
  inferInstanceAs (Decidable (_ ∧ _))

theorem isImportedAs_iff :
    IsImportedAs nodes connections ("./" ++ title) n ↔ IsSpelled nodes connections title n := by
  simp only [IsImportedAs, IsSpelled, Naming.mem_referenceKeys_iff, Naming.mem_spellings_iff]

theorem isSpelled_title (hscript : Naming.fileRole? n = some .script) :
    IsSpelled nodes connections n.title n :=
  ⟨hscript, n.title, List.mem_cons_self, n.title, List.mem_cons_self, .inl rfl⟩

/-! ## Members -/

/-- The members of a document are looked up by their ids when its root is. -/
theorem nodeWithId?_of_mem_members (hroot : nodeWithId? nodes root.id = some root)
    (hm : m ∈ members root nodes connections) : nodeWithId? nodes m.id = some m := by
  obtain rfl | hm := List.mem_cons.1 hm
  · exact hroot
  · exact Traversal.nodeWithId?_of_mem_closure root nodes connections hm

theorem mem_members_of_mem_idsOf (hroot : nodeWithId? nodes root.id = some root)
    (hd : nodeWithId? nodes d.id = some d) (hid : d.id ∈ idsOf (members root nodes connections)) :
    d ∈ members root nodes connections := by
  obtain ⟨m, hm, heq⟩ := mem_idsOf.1 hid
  have hlook := nodeWithId?_of_mem_members hroot hm
  rw [heq, hd, Option.some.injEq] at hlook
  rwa [hlook]

/-- A script that is wired to a member is a member. -/
theorem mem_members_of_wired (hroot : nodeWithId? nodes root.id = some root)
    (hm : m ∈ members root nodes connections)
    (hd : d ∈ Traversal.allSources m.id Role.imports nodes connections)
    (hscript : Naming.fileRole? d = some .script) : d ∈ members root nodes connections := by
  have hkind : d.kind ≠ .folder := by
    rw [Naming.kind_of_fileRole? hscript]
    decide
  have hstep : Traversal.DependsOn nodes connections m.id d.id := by
    obtain ⟨c, hc, hfeeds, hlook⟩ := Traversal.mem_allSources_iff.1 hd
    exact .imported hc hfeeds hlook hkind
  refine mem_members_of_mem_idsOf hroot (Traversal.nodeWithId?_of_mem_allSources hd) ?_
  exact Traversal.mem_idsOf_cons_closure_of_dependsOn root nodes connections
    (mem_idsOf_of_mem hm) hstep

theorem nodeWithId?_of_singleSource {preview : NodeId}
    (h : Traversal.singleSource preview Role.dom nodes connections = some root) :
    nodeWithId? nodes root.id = some root := by
  obtain ⟨c, -, hlook⟩ := Option.bind_eq_some_iff.1 h
  rw [(nodeWithId?_eq_some hlook).2]
  exact hlook

/-! ## The first script with a spelling -/

/-- The runtime imports nothing under the name, and no member is the package of this name. -/
def IsLeftToScripts (runtime : Runtime) (members : List Node) (key : Text) : Prop :=
  runtime.imports.get? key = none ∧ ∀ n ∈ members, ¬IsPackage key n

theorem target?_of_isLeftToScripts {members : List Node} {key : Text}
    (h : IsLeftToScripts runtime members key) :
    target? runtime transform nodes connections members key =
      (members.find? fun n => IsImportedAs nodes connections key n).map fun n =>
        (moduleOf runtime.packageBase transform nodes connections n).handle := by
  have hpackage : ¬∃ n ∈ members, IsPackage key n := fun ⟨n, hn, hname⟩ => h.2 n hn hname
  rw [target?, h.1]
  exact if_neg hpackage

/-- The specifier of a title leads to the first script that is spelled so. -/
theorem find?_isImportedAs_eq_some_iff {members : List Node} {first : Node} :
    members.find? (fun n => IsImportedAs nodes connections ("./" ++ title) n) = some first ↔
      IsSpelled nodes connections title first ∧ ∃ earlier later,
        members = earlier ++ first :: later ∧
          ∀ n ∈ earlier, ¬IsSpelled nodes connections title n := by
  rw [List.find?_eq_some_iff_append]
  simp only [decide_eq_true_eq, Bool.not_eq_true', decide_eq_false_iff_not, isImportedAs_iff]

/-- A member that is spelled so is the first one or comes after it. -/
theorem exists_first_isSpelled {members : List Node} (hd : d ∈ members)
    (hspelled : IsSpelled nodes connections title d) :
    ∃ earlier first later, members = earlier ++ first :: later ∧
      (∀ n ∈ earlier, ¬IsSpelled nodes connections title n) ∧
      IsSpelled nodes connections title first ∧ (first = d ∨ d ∈ later) := by
  have hsome : (members.find? fun n => IsImportedAs nodes connections ("./" ++ title) n).isSome :=
    List.find?_isSome.2 ⟨d, hd, decide_eq_true (isImportedAs_iff.2 hspelled)⟩
  obtain ⟨first, hfind⟩ := Option.isSome_iff_exists.1 hsome
  obtain ⟨hfirst, earlier, later, heq, hearlier⟩ := find?_isImportedAs_eq_some_iff.1 hfind
  refine ⟨earlier, first, later, heq, hearlier, hfirst, ?_⟩
  rw [heq, List.mem_append, List.mem_cons] at hd
  obtain hbefore | rfl | hafter := hd
  · exact absurd hspelled (hearlier d hbefore)
  · exact .inl rfl
  · exact .inr hafter

/-- A name that is left to the scripts leads to the module of the first one that is spelled so. -/
theorem target?_of_first_isSpelled {earlier later : List Node} {first : Node}
    (hleft : IsLeftToScripts runtime (earlier ++ first :: later) ("./" ++ title))
    (hfirst : IsSpelled nodes connections title first)
    (hearlier : ∀ n ∈ earlier, ¬IsSpelled nodes connections title n) :
    target? runtime transform nodes connections (earlier ++ first :: later) ("./" ++ title) =
      some (moduleOf runtime.packageBase transform nodes connections first).handle := by
  rw [target?_of_isLeftToScripts hleft,
    find?_isImportedAs_eq_some_iff.2 ⟨hfirst, earlier, later, rfl, hearlier⟩]
  rfl

end Compile

/-- An import line for a script that is wired to a member of a document has `./` and the title as
its specifier.  The script is a member itself, and the table has the specifier.  If the runtime or a
package takes the name, it leads there.  Otherwise it leads to the first script among the members
that is spelled like the title; this is the wired script unless a member before it is spelled so. -/
theorem compile_specifier (runtime : Runtime) (transform : Transform) (preview : NodeId)
    (nodes : List Node) (connections : List Connection) (reload : Option Text) {root m d : Node}
    (hroot : Traversal.singleSource preview Role.dom nodes connections = some root)
    (hm : m ∈ Compile.members root nodes connections)
    (hd : d ∈ Traversal.allSources m.id Role.imports nodes connections)
    (hscript : Naming.fileRole? d = some .script) :
    let members := Compile.members root nodes connections
    let document := compile runtime transform preview nodes connections reload
    let table := Compile.table runtime nodes connections members document.modules
    let handle (n : Node) :=
      (Compile.moduleOf runtime.packageBase transform nodes connections n).handle
    let key := "./" ++ d.title
    (∃ dependency ∈ Imports.wired runtime.packageBase nodes connections m,
      Imports.offered? runtime.packageBase nodes connections d = some dependency ∧
        dependency.specifier = key) ∧
    d ∈ members ∧
    (∀ target, runtime.imports.get? key = some target → table.get? key = some target) ∧
    (runtime.imports.get? key = none → (∃ n ∈ members, Compile.IsPackage key n) →
      table.get? key = some (runtime.packageBase ++ key)) ∧
    (Compile.IsLeftToScripts runtime members key →
      (∃ earlier first later, members = earlier ++ first :: later ∧
        (∀ n ∈ earlier, ¬Compile.IsSpelled nodes connections d.title n) ∧
        Compile.IsSpelled nodes connections d.title first ∧ (first = d ∨ d ∈ later) ∧
        table.get? key = some (handle first)) ∧
      ∀ earlier later, members = earlier ++ d :: later →
        (∀ n ∈ earlier, ¬Compile.IsSpelled nodes connections d.title n) →
          table.get? key = some (handle d)) := by
  intro members document table handle key
  have htable : ∀ key, table.get? key =
      Compile.target? runtime transform nodes connections members key :=
    (compile_table runtime transform preview nodes connections reload hroot).2.1
  have hmember : d ∈ members :=
    Compile.mem_members_of_wired (Compile.nodeWithId?_of_singleSource hroot) hm hd hscript
  have hspelled : Compile.IsSpelled nodes connections d.title d := Compile.isSpelled_title hscript
  refine ⟨?_, hmember, ?_, ?_, fun hleft => ⟨?_, ?_⟩⟩
  · have hoffered : Imports.offered? runtime.packageBase nodes connections d =
        some ⟨[d.title, Path.pathOf d nodes connections], key, Naming.identifier d.title⟩ :=
      Imports.offered?_of_script hscript
    exact ⟨_, Imports.mem_wired.2 ⟨d, hd, hoffered⟩, hoffered, rfl⟩
  · intro target htarget
    rw [htable, Compile.target?, htarget]
  · intro hnone hpackage
    rw [htable, Compile.target?, hnone]
    exact if_pos hpackage
  · obtain ⟨earlier, first, later, heq, hearlier, hfirst, hplace⟩ :=
      Compile.exists_first_isSpelled hmember hspelled
    refine ⟨earlier, first, later, heq, hearlier, hfirst, hplace, ?_⟩
    rw [htable, heq]
    exact Compile.target?_of_first_isSpelled (heq ▸ hleft) hfirst hearlier
  · intro earlier later heq hearlier
    rw [htable, heq]
    exact Compile.target?_of_first_isSpelled (heq ▸ hleft) hspelled hearlier

/-- Two wired scripts differ in their extensions only, and each line leads to its own script. -/
theorem compile_specifier_util :
    let code (id title : Text) : Node := { id, kind := .code, title, content := id }
    let imported (id : NodeId) : Connection := ⟨id, id, id ++ "-out-dom", "m", "m-in-imports"⟩
    let nodes := [{ id := "p", kind := .preview, title := "Preview" }, code "m" "main.js",
      code "u" "util.js", code "v" "util.ts"]
    let connections := [⟨"w", "m", "m-out-dom", "p", "p-in-dom"⟩, imported "u", imported "v"]
    let members := Compile.members (code "m" "main.js") nodes connections
    let document := compile {} .unchanged "p" nodes connections none
    let table := Compile.table {} nodes connections members document.modules
    Traversal.singleSource "p" Role.dom nodes connections = some (code "m" "main.js") ∧
    idsOf members = ["m", "u", "v"].map Text.ofString ∧
    table.get? "./util.ts" =
      some (Compile.moduleOf "https://esm.sh/" .unchanged nodes connections
        (code "v" "util.ts")).handle := by
  intro code imported nodes connections members document table
  have hroot : Traversal.singleSource "p" Role.dom nodes connections = some (code "m" "main.js") :=
    rfl
  have hids : idsOf members = ["m", "u", "v"] := by decide +kernel
  have hd : code "v" "util.ts" ∈ Traversal.allSources "m" Role.imports nodes connections :=
    Traversal.mem_allSources_iff.2
      ⟨imported "v", List.mem_cons_of_mem _ (List.mem_cons_of_mem _ (List.mem_singleton_self _)),
        by decide +kernel, rfl⟩
  have hscript : Naming.fileRole? (code "v" "util.ts") = some .script := by decide +kernel
  have hleft : Compile.IsLeftToScripts {} members "./util.ts" :=
    ⟨by decide +kernel, by decide +kernel⟩
  have hothers : ∀ n ∈ members, n.id ≠ "v" → ¬Compile.IsSpelled nodes connections "util.ts" n := by
    decide +kernel
  obtain ⟨-, hmember, -, -, hscripts⟩ := compile_specifier {} .unchanged "p" nodes connections none
    hroot List.mem_cons_self hd hscript
  obtain ⟨earlier, later, heq⟩ :
      ∃ earlier later, members = earlier ++ code "v" "util.ts" :: later :=
    List.append_of_mem hmember
  have hnodup : (idsOf members).Nodup := by decide +kernel
  rw [heq, idsOf_append, List.nodup_append] at hnodup
  refine ⟨hroot, hids, (hscripts hleft).2 earlier later heq fun n hn => ?_⟩
  refine hothers n (heq ▸ List.mem_append_left _ hn) ?_
  exact hnodup.2.2 n.id (mem_idsOf_of_mem hn) "v" List.mem_cons_self

/-- A file with an extension is spelled like another one without, and comes first. -/
theorem compile_specifier_leads_elsewhere :
    let main : Node :=
      { id := "m", kind := .code, title := "util.js", content := "export default 1;" }
    let wired : Node := { id := "u", kind := .code, title := "util", content := "export {};" }
    let nodes := [{ id := "p", kind := .preview, title := "Preview" }, main, wired]
    let connections : List Connection := [⟨"w", "m", "m-out-dom", "p", "p-in-dom"⟩,
      ⟨"u", "u", "u-out-dom", "m", "m-in-imports"⟩]
    let members := Compile.members main nodes connections
    let document := compile {} .unchanged "p" nodes connections none
    let table := Compile.table {} nodes connections members document.modules
    let handle (n : Node) :=
      (Compile.moduleOf "https://esm.sh/" .unchanged nodes connections n).handle
    Traversal.singleSource "p" Role.dom nodes connections = some main ∧
    Imports.sourceOf "https://esm.sh/" nodes connections main =
      "import * as util from \"./util\";\nexport default 1;" ∧
    table.get? "./util" = some (handle main) ∧ handle main ≠ handle wired := by
  intro main wired nodes connections members document table handle
  have hroot : Traversal.singleSource "p" Role.dom nodes connections = some main := rfl
  obtain ⟨-, htable, -⟩ := compile_table {} .unchanged "p" nodes connections none hroot
  exact ⟨hroot, by decide +kernel, (htable "./util").trans (by decide +kernel), by decide +kernel⟩

end LiveCanvas
