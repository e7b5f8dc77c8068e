import LiveCanvas.Proofs.Digest.Base64
import LiveCanvas.Proofs.Preview.Isolation
import LiveCanvas.Proofs.Preview.Mentions
import LiveCanvas.Proofs.Preview.ScriptJson

/-!
# What a document embeds

Two things travel inside a document: the table of names, as JSON in a script element, and the code
of each script, in the address of its module.  The table is read back as it was unless a text in it
holds a pair of halves, so it leads where it was meant to lead.  The code is read back with a
question mark for every half, and two scripts have one address exactly when their code is the same
but for that.
-/

namespace LiveCanvas

/-! ## Code in an address -/

/-- The code that an address carries. -/
def codeBehind? (address : Text) : Option Text :=
  if Markup.moduleStart.toList.isPrefixOf address.toList then
    Base64.text? (address.toList.drop Markup.moduleStart.toList.length)
  else none

theorem codeBehind?_moduleHandle (code : Text) :
    codeBehind? (moduleHandle code) = some (.ofString code.replaced) := by
  have haddress : (moduleHandle code).toList =
      Markup.moduleStart.toList ++ (Base64.ofText code).toList := Text.toList_append
  have hprefix : Markup.moduleStart.toList.isPrefixOf (moduleHandle code).toList = true := by
    rw [haddress, List.isPrefixOf_iff_prefix]
    exact List.prefix_append _ _
  rw [codeBehind?, if_pos hprefix, haddress, List.drop_left, Base64.text?_ofText]

theorem moduleHandle_eq_iff {code code' : Text} :
    moduleHandle code = moduleHandle code' ↔ code.replaced = code'.replaced := by
  constructor
  · intro h
    have hcode := codeBehind?_moduleHandle code
    rw [h, codeBehind?_moduleHandle, Option.some.injEq, Text.ofString_inj] at hcode
    exact hcode.symm
  · intro h
    rw [moduleHandle, moduleHandle, Base64.ofText, Base64.ofText, h]

/-! ## The table in a page -/

theorem Compile.isTextual_importMap (table : Fields Text) :
    (Compile.importMap table).IsTextual := by
  rw [importMap]
  simp only [Value.IsTextual, FieldsTextual, and_true]
  induction table with
  | nil => trivial
  | cons entry table ih => exact ⟨trivial, ih⟩

/-- The table is read back as it was just if there is nothing to join in it. -/
theorem Compile.reread_importMap_iff {table : Fields Text} (h : table.names.Nodup) :
    (importMap table).reread = importMap table ↔
      ∀ entry ∈ table, entry.1.IsUnsplit ∧ entry.2.IsUnsplit := by
  have hreread : (importMap table).reread = .object [("imports", .object (Fields.ofList
      (table.map fun entry => (entry.1.joined, .text entry.2.joined))))] := by
    rw [importMap, Value.reread, rereadFields_eq_map]
    simp only [List.map_cons, List.map_nil, Value.reread, rereadFields_eq_map, List.map_map,
      Function.comp_def, Text.joined_ofString]
    rfl
  rw [hreread, importMap]
  simp only [Value.object.injEq, List.cons.injEq, Prod.mk.injEq, and_true, true_and]
  constructor
  · intro hsame entry hentry
    have hmem : (entry.1, Value.text entry.2) ∈ Fields.ofList
        (table.map fun entry => (entry.1.joined, .text entry.2.joined)) :=
      hsame ▸ List.mem_map_of_mem hentry
    obtain ⟨before, -, hbefore⟩ := List.mem_map.1 (Fields.mem_of_mem_ofList hmem)
    simp only [Prod.mk.injEq, Value.text.injEq] at hbefore
    rw [← hbefore.1, ← hbefore.2]
    exact ⟨Text.isUnsplit_joined _, Text.isUnsplit_joined _⟩
  · intro hunsplit
    have hjoined : (table.map fun entry => (entry.1.joined, Value.text entry.2.joined)) =
        table.map fun entry => (entry.1, .text entry.2) := by
      refine List.map_congr_left fun entry hentry => ?_
      obtain ⟨hname, htarget⟩ := hunsplit entry hentry
      rw [Text.joined_eq_self_iff.2 hname, Text.joined_eq_self_iff.2 htarget]
    rw [hjoined]
    exact Fields.ofList_of_nodup
      ((congrArg List.Nodup (Fields.names_map_values Value.text table)).mpr h)

/-- A page has its table on a line of its own in a script element. -/
theorem Document.isInfix_render (page : Page) :
    (Text.unlines ["    <script type=\"importmap\">", scriptJson page.importMap,
      "    </script>"]).toList <:+: page.render.toList :=
  Text.isInfix_unlines_of_isInfix (List.cons_ne_nil _ _) ⟨
    ["<!DOCTYPE html>", "<html>", "  <head>", "    <meta charset=\"utf-8\">",
      "    <meta name=\"viewport\" content=\"width=device-width, initial-scale=1.0\">" ++
        Text.join (page.stylesheets.map stylesheetTag),
      "    <style>", page.css, "    </style>", "    " ++ telemetryScript page.previewId],
    ["  </head>", "  <body>", page.body, page.entry, "  </body>", "</html>", ""], rfl⟩

/-- The page of a root has the table of the members on a line of its own. -/
theorem Compile.isInfix_withRoot (runtime : Runtime) (transform : Transform) (preview : NodeId)
    (root : Node) (nodes : List Node) (connections : List Connection) (reload : Option Text) :
    let document := withRoot runtime transform preview root nodes connections reload
    let table := table runtime nodes connections (members root nodes connections) document.modules
    (Text.unlines ["    <script type=\"importmap\">", Document.scriptJson (importMap table),
      "    </script>"]).toList <:+: document.html.toList := by
  intro document table
  have hpage := Document.isInfix_render (page runtime preview root
    (members root nodes connections) document.modules table)
  have hhtml : document.html = (page runtime preview root (members root nodes connections)
      document.modules table).render ++ (reload.map reloadMark).getD "" := rfl
  rw [hhtml, Text.toList_append]
  exact hpage.trans (List.prefix_append _ _).isInfix

/-- The JSON in the page of a preview closes no element and is read as the table of names, each with
its target and in order, exactly if no name and no target holds the two halves of a character next
to one another.  The address of each script gives back the code of the script, or what reports that
there is none, with a question mark for every half in it; that is the code itself exactly if there
is no half.  So scripts share an address exactly when their code is the same with these marks. -/
theorem compile_embeds (runtime : Runtime) (transform : Transform) (preview : NodeId)
    (nodes : List Node) (connections : List Connection) (reload : Option Text)
    (hnames : runtime.imports.names.Nodup) :
    let members := documentMembers preview nodes connections
    let document := compile runtime transform preview nodes connections reload
    let table := Compile.table runtime nodes connections members document.modules
    let embedded := Document.scriptJson (Compile.importMap table)
    let handles := document.handedOver.handles
    let code := Compile.codeFor runtime.packageBase transform nodes connections
    (document.root ≠ none →
      (Text.unlines ["    <script type=\"importmap\">", embedded, "    </script>"]).toList <:+:
        document.html.toList) ∧
    (Json.read embedded = .ok (.object
        [("imports", .object (table.map fun (name, target) => (name, .text target)))]) ↔
      ∀ entry ∈ table, entry.1.IsUnsplit ∧ entry.2.IsUnsplit) ∧
    ¬ Text.toList "</" <:+: embedded.toList ∧
    handles.names = idsOf (Compile.scripts members) ∧
    (∀ n ∈ Compile.scripts members,
      (handles.get? n.id).bind codeBehind? = some (.ofString (code n).replaced) ∧
      (.ofString (code n).replaced = code n ↔ (code n).isEncodable = true)) ∧
    ∀ n ∈ Compile.scripts members, ∀ m ∈ Compile.scripts members,
      handles.get? n.id = handles.get? m.id ↔ (code n).replaced = (code m).replaced := by
  intro members document table embedded handles code
  have hcovers : document.handedOver.Covers runtime.packageBase transform nodes connections
      members := covers_handedOver runtime transform preview nodes connections reload
  have htable : table.names.Nodup := Compile.nodup_names_table hnames nodes connections members _
  have hpage : document.root ≠ none →
      (Text.unlines ["    <script type=\"importmap\">", embedded, "    </script>"]).toList <:+:
        document.html.toList := by
    simp only [embedded, table, members, document, compile, documentMembers]
    cases Traversal.singleSource preview Role.dom nodes connections with
    | none => exact fun hroot => absurd rfl hroot
    | some root => exact fun _ =>
        Compile.isInfix_withRoot runtime transform preview root nodes connections reload
  refine ⟨hpage, ?_, Document.not_closer_isInfix_scriptJson _, hcovers.names, ?_, ?_⟩
  · rw [Document.read_scriptJson (Compile.isTextual_importMap table), Except.ok.injEq]
    exact Compile.reread_importMap_iff htable
  · intro n hn
    rw [hcovers.handle n hn, Option.bind_some, codeBehind?_moduleHandle]
    exact ⟨rfl, Text.ofString_replaced_eq_self_iff⟩
  · intro n hn m hm
    rw [hcovers.handle n hn, hcovers.handle m hm, Option.some.injEq, moduleHandle_eq_iff]

/-- A title has a quote, a backslash, a closing tag, a line end and characters that JSON writes as
one and as two units; two files have the same content, and the transform refuses the root. -/
theorem compile_embeds_odd_title :
    let code (id title content : Text) : Node := { id, kind := .code, title, content }
    let odd : Text := "\"\\</script>\né😀.js"
    let nodes := [{ id := "p", kind := .preview, title := "Preview" }, code "m" "main.js" "go",
      code "a" odd "1", code "b" "b.js" "1"]
    let imported (id : Text) : Connection := ⟨id, id, id ++ "-out-dom", "m", "m-in-imports"⟩
    let connections := [⟨"w", "m", "m-out-dom", "p", "p-in-dom"⟩, imported "a", imported "b"]
    let transform : Transform := fun source file =>
      if file = "main.js" then .error (.refused "é") else .ok source
    let document := compile {} transform "p" nodes connections (some (.ofString "7"))
    let table := Compile.table {} nodes connections (documentMembers "p" nodes connections)
      document.modules
    let embedded := Document.scriptJson (Compile.importMap table)
    let handles := document.handedOver.handles
    ({} : Runtime).imports.names.Nodup ∧
    Document.scriptText odd = "\"\\\"\\\\<\\/script>\\n\\u00e9\\ud83d\\ude00.js\"" ∧
    Json.read embedded = .ok (Compile.importMap table) ∧
    odd ∈ table.names ∧
    handles.get? "a" = handles.get? "b" ∧ handles.get? "a" ≠ handles.get? "m" ∧
    (handles.get? "m").bind codeBehind? =
      some (.ofString "console.error(\"Failed to compile main.js: \\u00e9\");\n") := by
  intro code odd nodes imported connections transform document table embedded handles
  have hnames : ({} : Runtime).imports.names.Nodup := by decide
  obtain ⟨-, hread, -, -, hcode, hshared⟩ :=
    compile_embeds {} transform "p" nodes connections (some (.ofString "7")) hnames
  let scripts := Compile.scripts (documentMembers "p" nodes connections)
  let codeFor := Compile.codeFor "https://esm.sh/" transform nodes connections
  obtain ⟨a, ha, hida, hcodea⟩ : ∃ n ∈ scripts, n.id = "a" ∧ codeFor n = "1" := by decide +kernel
  obtain ⟨b, hb, hidb, hcodeb⟩ : ∃ n ∈ scripts, n.id = "b" ∧ codeFor n = "1" := by decide +kernel
  obtain ⟨m, hm, hidm, hcodem⟩ : ∃ n ∈ scripts, n.id = "m" ∧
      codeFor n = "console.error(\"Failed to compile main.js: \\u00e9\");\n" := by
    decide +kernel
  refine ⟨hnames, by decide +kernel, hread.2 (by decide +kernel), by decide +kernel, ?_, ?_, ?_⟩
  · exact hida ▸ hidb ▸ (hshared a ha b hb).2 (congrArg Text.replaced (hcodea.trans hcodeb.symm))
  · intro hsame
    have hequal := (hshared a ha m hm).1 (hida ▸ hidm ▸ hsame)
    have hother : (codeFor a).replaced ≠ (codeFor m).replaced := by
      rw [hcodea, hcodem]
      decide +kernel
    exact hother hequal
  · refine hidm ▸ (hcode m hm).1.trans (congrArg some ?_)
    show Text.ofString (codeFor m).replaced = _
    rw [hcodem]
    decide +kernel

/-- A script of one half has the address of a script of one question mark, and is read back as
that. -/
theorem codeBehind?_ne_code_of_half :
    let half : Text := .ofList [.half 0]
    let code (id title content : Text) : Node := { id, kind := .code, title, content }
    let lone := code "a" "a.js" half
    let marked := code "b" "b.js" "?"
    let nodes := [{ id := "p", kind := .preview, title := "Preview" }, code "m" "main.js" "go",
      lone, marked]
    let imported (id : Text) : Connection := ⟨id, id, id ++ "-out-dom", "m", "m-in-imports"⟩
    let connections := [⟨"w", "m", "m-out-dom", "p", "p-in-dom"⟩, imported "a", imported "b"]
    let handles := (compile {} .unchanged "p" nodes connections none).handedOver.handles
    let codeFor := Compile.codeFor "https://esm.sh/" .unchanged nodes connections
    (handles.get? "a").bind codeBehind? ≠ some (codeFor lone) ∧
      handles.get? "a" = handles.get? "b" ∧ codeFor lone ≠ codeFor marked := by
  intro half code lone marked nodes imported connections handles codeFor
  have hlone : handles.get? "a" = some (moduleHandle half) := by decide +kernel
  have hmarked : handles.get? "b" = some (moduleHandle "?") := by decide +kernel
  have hcode : codeFor lone = half := by decide +kernel
  have hother : codeFor marked = "?" := by decide +kernel
  have hreplaced : half.replaced = (Text.ofString "?").replaced := by decide +kernel
  refine ⟨?_, ?_, ?_⟩
  · rw [hlone, Option.bind_some, codeBehind?_moduleHandle, hcode]
    decide +kernel
  · rw [hlone, hmarked, moduleHandle_eq_iff.2 hreplaced]
  · rw [hcode, hother]
    decide

end LiveCanvas
