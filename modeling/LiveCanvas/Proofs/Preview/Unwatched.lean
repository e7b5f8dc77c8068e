import LiveCanvas.Proofs.Preview.Watched
import LiveCanvas.Settings.Schema

/-!
# What previews do not watch has no influence

The watched text tells exactly which parts of a graph previews see: two graphs have one text when
their nodes agree in id, kind, title and content, their connections in their ends and ports, and the
same previews run, up to pairs of halves.  Graphs that agree have the same documents, under any
settings, and where settings fit no document the failure is the same too.
-/

namespace LiveCanvas
namespace Watch

/-- The graphs agree in all that previews watch. -/
structure Agree (g g' : Graph) : Prop where
  nodes : g.nodes.map (fun n => (n.id, n.kind, n.title, n.content)) =
    g'.nodes.map fun n => (n.id, n.kind, n.title, n.content)
  edges : g.connections.map Connection.key = g'.connections.map Connection.key
  running : g.running = g'.running

theorem view_eq_of_agree {g g' : Graph} (h : Agree g g') : view g = view g' := by
  have hnodes : g.nodes.map node = g'.nodes.map node := by
    refine map_eq_map_of_imp (fun n n' hsame => ?_) h.nodes
    simp only [Prod.mk.injEq] at hsame
    obtain ⟨hid, hkind, htitle, hcontent⟩ := hsame
    rw [node, node, hid, hkind, htitle, hcontent]
  have hedges : g.connections.map edge = g'.connections.map edge := by
    refine map_eq_map_of_imp (fun e e' hsame => ?_) h.edges
    simp only [Connection.key, Prod.mk.injEq] at hsame
    obtain ⟨hsource, hsourcePort, htarget, htargetPort⟩ := hsame
    rw [edge, edge, hsource, hsourcePort, htarget, htargetPort]
  rw [view, view, hnodes, hedges, h.running]

theorem agree_of_view_eq {g g' : Graph} (h : view g = view g') : Agree g g' := by
  obtain ⟨hnodes, hedges, hrunning⟩ := bare_eq_of_view_eq h
  refine ⟨map_eq_map_of_imp (fun n n' hsame => ?_) hnodes,
    map_eq_map_of_imp (fun e e' hsame => ?_) hedges, hrunning⟩
  · simp only [bareNode, Node.mk.injEq] at hsame
    obtain ⟨hid, hkind, htitle, hcontent, -⟩ := hsame
    rw [hid, hkind, htitle, hcontent]
  · simp only [bareEdge, Connection.mk.injEq] at hsame
    obtain ⟨-, hsource, hsourcePort, htarget, htargetPort⟩ := hsame
    rw [Connection.key, Connection.key, hsource, hsourcePort, htarget, htargetPort]

theorem view_eq_iff {g g' : Graph} : view g = view g' ↔ Agree g g' :=
  ⟨agree_of_view_eq, view_eq_of_agree⟩

/-- The watched text tells all that previews watch and nothing else, up to pairs of halves. -/
theorem text_eq_iff {g g' : Graph} : text g = text g' ↔ Agree (joined g) (joined g') := by
  rw [← view_eq_iff]
  refine ⟨view_joined_eq_of_text_eq, fun h => ?_⟩
  rw [← text_joined g, ← text_joined g', text, text, h]

/-! ## Documents -/

/-- Whether a document has a package is seen on the bare graph. -/
theorem namedPackages_bare (nodes : List Node) (connections : List Connection) (preview : NodeId) :
    (documentMembers preview (nodes.map bareNode) (connections.map bareEdge)).filterMap
      Compile.namedPackage? =
        (documentMembers preview nodes connections).filterMap Compile.namedPackage? := by
  simp only [documentMembers, singleSource_bare]
  cases Traversal.singleSource preview Role.dom nodes connections with
  | none => rfl
  | some root =>
      simp only [Option.map_some, Option.getD_some, members_bare, List.filterMap_map]
      rfl

/-- Settings compile the bare graph as they compile the graph. -/
theorem compiler_bare (d : Settings.Documents) (transform : Transform) (nodes : List Node)
    (connections : List Connection) (preview : NodeId) (reload : Option Text) :
    d.compiler transform (nodes.map bareNode) (connections.map bareEdge) preview reload =
      d.compiler transform nodes connections preview reload := by
  simp only [Settings.Documents.compiler, compile_bare, namedPackages_bare]

/-- Every preview has the same document in both graphs, from any compiler and under any settings. -/
def SameDocuments (g g' : Graph) : Prop :=
  (∀ runtime transform preview reload,
    compile runtime transform preview g.nodes g.connections reload =
      compile runtime transform preview g'.nodes g'.connections reload) ∧
  ∀ (d : Settings.Documents) transform preview reload,
    d.previewCompiler transform g preview reload = d.previewCompiler transform g' preview reload

theorem sameDocuments_of_view_eq {g g' : Graph} (h : view g = view g') : SameDocuments g g' := by
  obtain ⟨hnodes, hedges, -⟩ := bare_eq_of_view_eq h
  constructor
  · intro runtime transform preview reload
    rw [← compile_bare, hnodes, hedges, compile_bare]
  · intro d transform preview reload
    simp only [Settings.Documents.previewCompiler]
    rw [← compiler_bare, hnodes, hedges, compiler_bare]

/-- Two graphs have one watched text exactly when they agree in what previews watch once pairs of
halves are joined.  Graphs that agree as they are have one text, and every preview has the same
document in both, whatever else differs.  Where there are no pairs to join, one text is enough. -/
theorem compile_eq_of_text_eq (g g' : Graph) :
    (text g = text g' ↔ Agree (joined g) (joined g')) ∧
    (Agree g g' → text g = text g' ∧ SameDocuments g g') ∧
    (IsUnsplit g → IsUnsplit g' → text g = text g' → Agree g g' ∧ SameDocuments g g') := by
  refine ⟨text_eq_iff, fun h => ?_, fun hg hg' h => ?_⟩
  · have hview := view_eq_of_agree h
    exact ⟨congrArg (Json.write Json.tight) hview, sameDocuments_of_view_eq hview⟩
  · have hview := view_eq_of_text_eq hg hg' h
    exact ⟨agree_of_view_eq hview, sameDocuments_of_view_eq hview⟩

/-- A page is moved, resized, locked and marked, and its connection is made anew. -/
theorem compile_eq_of_text_eq_moved :
    let page : Node := { id := "f", kind := .code, title := "ü/😀.html", content := "<p>\n\"</p>" }
    let preview : Node := { id := "p", kind := .preview, title := "Preview" }
    let g : Graph :=
      { nodes := [page, preview], connections := [⟨"c", "f", "f-out-dom", "p", "p-in-dom"⟩]
        running := ["p"] }
    let marked : Node :=
      { page with
        position := ⟨500, 500⟩, size := ⟨.whole 10, .whole 20⟩, lock := some (.text "ada")
        isLoading := true, messages := [⟨.user, "hello"⟩] }
    let g' : Graph :=
      { nodes := [marked, preview], connections := [⟨"d", "f", "f-out-dom", "p", "p-in-dom"⟩]
        running := ["p"], pan := ⟨7, 7⟩ }
    IsUnsplit g ∧ IsUnsplit g' ∧ text g = text g' ∧ SameDocuments g g' := by
  intro page preview g marked g'
  have hg : IsUnsplit g := by constructor <;> simp [g, page, preview]
  have hg' : IsUnsplit g' := by constructor <;> simp [g', marked, page, preview]
  obtain ⟨-, hagree, htext⟩ := compile_eq_of_text_eq g g'
  have hsame : text g = text g' := (hagree ⟨rfl, rfl, rfl⟩).1
  exact ⟨hg, hg', hsame, (htext hg hg' hsame).2⟩

/-- A script holds the two halves of a character, and then the character: the watched text stays,
and the document changes. -/
theorem compile_ne_of_split_pair :
    let file (content : Text) : Graph :=
      { nodes := [{ id := "f", kind := .code, title := "main.js", content },
          { id := "p", kind := .preview, title := "Preview" }]
        connections := [⟨"c", "f", "f-out-dom", "p", "p-in-dom"⟩], running := ["p"] }
    let halves : Text := .ofList [.half 0x03d, .half 0x600]
    text (file halves) = text (file "😀") ∧ ¬ SameDocuments (file halves) (file "😀") := by
  intro file halves
  refine ⟨text_eq_iff.2 ⟨by decide +kernel, rfl, rfl⟩, fun hsame => ?_⟩
  have hmodules := congrArg (fun document => document.modules.map (·.handle))
    (hsame.1 {} .unchanged "p" none)
  revert hmodules
  decide +kernel

end Watch
end LiveCanvas
