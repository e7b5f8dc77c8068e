import LiveCanvas.Proofs.Edit.Writing
import LiveCanvas.Proofs.Preview.Mentions

/-!
# Import lines are added once

The source of a script is its content below an import line for each wired dependency that it does
not mention.  Such a line mentions its dependency, and what the content mentions is still mentioned
below the lines.  So a source mentions everything that is wired, and gets no more lines when it is
written into the script.
-/

namespace LiveCanvas
namespace Imports

variable {packageBase : Text} {nodes : List Node} {connections : List Connection} {n : Node}
  {d : Dependency}

/-! ## The lines above the content -/

/-- The lines for some dependencies, each with a line end. -/
def header : List Dependency → Text
  | [] => ""
  | first :: rest => Text.unlines ((first :: rest).map Dependency.line) ++ "\n"

theorem sourceOf_eq_append (packageBase : Text) (nodes : List Node)
    (connections : List Connection) (n : Node) :
    sourceOf packageBase nodes connections n =
      header (unmentioned packageBase nodes connections n) ++ n.content := by
  rw [sourceOf]
  cases unmentioned packageBase nodes connections n with
  | nil => exact (Text.empty_append _).symm
  | cons first rest => rfl

theorem isInfix_header {missing : List Dependency} (hd : d ∈ missing) :
    d.line.toList <:+: (header missing).toList := by
  cases missing with
  | nil => cases hd
  | cons first rest =>
      have hline := Text.isInfix_unlines (List.mem_map_of_mem (f := Dependency.line) hd)
      rw [header, Text.toList_append]
      exact hline.trans (List.prefix_append _ _).isInfix

/-- A header is empty or ends in a line end. -/
theorem header_cases (missing : List Dependency) :
    header missing = "" ∨ ∃ lines, (header missing).toList = lines ++ [.char '\n'] := by
  cases missing with
  | nil => exact .inl rfl
  | cons first rest => exact .inr ⟨_, Text.toList_append⟩

/-! ## What a source mentions -/

/-- A source mentions everything that is wired: what the content mentions, and what has a line. -/
theorem isMentioned_sourceOf (hd : d ∈ wired packageBase nodes connections n) :
    isMentioned (sourceOf packageBase nodes connections n).toList d = true := by
  obtain ⟨m, -, hoffered⟩ := mem_wired.1 hd
  rw [sourceOf_eq_append, Text.toList_append]
  cases hcontent : isMentioned n.content.toList d with
  | true =>
      obtain hempty | ⟨lines, hlines⟩ :=
        header_cases (unmentioned packageBase nodes connections n)
      · rw [hempty]
        exact hcontent
      · rw [hlines, List.append_assoc]
        exact isMentioned_below hoffered hcontent lines
  | false =>
      have hline := isInfix_header (mem_unmentioned.2 ⟨hd, hcontent⟩)
      exact isMentioned_of_line hoffered (hline.trans (List.prefix_append _ _).isInfix)

/-- A script that mentions everything that is wired to it is its own source. -/
theorem sourceOf_of_mentioned
    (h : ∀ d ∈ wired packageBase nodes connections n, isMentioned n.content.toList d = true) :
    sourceOf packageBase nodes connections n = n.content := by
  have hnone : unmentioned packageBase nodes connections n = [] := by
    rw [List.eq_nil_iff_forall_not_mem]
    intro d hd
    obtain ⟨hwired, hnot⟩ := mem_unmentioned.1 hd
    rw [h d hwired] at hnot
    cases hnot
  rw [sourceOf_eq_append, hnone]
  exact Text.empty_append _

/-- A script that has the source of another one as its content, with the same wired to it, is its
own source. -/
theorem sourceOf_of_content_eq {nodes' : List Node} {connections' : List Connection} {n' : Node}
    (hwired : wired packageBase nodes' connections' n' = wired packageBase nodes connections n)
    (hcontent : n'.content = sourceOf packageBase nodes connections n) :
    sourceOf packageBase nodes' connections' n' = sourceOf packageBase nodes connections n := by
  rw [← hcontent]
  refine sourceOf_of_mentioned fun d hd => ?_
  rw [hwired] at hd
  rw [hcontent]
  exact isMentioned_sourceOf hd

/-! ## Writing a source back -/

/-- The same is wired to a code file that got another content. -/
theorem wired_setContent {g : Graph} (hnodup : (idsOf g.nodes).Nodup) (hn : n ∈ g.nodes)
    (hcode : n.kind = .code) (content : Text) :
    wired packageBase (g.setContent n.id content).nodes g.connections { n with content } =
      wired packageBase g.nodes g.connections n := by
  have hpackage : ∀ m ∈ g.nodes, m.kind = .packageSearch →
      (m.putContent n.id content).content = m.content := by
    intro m hm hkind
    have hid : m.id ≠ n.id := by
      intro hid
      rw [eq_of_mem_of_id_eq hnodup hm hn hid, hcode] at hkind
      cases hkind
    rw [Node.putContent_of_ne hid]
  have hmap := wired_map (Node.keepsNames_putContent n.id content) keepsEnds_id packageBase g.nodes
    g.connections hpackage n
  rw [List.map_id, Node.putContent, if_pos rfl] at hmap
  exact hmap

/-- The source of a code file ends in its content and mentions everything that is wired to the file.
When it is written into the file it is the source of the file again, whether the file is looked at
in the graph as it was or in the graph with the new content. -/
theorem sourceOf_written (packageBase : Text) {g : Graph} (hnodup : (idsOf g.nodes).Nodup)
    {n : Node} (hn : n ∈ g.nodes) (hcode : n.kind = .code) :
    let source := sourceOf packageBase g.nodes g.connections n
    let written : Node := { n with content := source }
    let after := g.setContent n.id source
    n.content.toList <:+ source.toList ∧
    (∀ d ∈ wired packageBase g.nodes g.connections n, isMentioned source.toList d = true) ∧
    sourceOf packageBase g.nodes g.connections written = source ∧
    after.node? n.id = some written ∧
    sourceOf packageBase after.nodes after.connections written = source := by
  intro source written after
  refine ⟨?_, fun d hd => isMentioned_sourceOf hd, ?_, ?_, ?_⟩
  · simp only [source]
    rw [sourceOf_eq_append, Text.toList_append]
    exact List.suffix_append _ _
  · exact sourceOf_of_content_eq rfl rfl
  · have hids : idsOf after.nodes = idsOf g.nodes := Graph.idsOf_modifyNode fun _ => rfl
    have hmem : written ∈ after.nodes := List.mem_map.2 ⟨n, hn, if_pos rfl⟩
    exact Graph.node?_of_mem (hids ▸ hnodup) hmem
  · exact sourceOf_of_content_eq (wired_setContent hnodup hn hcode source) rfl

/-- One wired file is mentioned at the very start of the content, and another one is not. -/
theorem sourceOf_written_util :
    let main : Node := { id := "m", kind := .code, title := "main.js", content := "React.run()" }
    let imported (id : NodeId) : Connection :=
      ⟨id, id, id ++ "-out-dom", "m", "m-in-imports"⟩
    let g : Graph :=
      { nodes := [main, { id := "r", kind := .code, title := "React.js" },
          { id := "u", kind := .code, title := "util.js" }]
        connections := [imported "r", imported "u"] }
    let source := sourceOf "https://esm.sh/" g.nodes g.connections main
    let written : Node := { main with content := source }
    let after := g.setContent "m" source
    source = "import * as util from \"./util.js\";\nReact.run()" ∧
    sourceOf "https://esm.sh/" g.nodes g.connections written = source ∧
    after.node? "m" = some written ∧
    sourceOf "https://esm.sh/" after.nodes after.connections written = source := by
  intro main imported g source written after
  have hnodup : (idsOf g.nodes).Nodup := by decide
  have hmain : main ∈ g.nodes := List.mem_cons_self
  obtain ⟨-, -, hsame, hnode, hagain⟩ := sourceOf_written "https://esm.sh/" hnodup hmain rfl
  exact ⟨by decide +kernel, hsame, hnode, hagain⟩

end Imports
end LiveCanvas
