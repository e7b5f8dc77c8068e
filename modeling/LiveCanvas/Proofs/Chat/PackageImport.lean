import LiveCanvas.Chat.PackageImport
import LiveCanvas.Proofs.Canvas.NodeList
import LiveCanvas.Proofs.Text.Cut
import Mathlib.Data.List.Infix

/-!
# Which files a package reaches

A package is imported by every code file it feeds, unless its address occurs in the file already.
The address of one package can be the beginning of another one's, so a file that imports only the
longer one is passed over.  No other file is.  Once a package was imported there is nothing left to
do.
-/

namespace LiveCanvas

theorem nodup_eraseDups {α : Type} [BEq α] [LawfulBEq α] (l : List α) : l.eraseDups.Nodup := by
  induction l using List.reverseRecOn with
  | nil => simp
  | append_singleton l a ih =>
      rw [List.eraseDups_append]
      by_cases hmem : a ∈ l
      · simpa [hmem, List.removeAll] using ih
      · have hnew : a ∉ l.eraseDups := fun h => hmem (List.mem_eraseDups.1 h)
        simpa [hmem, List.removeAll, List.eraseDups_cons, List.nodup_append, hnew] using
          ⟨ih, fun b hb hab => hmem (hab ▸ hb)⟩

namespace Traversal

theorem mem_consumers_iff {node id : NodeId} {connections : List Connection} :
    id ∈ consumers node connections ↔ ∃ c ∈ connections, c.source = node ∧ c.target = id := by
  simp [consumers, and_assoc]

theorem nodup_consumers (node : NodeId) (connections : List Connection) :
    (consumers node connections).Nodup :=
  nodup_eraseDups _

end Traversal

namespace PackageImport

/-- The characters that a script puts around an address. -/
def quotes : List Rune := ['\'', '"', '\x60']

/-- The address stands in the text with quotes right around it. -/
def Imports (address text : List Rune) : Prop :=
  ∃ q ∈ quotes, ∃ q' ∈ quotes, q :: (address ++ [q']) <:+: text

/-- Wherever `base` stands in the text, there is a quote right before it and one behind it. -/
def QuotesAddresses (base text : List Rune) : Prop :=
  ∀ front back, text = front ++ base ++ back →
    (∃ q ∈ quotes, front.getLast? = some q) ∧ ∃ q ∈ quotes, q ∈ back

theorem Imports.isInfix {address text : List Rune} (h : Imports address text) :
    address <:+: text := by
  obtain ⟨q, -, q', -, hin⟩ := h
  exact List.IsInfix.trans ⟨[q], [q'], by simp⟩ hin

theorem not_imports_append {address text : List Rune} (h : ¬ address <:+: text) :
    ¬ ∃ rest, Imports (address ++ rest) text :=
  fun ⟨rest, hlonger⟩ => h ((List.prefix_append address rest).isInfix.trans hlonger.isInfix)

/-- An address that occurs in the text begins one that is imported. -/
theorem QuotesAddresses.exists_imports {base name text : List Rune} (h : QuotesAddresses base text)
    (hname : ∀ q ∈ quotes, q ∉ name) (hin : base ++ name <:+: text) :
    ∃ rest, Imports (base ++ name ++ rest) text := by
  obtain ⟨front, back, htext⟩ := hin
  obtain ⟨⟨q, hq, hfront⟩, q', hq', hback⟩ :=
    h front (name ++ back) (by rw [← htext]; simp)
  have hback : q' ∈ back := (List.mem_append.1 hback).resolve_left (hname q' hq')
  obtain ⟨rest, more, rfl⟩ := List.append_of_mem hback
  obtain ⟨before, rfl⟩ := List.getLast?_eq_some_iff.1 hfront
  refine ⟨rest, q, hq, q', hq', before, more, ?_⟩
  rw [← htext]
  simp

/-- The line that imports a package has its address in quotes. -/
theorem imports_line (name address content : Text) :
    Imports address.toList (line name address ++ content).toList := by
  refine ⟨_, List.mem_cons_self, _, List.mem_cons_self,
    ("import * as " ++ identifier name ++ " from ").toList, (";\n" ++ content).toList, ?_⟩
  simp [line]

section Inject

variable {g : Graph} {id : NodeId} {name base : Text} {permits : NodeId → Bool}

/-- A file with the line in front, if it is one of those meant. -/
def importing (line : Text) (ids : List NodeId) (n : Node) : Node :=
  if n.id ∈ ids then { n with content := line ++ n.content } else n

@[simp] theorem id_importing (line : Text) (ids : List NodeId) (n : Node) :
    (importing line ids n).id = n.id := by
  unfold importing
  split <;> rfl

theorem importing_of_notMem {line : Text} {ids : List NodeId} {n : Node} (h : n.id ∉ ids) :
    importing line ids n = n := if_neg h

/-- An import is one change of each node. -/
theorem inject_of_packageAt? (h : packageAt? g id = some name) (base : Text)
    (permits : NodeId → Bool) :
    inject g id base permits = ((targets g id (base ++ name) permits).length,
      { g with nodes := g.nodes.map (importing (line name (base ++ name))
          (targets g id (base ++ name) permits)) }) := by
  have hnodup : (targets g id (base ++ name) permits).Nodup :=
    (Traversal.nodup_consumers id g.connections).filter _
  rw [inject, h]
  exact congrArg (Prod.mk _) (Graph.foldl_modifyNode
    (fun n => { n with content := line name (base ++ name) ++ n.content }) (.inl hnodup)
    (fun _ => rfl) g)

theorem node?_inject (h : packageAt? g id = some name) (base : Text) (permits : NodeId → Bool)
    (t : NodeId) :
    (inject g id base permits).2.node? t = (g.node? t).map
      (importing (line name (base ++ name)) (targets g id (base ++ name) permits)) := by
  rw [inject_of_packageAt? h]
  exact Graph.node?_of_nodes_eq_map (id_importing _ _) rfl t

theorem mem_targets_iff {address : Text} {t : NodeId} :
    t ∈ targets g id address permits ↔ (∃ c ∈ g.connections, c.source = id ∧ c.target = t) ∧
      ∃ n, g.node? t = some n ∧ n.kind = .code ∧ ¬ address.toList <:+: n.content.toList ∧
        permits t = true := by
  rw [targets, List.mem_filter, Traversal.mem_consumers_iff, wants]
  cases g.node? t with
  | none => simp
  | some n => simp [← Text.occursIn_iff_isInfix, and_assoc]

theorem packageAt?_eq_some_iff : packageAt? g id = some name ↔
    ∃ p, g.node? id = some p ∧ p.kind = .packageSearch ∧ Naming.packageName p = name ∧
      name ≠ "" := by
  rw [packageAt?, Option.filter_eq_some_iff, Option.map_eq_some_iff]
  simp only [Option.filter_eq_some_iff, beq_iff_eq, bne_iff_ne, ← exists_and_right, and_assoc]

/-- A package is no code file, so it stays what it is. -/
theorem packageAt?_inject (h : packageAt? g id = some name) (base : Text)
    (permits : NodeId → Bool) :
    packageAt? (inject g id base permits).2 id = some name := by
  obtain ⟨p, hp, hkind, hname, hne⟩ := packageAt?_eq_some_iff.1 h
  have hother : p.id ∉ targets g id (base ++ name) permits := by
    intro hmem
    obtain ⟨-, n, hn, hcode, -⟩ := mem_targets_iff.1 hmem
    rw [(Graph.node?_eq_some hp).2, hp] at hn
    obtain rfl := Option.some.inj hn
    rw [hkind] at hcode
    cases hcode
  refine packageAt?_eq_some_iff.2 ⟨p, ?_, hkind, hname, hne⟩
  rw [node?_inject h, hp, Option.map_some, importing_of_notMem hother]

/-- What was fed and had no address gets the line, so the next import finds nothing to do. -/
theorem targets_inject (h : packageAt? g id = some name) (base : Text)
    (permits : NodeId → Bool) :
    targets (inject g id base permits).2 id (base ++ name) permits = [] := by
  rw [List.eq_nil_iff_forall_not_mem]
  intro t ht
  obtain ⟨hfed, m, hm, hcode, hnot, hpermits⟩ := mem_targets_iff.1 ht
  rw [node?_inject h, Option.map_eq_some_iff] at hm
  obtain ⟨n, hn, rfl⟩ := hm
  have hid : n.id = t := (Graph.node?_eq_some hn).2
  by_cases hmem : n.id ∈ targets g id (base ++ name) permits
  · rw [importing, if_pos hmem] at hnot
    exact hnot (imports_line name (base ++ name) n.content).isInfix
  · rw [importing_of_notMem hmem] at hcode hnot
    rw [inject_of_packageAt? h] at hfed
    exact hmem (mem_targets_iff.2 ⟨hid ▸ hfed, n, hid ▸ hn, hcode, hnot, hid ▸ hpermits⟩)

/-- A second import finds nothing to do. -/
theorem inject_inject (g : Graph) (id : NodeId) (base : Text) (permits : NodeId → Bool) :
    inject (inject g id base permits).2 id base permits = (0, (inject g id base permits).2) := by
  cases hpackage : packageAt? g id with
  | none => simp [inject, hpackage]
  | some name =>
      rw [inject, packageAt?_inject hpackage]
      simp [targets_inject hpackage]

/-- After the import of a package, every code file that it feeds and that may be changed imports it,
just if it did so before when it imported a package whose name begins like this one.  To import it
once more changes nothing. -/
theorem inject_reaches_iff {p : Node} (hp : g.node? id = some p) (hkind : p.kind = .packageSearch)
    (hempty : Naming.packageName p ≠ "")
    (hname : ∀ q ∈ quotes, q ∉ (Naming.packageName p).toList) (base : Text)
    (permits : NodeId → Bool) :
    let address := base ++ Naming.packageName p
    let after := (inject g id base permits).2
    (∀ c ∈ g.connections, c.source = id → ∀ n, g.node? c.target = some n → n.kind = .code →
      permits c.target = true → QuotesAddresses base.toList n.content.toList →
      ∃ m, after.node? c.target = some m ∧
        (Imports address.toList m.content.toList ↔
          ((∃ rest, Imports (address.toList ++ rest) n.content.toList) →
            Imports address.toList n.content.toList))) ∧
    inject after id base permits = (0, after) := by
  intro address after
  have hpackage : packageAt? g id = some (Naming.packageName p) :=
    packageAt?_eq_some_iff.2 ⟨p, hp, hkind, rfl, hempty⟩
  refine ⟨fun c hc hsource n hn hcode hpermits hquotes => ?_, inject_inject g id base permits⟩
  have hid : n.id = c.target := (Graph.node?_eq_some hn).2
  refine ⟨_, by rw [node?_inject hpackage, hn, Option.map_some], ?_⟩
  by_cases hin : address.toList <:+: n.content.toList
  · -- the file is passed over, and something in it begins with the address
    have hother : n.id ∉ targets g id address permits := by
      intro hmem
      obtain ⟨-, m, hm, -, hnot, -⟩ := mem_targets_iff.1 hmem
      rw [hid, hn] at hm
      obtain rfl := Option.some.inj hm
      exact hnot hin
    have hlonger : ∃ rest, Imports (address.toList ++ rest) n.content.toList := by
      rw [Text.toList_append] at hin ⊢
      exact hquotes.exists_imports hname hin
    rw [importing_of_notMem hother]
    exact ⟨fun h _ => h, fun h => h hlonger⟩
  · have hmem : n.id ∈ targets g id address permits :=
      mem_targets_iff.2 ⟨⟨c, hc, hsource, hid.symm⟩, n, hid ▸ hn, hcode, hin, hid ▸ hpermits⟩
    rw [importing, if_pos hmem]
    exact iff_of_true (imports_line _ address n.content)
      fun hlonger => absurd hlonger (not_imports_append hin)

theorem imports_iff {address text : List Rune} : Imports address text ↔
    (quotes.any fun q => quotes.any fun q' =>
      Text.occursIn (q :: (address ++ [q'])) text) = true := by
  simp only [Imports, List.any_eq_true, Text.occursIn_iff_isInfix]

/-- It is enough to look at the positions of a text, one after the other. -/
theorem quotesAddresses_iff {base text : List Rune} : QuotesAddresses base text ↔
    ∀ k ∈ List.range (text.length + 1), base <+: text.drop k →
      (text.take k).getLast?.any quotes.contains = true ∧
      (text.drop (k + base.length)).any quotes.contains = true := by
  simp only [Option.any_eq_true, List.any_eq_true, List.contains_iff_mem, List.mem_range,
    Nat.lt_succ_iff]
  constructor
  · rintro h k - ⟨back, hback⟩
    have hdrop : text.drop (k + base.length) = back := by
      rw [← List.drop_drop, ← hback, List.drop_left]
    obtain ⟨⟨q, hq, hbefore⟩, q', hq', hbehind⟩ := h (text.take k) back
      (by rw [List.append_assoc, hback, List.take_append_drop])
    exact ⟨⟨q, hbefore, hq⟩, q', hdrop ▸ hbehind, hq'⟩
  · rintro h front back rfl
    obtain ⟨⟨q, hbefore, hq⟩, q', hbehind, hq'⟩ := h front.length (by simp) (by simp)
    rw [List.append_assoc, List.take_left] at hbefore
    rw [← List.length_append, List.drop_left] at hbehind
    exact ⟨⟨q, hq, hbefore⟩, q', hq', hbehind⟩

instance (address text : List Rune) : Decidable (Imports address text) :=
  decidable_of_iff _ imports_iff.symm

instance (base text : List Rune) : Decidable (QuotesAddresses base text) :=
  decidable_of_iff _ quotesAddresses_iff.symm

/-- One file imports a package with a longer name and the package itself, the other one neither. -/
theorem inject_reaches_iff_longer_name :
    let p : Node := { id := "npm", kind := .packageSearch, title := "NPM", content := " react " }
    let app : Node := { id := "a", kind := .code, title := "app.js", content :=
      "import 'https://esm.sh/react-dom';\nimport \"https://esm.sh/react\";" }
    let util : Node := { id := "u", kind := .code, title := "util.js", content :=
      "import 'https://esm.sh/date-fns';" }
    let edge (id target : Text) : Connection :=
      ⟨id, "npm", "npm-out-package", target, target ++ "-in-imports"⟩
    let g : Graph := { nodes := [p, app, util], connections := [edge "x" "a", edge "y" "u"] }
    let after := (inject g "npm" "https://esm.sh/" fun _ => true).2
    g.node? "npm" = some p ∧ Naming.packageName p = "react" ∧
      (∀ q ∈ quotes, q ∉ Text.toList "react") ∧
      (∀ n ∈ [app, util], g.node? n.id = some n ∧
        QuotesAddresses (Text.toList "https://esm.sh/") n.content.toList ∧
        ∃ m, after.node? n.id = some m ∧
          Imports (Text.toList "https://esm.sh/react") m.content.toList) ∧
      inject after "npm" "https://esm.sh/" (fun _ => true) = (0, after) := by
  intro p app util edge g after
  have hp : g.node? "npm" = some p := rfl
  have hname : Naming.packageName p = "react" := by decide +kernel
  have hquotes : ∀ q ∈ quotes, q ∉ (Naming.packageName p).toList := by
    simp [hname, quotes]
  obtain ⟨hreaches, hagain⟩ := inject_reaches_iff hp rfl (by rw [hname]; decide) hquotes
    "https://esm.sh/" fun _ => true
  refine ⟨hp, hname, hname ▸ hquotes, fun n hn => ?_, hagain⟩
  rw [List.mem_cons, List.mem_singleton] at hn
  obtain rfl | rfl := hn
  · obtain ⟨m, hm, himports⟩ := hreaches (edge "x" "a") (by simp [g]) rfl app rfl rfl rfl
      (by decide +kernel)
    refine ⟨rfl, by decide +kernel, m, hm, ?_⟩
    rw [hname] at himports
    exact himports.2 fun _ => by decide +kernel
  · obtain ⟨m, hm, himports⟩ := hreaches (edge "y" "u") (by simp [g]) rfl util rfl rfl rfl
      (by decide +kernel)
    refine ⟨rfl, by decide +kernel, m, hm, ?_⟩
    rw [hname] at himports
    exact himports.2 fun hlonger => absurd hlonger (not_imports_append (by decide +kernel))

/-- A package is not imported where a package with a longer name is. -/
theorem inject_passes_over_longer_name :
    let p : Node := { id := "npm", kind := .packageSearch, title := "NPM", content := "react" }
    let app : Node := { id := "a", kind := .code, title := "app.js", content :=
      "import { createRoot } from 'https://esm.sh/react-dom';\n" }
    let g : Graph :=
      { nodes := [p, app], connections := [⟨"x", "npm", "npm-out-package", "a", "a-in-imports"⟩] }
    let r := inject g "npm" "https://esm.sh/" fun _ => true
    Naming.packageName p = "react" ∧
      QuotesAddresses (Text.toList "https://esm.sh/") app.content.toList ∧
      g.connections.map (·.target) = ["a"].map Text.ofString ∧ r.1 = 0 ∧
      (r.2.node? "a").map (·.content) = some app.content ∧
      ¬ Imports (Text.toList "https://esm.sh/react") app.content.toList := by
  decide +kernel

end Inject
end PackageImport
end LiveCanvas
