import LiveCanvas.Preview.Imports
import LiveCanvas.Proofs.Canvas.Closure
import LiveCanvas.Proofs.Text.Cut
import Mathlib.Data.List.Infix

/-!
# What a text mentions

A text mentions a dependency when a name of it is part of the text, or when its identifier stands in
the text on its own.  Both stay true when lines are put above the text: the line end before the text
continues no identifier.  And an import line mentions what it imports.
-/

namespace LiveCanvas

namespace Text

theorem toList_unlines_cons (first : Text) {parts : List Text} (h : parts ≠ []) :
    (unlines (first :: parts)).toList = first.toList ++ .char '\n' :: (unlines parts).toList := by
  obtain ⟨second, parts, rfl⟩ := List.exists_cons_of_ne_nil h
  simp [unlines, Text.intercalate_cons_cons]

theorem toList_unlines_append {front back : List Text} (hfront : front ≠ []) (hback : back ≠ []) :
    (unlines (front ++ back)).toList =
      (unlines front).toList ++ .char '\n' :: (unlines back).toList := by
  induction front with
  | nil => exact absurd rfl hfront
  | cons first rest ih =>
      cases rest with
      | nil =>
          rw [List.singleton_append, toList_unlines_cons first hback]
          simp [unlines]
      | cons second rest =>
          have hrest : second :: rest ≠ [] := List.cons_ne_nil _ _
          rw [List.cons_append,
            toList_unlines_cons first (List.append_ne_nil_of_left_ne_nil hrest back), ih hrest,
            toList_unlines_cons first hrest, List.append_assoc, List.cons_append]

/-- A text is longer with a longer line in it. -/
theorem length_unlines_lt (front back : List Text) {line longer : Text}
    (h : line.length < longer.length) :
    (unlines (front ++ line :: back)).length < (unlines (front ++ longer :: back)).length := by
  simp only [length] at h ⊢
  induction front with
  | nil =>
      cases back with
      | nil => simpa [unlines] using h
      | cons next back =>
          have hback : next :: back ≠ [] := List.cons_ne_nil _ _
          simp only [List.nil_append, toList_unlines_cons _ hback, List.length_append]
          omega
  | cons first front ih =>
      have hrest (line : Text) : front ++ line :: back ≠ [] := by simp
      simp only [List.cons_append, toList_unlines_cons _ (hrest _), List.length_append,
        List.length_cons]
      omega

/-- Lines that follow each other stand in the text that is made of them and others. -/
theorem isInfix_unlines_of_isInfix {lines parts : List Text} (hne : lines ≠ [])
    (h : lines <:+: parts) : (unlines lines).toList <:+: (unlines parts).toList := by
  obtain ⟨front, back, rfl⟩ := h
  have hstart : (unlines lines).toList <+: (unlines (lines ++ back)).toList := by
    by_cases hback : back = []
    · rw [hback, List.append_nil]
    · rw [toList_unlines_append hne hback]
      exact List.prefix_append _ _
  rw [List.append_assoc]
  by_cases hfront : front = []
  · rw [hfront, List.nil_append]
    exact hstart.isInfix
  · rw [toList_unlines_append hfront (List.append_ne_nil_of_left_ne_nil hne back)]
    exact hstart.isInfix.trans (List.suffix_append_of_suffix (List.suffix_cons _ _)).isInfix

/-- Each part is part of the whole. -/
theorem isInfix_unlines {part : Text} {parts : List Text} (h : part ∈ parts) :
    part.toList <:+: (unlines parts).toList := by
  have hline := isInfix_unlines_of_isInfix (List.cons_ne_nil part [])
    ((List.singleton_infix_iff part parts).2 h)
  rwa [unlines, Text.intercalate_singleton] at hline

end Text

namespace Imports

/-! ## Identifiers that stand on their own -/

/-- The identifier is part of the text, with nothing that continues it on either side. -/
def StandsIn (identifier text : List Rune) : Prop :=
  ∃ front back, text = front ++ identifier ++ back ∧
    front.getLast?.any continuesIdentifier = false ∧ back.head?.any continuesIdentifier = false

variable {identifier text : List Rune}

/-- The search from a place in a text, with the character before that place. -/
theorem standsAlone_iff_exists (hne : identifier ≠ []) (before : Option Rune) :
    standsAlone identifier before text = true ↔
      ∃ front back, text = front ++ identifier ++ back ∧
        (front.getLast?.or before).any continuesIdentifier = false ∧
          back.head?.any continuesIdentifier = false := by
  induction text generalizing before with
  | nil => simp [standsAlone, hne]
  | cons c cs ih =>
      rw [standsAlone, Bool.or_eq_true, ih]
      simp only [Bool.and_eq_true, Bool.not_eq_true', List.isPrefixOf_iff_prefix]
      constructor
      · rintro (⟨⟨⟨back, hback⟩, hbefore⟩, hafter⟩ | ⟨front, back, hcs, hbefore, hafter⟩)
        · rw [← hback, List.drop_left] at hafter
          exact ⟨[], back, by simpa using hback.symm, by simpa using hbefore, hafter⟩
        · refine ⟨c :: front, back, by simp [hcs], ?_, hafter⟩
          cases hlast : front.getLast? with
          | none => simpa [List.getLast?_cons, hlast] using hbefore
          | some d => simpa [List.getLast?_cons, hlast] using hbefore
      · rintro ⟨front, back, hcs, hbefore, hafter⟩
        cases front with
        | nil =>
            refine .inl ⟨⟨⟨back, by simpa using hcs.symm⟩, by simpa using hbefore⟩, ?_⟩
            rw [hcs, List.nil_append, List.drop_left]
            exact hafter
        | cons d front =>
            rw [List.cons_append, List.cons_append, List.cons.injEq] at hcs
            obtain ⟨rfl, hcs⟩ := hcs
            refine .inr ⟨front, back, hcs, ?_, hafter⟩
            cases hlast : front.getLast? with
            | none => simpa [List.getLast?_cons, hlast] using hbefore
            | some e => simpa [List.getLast?_cons, hlast] using hbefore

theorem standsAlone_iff (hne : identifier ≠ []) :
    standsAlone identifier none text = true ↔ StandsIn identifier text := by
  rw [standsAlone_iff_exists hne, StandsIn]
  simp only [Option.or_none]

/-- What stands in a text still stands there below other lines. -/
theorem StandsIn.below (h : StandsIn identifier text) (lines : List Rune) :
    StandsIn identifier (lines ++ .char '\n' :: text) := by
  obtain ⟨front, back, rfl, hbefore, hafter⟩ := h
  refine ⟨lines ++ .char '\n' :: front, back, by simp, ?_, hafter⟩
  rw [List.getLast?_append, List.getLast?_cons, Option.some_or]
  cases hlast : front.getLast? with
  | none => decide +kernel
  | some c => simpa [hlast] using hbefore

end Imports

namespace Naming

/-- There is always something to bind. -/
theorem identifierChars_ne_nil (name : List Rune) : identifierChars name ≠ [] := by
  unfold identifierChars
  split
  · simp
  · split <;> simp

theorem toList_identifier_ne_nil (name : Text) : (identifier name).toList ≠ [] := by
  rw [identifier, Text.toList_ofList]
  exact identifierChars_ne_nil _

/-- Only code files are anything in a document. -/
theorem kind_of_fileRole? {n : Node} {role : FileRole} (h : fileRole? n = some role) :
    n.kind = .code := by
  unfold fileRole? at h
  split at h
  · next hcode => exact hcode
  · cases h

end Naming

namespace Imports

variable {packageBase : Text} {nodes : List Node} {connections : List Connection} {n : Node}
  {d : Dependency} {text : List Rune}

/-! ## Dependencies -/

/-- What is offered is a package by its name, or a script by its title and its path. -/
theorem offered?_cases (h : offered? packageBase nodes connections n = some d) :
    (n.kind = .packageSearch ∧ Naming.packageName n ≠ "" ∧
      d = ⟨[Naming.packageName n], packageBase ++ Naming.packageName n,
        Naming.identifier (Naming.packageName n)⟩) ∨
    (n.kind ≠ .packageSearch ∧ Naming.fileRole? n = some .script ∧
      d = ⟨[n.title, Path.pathOf n nodes connections], "./" ++ n.title,
        Naming.identifier n.title⟩) := by
  unfold offered? at h
  split at h
  · next hkind =>
      dsimp only at h
      split at h
      · cases h
      · next hname => exact .inl ⟨hkind, hname, (Option.some.inj h).symm⟩
  · next hkind =>
      split at h
      · next hscript => exact .inr ⟨hkind, hscript, (Option.some.inj h).symm⟩
      · cases h

theorem offered?_of_script (hscript : Naming.fileRole? n = some .script) :
    offered? packageBase nodes connections n =
      some ⟨[n.title, Path.pathOf n nodes connections], "./" ++ n.title,
        Naming.identifier n.title⟩ := by
  have hkind : n.kind ≠ .packageSearch := by
    rw [Naming.kind_of_fileRole? hscript]
    decide
  rw [offered?, if_neg hkind, if_pos hscript]

/-- A dependency is imported by one of its names and bound to the identifier of that name. -/
theorem exists_name_of_offered? (h : offered? packageBase nodes connections n = some d) :
    ∃ name ∈ d.names, name.toList <:+: d.specifier.toList ∧
      d.identifier = Naming.identifier name := by
  have hpart : ∀ base name : Text, name.toList <:+: (base ++ name).toList := by
    intro base name
    rw [Text.toList_append]
    exact (List.suffix_append _ _).isInfix
  obtain ⟨-, -, rfl⟩ | ⟨-, -, rfl⟩ := offered?_cases h
  · exact ⟨Naming.packageName n, List.mem_singleton_self _, hpart _ _, rfl⟩
  · exact ⟨n.title, List.mem_cons_self, hpart _ _, rfl⟩

theorem toList_identifier_ne_nil (h : offered? packageBase nodes connections n = some d) :
    d.identifier.toList ≠ [] := by
  obtain ⟨name, -, -, hidentifier⟩ := exists_name_of_offered? h
  rw [hidentifier]
  exact Naming.toList_identifier_ne_nil name

theorem isMentioned_iff (h : offered? packageBase nodes connections n = some d) :
    isMentioned text d = true ↔
      (∃ name ∈ d.names, name.toList <:+: text) ∨ StandsIn d.identifier.toList text := by
  rw [isMentioned, Bool.or_eq_true, standsAlone_iff (toList_identifier_ne_nil h)]
  simp only [List.any_eq_true, Text.occursIn_iff_isInfix]

/-- What a text mentions is still mentioned below other lines. -/
theorem isMentioned_below (h : offered? packageBase nodes connections n = some d)
    (hmentioned : isMentioned text d = true) (lines : List Rune) :
    isMentioned (lines ++ .char '\n' :: text) d = true := by
  rw [isMentioned_iff h] at hmentioned ⊢
  obtain ⟨name, hname, hpart⟩ | hstands := hmentioned
  · refine .inl ⟨name, hname, hpart.trans ?_⟩
    exact ((List.suffix_cons _ _).trans (List.suffix_append _ _)).isInfix
  · exact .inr (hstands.below lines)

/-- A text with the line that imports a dependency mentions it. -/
theorem isMentioned_of_line (h : offered? packageBase nodes connections n = some d)
    (hline : d.line.toList <:+: text) : isMentioned text d = true := by
  obtain ⟨name, hname, hpart, -⟩ := exists_name_of_offered? h
  have hspecifier : d.specifier.toList <:+: d.line.toList := by
    refine ⟨("import * as " ++ d.identifier ++ " from \"").toList, Text.toList "\";", ?_⟩
    simp [Dependency.line]
  exact (isMentioned_iff h).2 (.inl ⟨name, hname, (hpart.trans hspecifier).trans hline⟩)

/-! ## What is wired -/

/-- What the nodes that are wired to a script offer, in the order of the connections. -/
def wired (packageBase : Text) (nodes : List Node) (connections : List Connection) (n : Node) :
    List Dependency :=
  (Traversal.allSources n.id Role.imports nodes connections).filterMap
    (offered? packageBase nodes connections)

theorem mem_wired : d ∈ wired packageBase nodes connections n ↔
    ∃ m ∈ Traversal.allSources n.id Role.imports nodes connections,
      offered? packageBase nodes connections m = some d :=
  List.mem_filterMap

theorem unmentioned_eq_filter (packageBase : Text) (nodes : List Node)
    (connections : List Connection) (n : Node) :
    unmentioned packageBase nodes connections n =
      (wired packageBase nodes connections n).filter fun d => !isMentioned n.content.toList d :=
  rfl

theorem mem_unmentioned : d ∈ unmentioned packageBase nodes connections n ↔
    d ∈ wired packageBase nodes connections n ∧ isMentioned n.content.toList d = false := by
  rw [unmentioned_eq_filter, List.mem_filter, Bool.not_eq_true']

section Map

variable {f : Node → Node} {e : Connection → Connection} (hf : KeepsNames f) (he : KeepsEnds e)
  (packageBase : Text) (nodes : List Node) (connections : List Connection)

include hf he

/-- What is offered is made of names, and of the content of a package only. -/
theorem offered?_map {m : Node} (hm : m.kind = .packageSearch → (f m).content = m.content) :
    offered? packageBase (nodes.map f) (connections.map e) (f m) =
      offered? packageBase nodes connections m := by
  by_cases hkind : m.kind = .packageSearch
  · have hname : Naming.packageName (f m) = Naming.packageName m := by
      simp only [Naming.packageName, hm hkind, hf.title]
    simp only [offered?, hf.kind, if_pos hkind, hname]
  · have hrole : Naming.fileRole? (f m) = Naming.fileRole? m := by
      simp only [Naming.fileRole?, hf.kind, hf.title]
    simp only [offered?, hf.kind, if_neg hkind, hrole, hf.title, Path.pathOf_map hf he]

/-- The same is wired when files get other contents. -/
theorem wired_map (hpackage : ∀ m ∈ nodes, m.kind = .packageSearch → (f m).content = m.content)
    (n : Node) :
    wired packageBase (nodes.map f) (connections.map e) (f n) =
      wired packageBase nodes connections n := by
  rw [wired, hf.id, Traversal.allSources_map hf.id he, List.filterMap_map]
  refine List.filterMap_congr fun m hm => ?_
  have hmem := Traversal.allSources_subset n.id Role.imports nodes connections hm
  exact offered?_map hf he packageBase nodes connections (hpackage m hmem)

end Map

end Imports
end LiveCanvas
