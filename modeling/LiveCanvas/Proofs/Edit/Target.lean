import LiveCanvas.Proofs.Canvas.Paths

/-!
# The file that a path leads to

A write looks for its file three times: by title, by path, and by the bare name among the code
files.  The look-ups are settled by the first nodes that fit, so a file that was found once is found
again after contents have changed and nodes have been added at the end, unless a new node takes the
path as its title.
-/

namespace LiveCanvas
namespace Path

/-- The file that a write to a path goes to. -/
def target? (path : Text) (nodes : List Node) (connections : List Connection) : Option Node :=
  match resolve path nodes connections with
  | some n => some n
  | none => nodes.find? fun n => n.title == (split path).1 && n.kind == .code

/-- The path of the node begins with the folder. -/
def isBelow (folder : Text) (n : Node) (nodes : List Node) (connections : List Connection) :
    Bool :=
  (folder ++ "/").toList.isPrefixOf (pathOf n nodes connections).toList

/-- The file that a write to a path moves, and the folder it is moved into. -/
def move? (path : Text) (nodes : List Node) (connections : List Connection) :
    Option (NodeId × Text) :=
  match (split path).2, target? path nodes connections with
  | some folder, some n => if isBelow folder n nodes connections then none else some (n.id, folder)
  | _, _ => none

variable {path : Text} {nodes more : List Node} {connections : List Connection} {n : Node}

/-! ## Cases -/

theorem resolve_eq_none_iff : resolve path nodes connections = none ↔
    ∀ m ∈ nodes, m.title ≠ path ∧ pathOf m nodes connections ≠ path := by
  unfold resolve
  constructor
  · intro h m hm
    split at h
    · cases h
    · next htitle =>
        rw [List.find?_eq_none] at htitle h
        exact ⟨by simpa using htitle m hm, by simpa using h m hm⟩
  · intro h
    have htitle : nodes.find? (fun m => m.title == path) = none := by
      rw [List.find?_eq_none]
      intro m hm
      simpa using (h m hm).1
    rw [htitle]
    simp only [List.find?_eq_none]
    intro m hm
    simpa using (h m hm).2

theorem resolve_cases (h : resolve path nodes connections = some n) :
    nodes.find? (fun m => m.title == path) = some n ∨
      (∀ m ∈ nodes, m.title ≠ path) ∧
        nodes.find? (fun m => pathOf m nodes connections == path) = some n := by
  unfold resolve at h
  split at h
  · next m htitle =>
      rw [← h]
      exact .inl htitle
  · next htitle =>
      rw [List.find?_eq_none] at htitle
      exact .inr ⟨fun m hm => by simpa using htitle m hm, h⟩

/-- A file is found by title, by path, or by its bare name. -/
theorem target?_cases (h : target? path nodes connections = some n) :
    nodes.find? (fun m => m.title == path) = some n ∨
      (∀ m ∈ nodes, m.title ≠ path) ∧
        nodes.find? (fun m => pathOf m nodes connections == path) = some n ∨
      (∀ m ∈ nodes, m.title ≠ path ∧ pathOf m nodes connections ≠ path) ∧
        nodes.find? (fun m => m.title == (split path).1 && m.kind == .code) = some n := by
  unfold target? at h
  split at h
  · next m hresolve =>
      rw [Option.some.injEq] at h
      subst h
      exact (resolve_cases hresolve).imp_right .inl
  · next hresolve => exact .inr (.inr ⟨resolve_eq_none_iff.1 hresolve, h⟩)

theorem target?_eq_none_iff : target? path nodes connections = none ↔
    ∀ m ∈ nodes, m.title ≠ path ∧ pathOf m nodes connections ≠ path ∧
      ¬(m.title = (split path).1 ∧ m.kind = .code) := by
  unfold target?
  constructor
  · intro h m hm
    split at h
    · cases h
    · next hresolve =>
        rw [List.find?_eq_none] at h
        obtain ⟨htitle, hpath⟩ := resolve_eq_none_iff.1 hresolve m hm
        exact ⟨htitle, hpath, by simpa using h m hm⟩
  · intro h
    rw [resolve_eq_none_iff.2 fun m hm => ⟨(h m hm).1, (h m hm).2.1⟩]
    simp only [List.find?_eq_none]
    intro m hm
    simpa using (h m hm).2.2

theorem mem_of_target? (h : target? path nodes connections = some n) : n ∈ nodes := by
  obtain h | ⟨-, h⟩ | ⟨-, h⟩ := target?_cases h
  · exact List.mem_of_find?_eq_some h
  · exact List.mem_of_find?_eq_some h
  · exact List.mem_of_find?_eq_some h

theorem mem_of_resolve (h : resolve path nodes connections = some n) : n ∈ nodes := by
  obtain h | ⟨-, h⟩ := resolve_cases h
  · exact List.mem_of_find?_eq_some h
  · exact List.mem_of_find?_eq_some h

/-- What is no code file is not found by its bare name. -/
theorem target?_eq_some_iff_resolve (hcode : n.kind ≠ .code) :
    target? path nodes connections = some n ↔ resolve path nodes connections = some n := by
  rw [target?]
  cases resolve path nodes connections with
  | some m => rfl
  | none =>
      refine iff_of_false (fun hfind => hcode ?_) nofun
      have hfits := List.find?_some hfind
      simp only [Bool.and_eq_true, beq_iff_eq] at hfits
      exact hfits.2

/-- A path always has a slash behind a folder. -/
theorem slash_mem_of_pathOf_ne_title (h : pathOf n nodes connections ≠ n.title) :
    .char '/' ∈ (pathOf n nodes connections).toList := by
  unfold pathOf at h ⊢
  split
  · simp
  · next hnone =>
      rw [hnone] at h
      exact absurd rfl h

/-- A path without a slash is below no folder. -/
theorem isBelow_of_slash_notMem (h : .char '/' ∉ (pathOf n nodes connections).toList)
    (folder : Text) : isBelow folder n nodes connections = false := by
  rw [isBelow, Bool.eq_false_iff]
  intro hbelow
  obtain ⟨rest, hrest⟩ := List.isPrefixOf_iff_prefix.1 hbelow
  apply h
  rw [← hrest]
  simp

/-- What lies at a path with a folder is below the folder. -/
theorem isBelow_of_pathOf_eq {file folder : Text}
    (h : pathOf n nodes connections = folder ++ "/" ++ file) :
    isBelow folder n nodes connections = true := by
  have hpath : (folder ++ "/" ++ file).toList = (folder ++ "/").toList ++ file.toList :=
    Text.toList_append
  rw [isBelow, h, List.isPrefixOf_iff_prefix, hpath]
  exact List.prefix_append _ _

/-- Without a slash only the title can lead to a file. -/
theorem title_eq_of_target? (hslash : .char '/' ∉ path.toList)
    (h : target? path nodes connections = some n) : n.title = path := by
  obtain h | ⟨-, h⟩ | ⟨-, h⟩ := target?_cases h
  · simpa using List.find?_some h
  · have hpath : pathOf n nodes connections = path := by simpa using List.find?_some h
    by_contra htitle
    rw [← hpath] at hslash htitle
    exact hslash (slash_mem_of_pathOf_ne_title (Ne.symm htitle))
  · have hbare := List.find?_some h
    rw [split_of_slash_notMem hslash] at hbare
    simp only [Bool.and_eq_true, beq_iff_eq] at hbare
    exact hbare.1

theorem move?_of_target? (h : target? path nodes connections = some n) :
    move? path nodes connections =
      ((split path).2.filter fun folder => !isBelow folder n nodes connections).map
        fun folder => (n.id, folder) := by
  rw [move?, h]
  cases (split path).2 with
  | none => rfl
  | some folder =>
      rw [Option.filter_some]
      cases hbelow : isBelow folder n nodes connections with
      | true => simp [hbelow]
      | false => simp [hbelow]

/-- What is moved is the file to which the path leads, and the path names the folder. -/
theorem move?_eq_some {id : NodeId} {folder : Text}
    (h : move? path nodes connections = some (id, folder)) :
    (split path).2 = some folder ∧ ∃ n, target? path nodes connections = some n ∧ n.id = id ∧
      isBelow folder n nodes connections = false := by
  unfold move? at h
  split at h
  · next folder' n hsplit htarget =>
      split at h
      · cases h
      · next hbelow =>
          simp only [Option.some.injEq, Prod.mk.injEq] at h
          obtain ⟨rfl, rfl⟩ := h
          rw [Bool.not_eq_true] at hbelow
          exact ⟨hsplit, n, htarget, rfl, hbelow⟩
  · cases h

/-- With distinct ids it is clear which file is moved. -/
theorem target?_of_move? {folder : Text} (hnodup : (idsOf nodes).Nodup) (hn : n ∈ nodes)
    (h : move? path nodes connections = some (n.id, folder)) :
    path = folder ++ "/" ++ (split path).1 ∧ target? path nodes connections = some n ∧
      isBelow folder n nodes connections = false := by
  obtain ⟨hsplit, m, hm, hid, hbelow⟩ := move?_eq_some h
  obtain rfl : m = n := eq_of_mem_of_id_eq hnodup (mem_of_target? hm) hn hid
  exact ⟨(split_eq_some (Prod.ext rfl hsplit)).1, hm, hbelow⟩

/-! ## Other contents -/

section Map

variable {f : Node → Node} (hf : KeepsNames f) (path nodes connections)

include hf

theorem pathOf_map_nodes (n : Node) :
    pathOf (f n) (nodes.map f) connections = pathOf n nodes connections := by
  have hmap := pathOf_map hf keepsEnds_id nodes connections n
  rwa [List.map_id] at hmap

theorem target?_map :
    target? path (nodes.map f) connections = (target? path nodes connections).map f := by
  have hresolve := resolve_map hf keepsEnds_id nodes connections path
  rw [List.map_id] at hresolve
  simp only [target?, hresolve, List.find?_map, Function.comp_def, hf.title, hf.kind]
  cases resolve path nodes connections with
  | none => rfl
  | some n => rfl

theorem move?_map : move? path (nodes.map f) connections = move? path nodes connections := by
  simp only [move?, target?_map path nodes connections hf]
  cases (split path).2 with
  | none => rfl
  | some folder =>
      cases target? path nodes connections with
      | none => rfl
      | some n =>
          simp only [Option.map_some, isBelow, pathOf_map_nodes nodes connections hf, hf.id]
          rfl

end Map

/-! ## Nodes at the end -/

section Append

variable (hends : ∀ c ∈ connections, c.source ∉ idsOf more ∧ c.target ∉ idsOf more)

include hends

theorem pathOf_append_left (m : Node) :
    pathOf m (nodes ++ more) connections = pathOf m nodes connections :=
  pathOf_append (fun c hc => (hends c hc).2) m

theorem pathOf_append_right {m : Node} (hm : m ∈ more) :
    pathOf m (nodes ++ more) connections = m.title :=
  pathOf_of_no_source fun c hc hsource => (hends c hc).1 (hsource ▸ mem_idsOf_of_mem hm)

/-- A file that was found is found again, unless a new node takes the path as its title. -/
theorem target?_append_of_some
    (htitle : ∀ a ∈ more, a.title = path → ∃ m ∈ nodes, m.title = path)
    (h : target? path nodes connections = some n) :
    target? path (nodes ++ more) connections = some n := by
  have hpaths : ∀ m, pathOf m (nodes ++ more) connections = pathOf m nodes connections :=
    pathOf_append_left hends
  obtain h | ⟨hnone, h⟩ | ⟨hnone, h⟩ := target?_cases h
  · rw [target?, resolve, List.find?_append, h]
    rfl
  · have hmore : ∀ m ∈ nodes ++ more, m.title ≠ path := by
      intro m hm hpath
      obtain hm | hm := List.mem_append.1 hm
      · exact hnone m hm hpath
      · obtain ⟨m', hm', hpath'⟩ := htitle m hm hpath
        exact hnone m' hm' hpath'
    have hfind : (nodes ++ more).find? (fun m => m.title == path) = none := by
      rw [List.find?_eq_none]
      intro m hm
      simpa using hmore m hm
    simp only [target?, resolve, hfind, hpaths]
    rw [List.find?_append, h]
    rfl
  · have hmore : resolve path (nodes ++ more) connections = none := by
      rw [resolve_eq_none_iff]
      intro m hm
      obtain hm | hm := List.mem_append.1 hm
      · rw [hpaths]
        exact hnone m hm
      · rw [pathOf_append_right hends hm, and_self]
        intro hpath
        obtain ⟨m', hm', hpath'⟩ := htitle m hm hpath
        exact (hnone m' hm').1 hpath'
    rw [target?, hmore]
    simp only
    rw [List.find?_append, h]
    rfl

theorem move?_append_of_some
    (htitle : ∀ a ∈ more, a.title = path → ∃ m ∈ nodes, m.title = path)
    (h : target? path nodes connections = some n) :
    move? path (nodes ++ more) connections = move? path nodes connections := by
  rw [move?, move?, target?_append_of_some hends htitle h, h]
  cases (split path).2 with
  | none => rfl
  | some folder =>
      simp only [isBelow, pathOf_append_left hends]
      rfl

/-- A file that is found only among the new nodes has the path or its bare name as its title. -/
theorem mem_of_target?_append (hnone : target? path nodes connections = none)
    (h : target? path (nodes ++ more) connections = some n) :
    n ∈ more ∧ (n.title = path ∨ n.title = (split path).1) := by
  rw [target?_eq_none_iff] at hnone
  have hfits : n.title = path ∨ pathOf n (nodes ++ more) connections = path ∨
      n.title = (split path).1 ∧ n.kind = .code := by
    obtain h | ⟨-, h⟩ | ⟨-, h⟩ := target?_cases h
    · exact .inl (by simpa using List.find?_some h)
    · exact .inr (.inl (by simpa using List.find?_some h))
    · exact .inr (.inr (by simpa using List.find?_some h))
  have hmem : n ∈ more := by
    refine (List.mem_append.1 (mem_of_target? h)).resolve_left fun hold => ?_
    rw [pathOf_append_left hends] at hfits
    obtain ⟨htitle, hpath, hbare⟩ := hnone n hold
    exact hfits.elim htitle fun h => h.elim hpath hbare
  refine ⟨hmem, ?_⟩
  rw [pathOf_append_right hends hmem] at hfits
  exact hfits.elim .inl fun h => h.elim .inl fun h => .inr h.1

end Append

/-! ## A new file -/

section New

variable {a : Node} (hends : ∀ c ∈ connections, c.source ≠ a.id ∧ c.target ≠ a.id)
  (htitle : a.title = (split path).1)

include hends htitle

/-- A new file lies at its title, which is below no folder. -/
theorem isBelow_append_new (folder : Text) :
    isBelow folder a (nodes ++ [a]) connections = false := by
  apply isBelow_of_slash_notMem
  rw [pathOf_of_no_source fun c hc => (hends c hc).1, htitle]
  exact slash_notMem_split path

/-- The file that is made for a path is the one to which the path leads. -/
theorem target?_append_new (hkind : a.kind = .code)
    (hnone : target? path nodes connections = none) :
    target? path (nodes ++ [a]) connections = some a := by
  have hnot := target?_eq_none_iff.1 hnone
  have hbare : (nodes ++ [a]).find? (fun m => m.title == (split path).1 && m.kind == .code) =
      some a := by
    have hold : nodes.find? (fun m => m.title == (split path).1 && m.kind == .code) = none := by
      rw [List.find?_eq_none]
      intro m hm
      simpa using (hnot m hm).2.2
    rw [List.find?_append, hold, Option.none_or, List.find?_singleton, htitle, hkind]
    simp
  by_cases hmem : .char '/' ∈ path.toList
  · have hresolve : resolve path (nodes ++ [a]) connections = none := by
      have hne : a.title ≠ path := by
        intro hpath
        have hnotMem := slash_notMem_split path
        rw [← htitle, hpath] at hnotMem
        exact hnotMem hmem
      rw [resolve_eq_none_iff]
      intro m hm
      obtain hm | hm := List.mem_append.1 hm
      · rw [pathOf_append fun c hc => by simpa using (hends c hc).2]
        exact ⟨(hnot m hm).1, (hnot m hm).2.1⟩
      · rw [List.mem_singleton.1 hm, pathOf_of_no_source fun c hc => (hends c hc).1]
        exact ⟨hne, hne⟩
    rw [target?, hresolve]
    exact hbare
  · have hold : nodes.find? (fun m => m.title == path) = none := by
      rw [List.find?_eq_none]
      intro m hm
      simpa using (hnot m hm).1
    rw [split_of_slash_notMem hmem] at htitle
    rw [target?, resolve, List.find?_append, hold, Option.none_or, List.find?_singleton, htitle]
    simp

/-- A new file goes into the folder that the path names. -/
theorem move?_append_new (hkind : a.kind = .code)
    (hnone : target? path nodes connections = none) :
    move? path (nodes ++ [a]) connections = (split path).2.map fun folder => (a.id, folder) := by
  rw [move?, target?_append_new hends htitle hkind hnone]
  cases (split path).2 with
  | none => rfl
  | some folder =>
      simp only [isBelow_append_new hends htitle, Option.map_some]
      rfl

end New

end Path
end LiveCanvas
