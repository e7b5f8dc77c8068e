import LiveCanvas.Proofs.Canvas.Sound
import LiveCanvas.Proofs.Edit.Target

/-!
# Writes that keep apart

The bare name of a path is enough to find a file, folders are made when a path names them, and the
folder of a file is told by how its path begins.  So the paths of a batch can lead to one file, and
what one of them makes can stand in the way of another.  Here it is said when they do not, and that
a path then leads to one file throughout the batch, whatever is made meanwhile.
-/

namespace LiveCanvas

/-- What a write leads to: a file that is there, or a new one with a title. -/
inductive Goal
  | file (id : NodeId)
  | new (title : Text)
deriving DecidableEq, Repr

namespace Path

/-- What a write to a path leads to in a graph. -/
def goal (g : Graph) (path : Text) : Goal :=
  match target? path g.nodes g.connections with
  | some n => .file n.id
  | none => .new (split path).1

/-- The folder into which a write to a path puts the file, unless it is there already. -/
def folderAsked? (g : Graph) (path : Text) : Option Text :=
  match target? path g.nodes g.connections with
  | some n => (split path).2.filter fun folder => !isBelow folder n g.nodes g.connections
  | none => (split path).2

end Path

/-- The paths of a batch do not get into each other's way. -/
structure WritesApart (g : Graph) (paths : List Text) : Prop where
  /-- Different paths lead to different files. -/
  goals : ∀ p ∈ paths, ∀ q ∈ paths, Path.goal g p = Path.goal g q → p = q
  /-- What is written as a file below a folder is not made as a folder, unless something has it as
  its title already. -/
  folders : ∀ p ∈ paths, ∀ q ∈ paths, .char '/' ∈ p.toList → Path.folderAsked? g q = some p →
    ∃ n ∈ g.nodes, n.title = p
  /-- A file that is found by its bare name alone has to be put into the folder. -/
  bare : ∀ p ∈ paths, Path.resolve p g.nodes g.connections = none →
    Path.folderAsked? g p = (Path.split p).2
  /-- Where a title that is a path itself is moved, no other path looks for a file. -/
  titles : ∀ p ∈ paths, ∀ q ∈ paths, (∃ n ∈ g.nodes, n.title = q) →
    ∀ folder ∈ Path.folderAsked? g q, p ≠ folder ++ "/" ++ q

instance (g : Graph) (paths : List Text) : Decidable (WritesApart g paths) :=
  decidable_of_iff (_ ∧ _ ∧ _ ∧ _)
    ⟨fun ⟨goals, folders, bare, titles⟩ => ⟨goals, folders, bare, titles⟩,
      fun h => ⟨h.goals, h.folders, h.bare, h.titles⟩⟩

/-- The nodes are those of the graph, with other contents, and after them code files with plain
names and folders that the paths name. -/
def GrewFor (g : Graph) (paths : List Text) (nodes : List Node) : Prop :=
  ∃ change added, KeepsNames change ∧ nodes = g.nodes.map change ++ added ∧
    ∀ a ∈ added, a.id ∉ idsOf g.nodes ∧
      (a.kind = .code ∧ .char '/' ∉ a.title.toList ∨
        ∃ q ∈ paths, Path.folderAsked? g q = some a.title)

namespace GrewFor

variable {g : Graph} {paths : List Text} {nodes more : List Node} {p q : Text} {n m : Node}

theorem refl (g : Graph) (paths : List Text) : GrewFor g paths g.nodes :=
  ⟨fun n => n, [], .refl, by simp, by simp⟩

theorem map (h : GrewFor g paths nodes) {f : Node → Node} (hf : KeepsNames f) :
    GrewFor g paths (nodes.map f) := by
  obtain ⟨change, added, hchange, rfl, hadded⟩ := h
  refine ⟨f ∘ change, added.map f, hf.comp hchange, by simp, ?_⟩
  intro n hn
  obtain ⟨a, ha, rfl⟩ := List.mem_map.1 hn
  rw [hf.id, hf.kind, hf.title]
  exact hadded a ha

theorem append (h : GrewFor g paths nodes) (hmore : ∀ a ∈ more, a.id ∉ idsOf nodes ∧
    (a.kind = .code ∧ .char '/' ∉ a.title.toList ∨
        ∃ q ∈ paths, Path.folderAsked? g q = some a.title)) :
    GrewFor g paths (nodes ++ more) := by
  obtain ⟨change, added, hchange, rfl, hadded⟩ := h
  refine ⟨change, added ++ more, hchange, by rw [List.append_assoc], ?_⟩
  intro a ha
  obtain ha | ha := List.mem_append.1 ha
  · exact hadded a ha
  · refine ⟨fun hold => (hmore a ha).1 ?_, (hmore a ha).2⟩
    rw [idsOf_append, hchange.idsOf_map]
    exact List.mem_append_left _ hold

/-- The ends of the connections are no new nodes. -/
theorem ends_notMem (hsound : g.Sound) {added : List Node}
    (hadded : ∀ a ∈ added, a.id ∉ idsOf g.nodes) :
    ∀ c ∈ g.connections, c.source ∉ idsOf added ∧ c.target ∉ idsOf added := by
  have hfresh : ∀ id ∈ idsOf g.nodes, id ∉ idsOf added := by
    intro id hid hmem
    obtain ⟨a, ha, rfl⟩ := mem_idsOf.1 hmem
    exact hadded a ha hid
  intro c hc
  obtain ⟨hsource, htarget⟩ := hsound.ends_live c hc
  exact ⟨hfresh _ hsource, hfresh _ htarget⟩

/-- The ids of the graph are still there. -/
theorem idsOf_subset (h : GrewFor g paths nodes) : idsOf g.nodes ⊆ idsOf nodes := by
  obtain ⟨change, added, hchange, rfl, -⟩ := h
  intro id hid
  rw [idsOf_append, hchange.idsOf_map]
  exact List.mem_append_left _ hid

theorem exists_title (h : GrewFor g paths nodes) (hn : ∃ n ∈ g.nodes, n.title = p) :
    ∃ n ∈ nodes, n.title = p := by
  obtain ⟨change, added, hchange, rfl, -⟩ := h
  obtain ⟨n, hn, rfl⟩ := hn
  exact ⟨change n, List.mem_append_left _ (List.mem_map_of_mem hn), hchange.title n⟩

/-- Nothing that is made meanwhile has a path of the batch with a slash as its title. -/
theorem title_of_slash (h : GrewFor g paths nodes) (hapart : WritesApart g paths) (hp : p ∈ paths)
    (hslash : .char '/' ∈ p.toList) (hn : n ∈ nodes) (htitle : n.title = p) :
    ∃ m ∈ g.nodes, m.title = p := by
  obtain ⟨change, added, hchange, rfl, hadded⟩ := h
  obtain hn | hn := List.mem_append.1 hn
  · obtain ⟨m, hm, rfl⟩ := List.mem_map.1 hn
    exact ⟨m, hm, (hchange.title m).symm.trans htitle⟩
  · obtain ⟨-, hplain⟩ | ⟨q, hq, hasked⟩ := (hadded n hn).2
    · exact absurd hslash (htitle ▸ hplain)
    · exact hapart.folders p hp q hq hslash (htitle ▸ hasked)

/-- A path that leads to a file keeps leading to it when more is made. -/
theorem target?_append (h : GrewFor g paths nodes) (hmore : GrewFor g paths (nodes ++ more))
    (hsound : g.Sound) (hapart : WritesApart g paths) (hp : p ∈ paths)
    (hnew : ∀ a ∈ more, a.id ∉ idsOf nodes)
    (hn : Path.target? p nodes g.connections = some n) :
    Path.target? p (nodes ++ more) g.connections = some n ∧
      Path.move? p (nodes ++ more) g.connections = Path.move? p nodes g.connections := by
  have hends := ends_notMem hsound fun a ha hid => hnew a ha (h.idsOf_subset hid)
  have htitle : ∀ a ∈ more, a.title = p → ∃ m ∈ nodes, m.title = p := by
    intro a ha hap
    by_cases hslash : .char '/' ∈ p.toList
    · exact h.exists_title
        (hmore.title_of_slash hapart hp hslash (List.mem_append_right _ ha) hap)
    · exact ⟨n, Path.mem_of_target? hn, Path.title_eq_of_target? hslash hn⟩
  exact ⟨Path.target?_append_of_some hends htitle hn, Path.move?_append_of_some hends htitle hn⟩

/-- A path that leads to a file of the graph leads to it throughout the batch, and moves it as it
would have moved it at the start. -/
theorem target?_of_some (h : GrewFor g paths nodes) (hsound : g.Sound)
    (hapart : WritesApart g paths) (hp : p ∈ paths)
    (hn : Path.target? p g.nodes g.connections = some n) :
    (∃ m, Path.target? p nodes g.connections = some m ∧ m.id = n.id) ∧
      Path.move? p nodes g.connections = Path.move? p g.nodes g.connections := by
  have hgrew := h
  obtain ⟨change, added, hchange, rfl, hadded⟩ := h
  have hnew : ∀ a ∈ added, a.id ∉ idsOf (g.nodes.map change) := by
    intro a ha
    rw [hchange.idsOf_map]
    exact (hadded a ha).1
  have hmap := Path.target?_map p g.nodes g.connections hchange
  rw [hn] at hmap
  obtain ⟨htarget, hmove⟩ :=
    ((refl g paths).map hchange).target?_append hgrew hsound hapart hp hnew hmap
  rw [Path.move?_map p g.nodes g.connections hchange] at hmove
  exact ⟨⟨change n, htarget, hchange.id n⟩, hmove⟩

/-- A path leads to the file to which it led at the start, or to a new one with its bare name. -/
theorem target?_cases (h : GrewFor g paths nodes) (hsound : g.Sound)
    (hapart : WritesApart g paths) (hp : p ∈ paths)
    (hn : Path.target? p nodes g.connections = some n) :
    (∃ m, Path.target? p g.nodes g.connections = some m ∧ m.id = n.id) ∨
      Path.target? p g.nodes g.connections = none ∧ n.id ∉ idsOf g.nodes ∧
        n.title = (Path.split p).1 ∧ Path.pathOf n nodes g.connections = n.title := by
  cases hold : Path.target? p g.nodes g.connections with
  | some m =>
      obtain ⟨⟨m', hm', hid⟩, -⟩ := h.target?_of_some hsound hapart hp hold
      rw [hn, Option.some.injEq] at hm'
      exact .inl ⟨m, rfl, by rw [hm', hid]⟩
  | none =>
      have hgrew := h
      obtain ⟨change, added, hchange, rfl, hadded⟩ := h
      have hends := ends_notMem hsound fun a ha => (hadded a ha).1
      have hmap := Path.target?_map p g.nodes g.connections hchange
      rw [hold] at hmap
      obtain ⟨hmem, htitle⟩ := Path.mem_of_target?_append hends hmap hn
      refine .inr ⟨rfl, (hadded n hmem).1, ?_, Path.pathOf_append_right hends hmem⟩
      obtain htitle | htitle := htitle
      · by_cases hslash : .char '/' ∈ p.toList
        · obtain ⟨m, hm, hmtitle⟩ := hgrew.title_of_slash hapart hp hslash
            (List.mem_append_right _ hmem) htitle
          exact absurd hmtitle (Path.target?_eq_none_iff.1 hold m hm).1
        · rw [Path.split_of_slash_notMem hslash, htitle]
      · exact htitle

/-- What a path leads to tells its goal. -/
theorem goal_eq (h : GrewFor g paths nodes) (hsound : g.Sound) (hapart : WritesApart g paths)
    (hp : p ∈ paths) (hn : Path.target? p nodes g.connections = some n) :
    n.id ∈ idsOf g.nodes ∧ Path.goal g p = .file n.id ∨
      n.id ∉ idsOf g.nodes ∧ Path.goal g p = .new n.title := by
  obtain ⟨m, hm, hid⟩ | ⟨hnone, hnew, htitle, -⟩ := h.target?_cases hsound hapart hp hn
  · left
    rw [Path.goal, hm, ← hid]
    exact ⟨mem_idsOf_of_mem (Path.mem_of_target? hm), rfl⟩
  · right
    rw [Path.goal, hnone, htitle]
    exact ⟨hnew, rfl⟩

/-- Two paths never lead to one file. -/
theorem eq_of_target? (h : GrewFor g paths nodes) (hsound : g.Sound) (hapart : WritesApart g paths)
    (hp : p ∈ paths) (hq : q ∈ paths) (hpn : Path.target? p nodes g.connections = some n)
    (hqn : Path.target? q nodes g.connections = some n) : p = q := by
  obtain ⟨hmem, hgoal⟩ | ⟨hnotMem, hgoal⟩ := h.goal_eq hsound hapart hp hpn
  · obtain ⟨-, hgoal'⟩ | ⟨hnotMem, -⟩ := h.goal_eq hsound hapart hq hqn
    · exact hapart.goals p hp q hq (hgoal.trans hgoal'.symm)
    · exact absurd hmem hnotMem
  · obtain ⟨hmem, -⟩ | ⟨-, hgoal'⟩ := h.goal_eq hsound hapart hq hqn
    · exact absurd hmem hnotMem
    · exact hapart.goals p hp q hq (hgoal.trans hgoal'.symm)

/-- A path moves a file into the folder that it asked for at the start. -/
theorem folderAsked?_of_move? (h : GrewFor g paths nodes) (hsound : g.Sound)
    (hapart : WritesApart g paths) (hp : p ∈ paths) {id : NodeId} {folder : Text}
    (hmove : Path.move? p nodes g.connections = some (id, folder)) :
    Path.folderAsked? g p = some folder := by
  unfold Path.folderAsked?
  cases hold : Path.target? p g.nodes g.connections with
  | none => exact (Path.move?_eq_some hmove).1
  | some n =>
      rw [(h.target?_of_some hsound hapart hp hold).2, Path.move?_of_target? hold,
        Option.map_eq_some_iff] at hmove
      obtain ⟨folder', hfolder, hpair⟩ := hmove
      rw [Prod.mk.injEq] at hpair
      rw [← hpair.2]
      exact hfolder

/-- What lies at no path now lay there at no time. -/
theorem resolve_eq_none (h : GrewFor g paths nodes) (hsound : g.Sound)
    (hnone : Path.resolve p nodes g.connections = none) :
    Path.resolve p g.nodes g.connections = none := by
  obtain ⟨change, added, hchange, rfl, hadded⟩ := h
  have hends := ends_notMem hsound fun a ha => (hadded a ha).1
  rw [Path.resolve_eq_none_iff] at hnone ⊢
  intro m hm
  obtain ⟨htitle, hpath⟩ := hnone (change m) (List.mem_append_left _ (List.mem_map_of_mem hm))
  rw [Path.pathOf_append_left hends, Path.pathOf_map_nodes g.nodes g.connections hchange] at hpath
  rw [hchange.title] at htitle
  exact ⟨htitle, hpath⟩

/-- A file that is found by its bare name alone is moved into the folder that the path names. -/
theorem move?_of_bare (h : GrewFor g paths nodes) (hsound : g.Sound) (hapart : WritesApart g paths)
    (hp : p ∈ paths) {folder : Text} (hfolder : (Path.split p).2 = some folder)
    (hnone : Path.resolve p nodes g.connections = none)
    (hn : Path.target? p nodes g.connections = some n) :
    Path.move? p nodes g.connections = some (n.id, folder) := by
  obtain ⟨m, hm, hid⟩ | ⟨-, -, htitle, hpath⟩ := h.target?_cases hsound hapart hp hn
  · have hasked := hapart.bare p hp (h.resolve_eq_none hsound hnone)
    rw [Path.folderAsked?, hm, hfolder] at hasked
    simp only at hasked
    rw [(h.target?_of_some hsound hapart hp hm).2, Path.move?_of_target? hm, hfolder, hasked,
      Option.map_some, hid]
  · have hbelow : Path.isBelow folder n nodes g.connections = false := by
      apply Path.isBelow_of_slash_notMem
      rw [hpath, htitle]
      exact Path.slash_notMem_split p
    rw [Path.move?_of_target? hn, hfolder, Option.filter_some, hbelow]
    rfl

end GrewFor
end LiveCanvas
