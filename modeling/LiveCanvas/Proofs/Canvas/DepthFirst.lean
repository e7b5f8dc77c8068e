import LiveCanvas.Canvas.DepthFirst
import LiveCanvas.Proofs.Canvas.Closure
import Mathlib.Data.List.Perm.Subperm
import Mathlib.Logic.Relation

/-!
# The closure is found depth first

The recursive walk comes to one result, and it comes to an end because every node it enters leaves
fewer that were not visited.  The loop with a stack does what the recursion does, level by level,
and the closure is what both find.  So the closure has exactly the nodes to which one or more steps
of dependency lead, each once and without the node from which they start.
-/

namespace LiveCanvas
namespace Traversal

/-! ## The recursive walk -/

section Explores

variable {expand : Node → List Node} {visited after : List NodeId} {work found : List Node}

/-- What was found is visited afterwards, on top of what was visited before. -/
theorem Explores.after_eq (h : Explores expand visited work found after) :
    after = (idsOf found).reverse ++ visited := by
  induction h with
  | done visited => rfl
  | pass old later ih => exact ih
  | enter new down later ihDown ihLater => simp [ihLater, ihDown]

/-- The walk comes to one result only. -/
theorem Explores.unique {found' : List Node} {after' : List NodeId}
    (h : Explores expand visited work found after)
    (h' : Explores expand visited work found' after') : found' = found ∧ after' = after := by
  induction h generalizing found' after' with
  | done visited =>
      cases h'
      exact ⟨rfl, rfl⟩
  | pass old later ih =>
      cases h' with
      | pass _ later' => exact ih later'
      | enter new => exact absurd old new
  | enter new down later ihDown ihLater =>
      cases h' with
      | pass old => exact absurd old new
      | enter _ down' later' =>
          obtain ⟨rfl, rfl⟩ := ihDown down'
          obtain ⟨rfl, rfl⟩ := ihLater later'
          exact ⟨rfl, rfl⟩

/-- What holds on the level and one step down holds of everything that is found. -/
theorem Explores.forall_mem {P : Node → Prop} (hexpand : ∀ n, ∀ m ∈ expand n, P m)
    (h : Explores expand visited work found after) (hwork : ∀ n ∈ work, P n) :
    ∀ n ∈ found, P n := by
  induction h with
  | done visited => exact hwork
  | pass old later ih => exact ih (List.forall_mem_cons.mp hwork).2
  | enter new down later ihDown ihLater =>
      obtain ⟨hn, hrest⟩ := List.forall_mem_cons.mp hwork
      exact List.forall_mem_cons.mpr
        ⟨hn, List.forall_mem_append.mpr ⟨ihDown (hexpand _), ihLater hrest⟩⟩

theorem Explores.subset {nodes : List Node} (hexpand : ∀ n, expand n ⊆ nodes)
    (h : Explores expand visited work found after) (hwork : work ⊆ nodes) : found ⊆ nodes :=
  h.forall_mem hexpand hwork

/-- More visited ids leave no more that are not. -/
theorem length_unvisited_le (ids more visited : List NodeId) :
    (ids.filter (· ∉ more ++ visited)).length ≤ (ids.filter (· ∉ visited)).length := by
  refine (List.monotone_filter_right ids fun id hid => ?_).length_le
  simp only [List.mem_append, not_or, decide_eq_true_eq] at hid ⊢
  exact hid.2

/-- The walk comes to an end.  Every node that it enters takes one id off those that were not
visited, and the rest of its level has no more of them. -/
theorem exists_explores {nodes : List Node} (hexpand : ∀ n, expand n ⊆ nodes)
    (visited : List NodeId) {work : List Node} (hwork : work ⊆ nodes) :
    ∃ found after, Explores expand visited work found after := by
  induction hleft : ((idsOf nodes).filter (· ∉ visited)).length using Nat.strong_induction_on
    generalizing visited work with
  | _ left ihLeft =>
      subst hleft
      induction work with
      | nil => exact ⟨[], visited, .done visited⟩
      | cons n rest ihRest =>
          obtain ⟨hn, hrest⟩ := List.cons_subset.mp hwork
          by_cases hold : n.id ∈ visited
          · obtain ⟨found, after, hlater⟩ := ihRest hrest
            exact ⟨found, after, .pass hold hlater⟩
          · have hless := length_unvisited_lt (mem_idsOf_of_mem hn) hold
            obtain ⟨below, between, hdown⟩ := ihLeft _ hless (n.id :: visited) (hexpand n) rfl
            have hmore := length_unvisited_le (idsOf nodes) (idsOf below).reverse (n.id :: visited)
            rw [← hdown.after_eq] at hmore
            obtain ⟨found, after, hlater⟩ := ihLeft _ (hmore.trans_lt hless) between hrest rfl
            exact ⟨_, after, .enter hold hdown hlater⟩

/-! ## The same walk as a loop and as a work list -/

/-- The loop works off the level on top of its stack and finds what the recursion finds. -/
theorem Explores.exists_iterate_step (h : Explores expand visited work found after)
    (before : List Node) (stack : List (List Node)) :
    ∃ steps, (Walk.step expand)^[steps] ⟨visited, before, work :: stack⟩ =
      ⟨after, before ++ found, stack⟩ := by
  induction h generalizing before stack with
  | done visited => exact ⟨1, by simp [Walk.step]⟩
  | @pass visited after n work found old later ih =>
      obtain ⟨steps, hsteps⟩ := ih before stack
      refine ⟨steps + 1, ?_⟩
      rw [Function.iterate_succ_apply, ← hsteps]
      simp [Walk.step, old]
  | @enter visited between after n work below found new down later ihDown ihLater =>
      obtain ⟨first, hfirst⟩ := ihDown (before ++ [n]) (work :: stack)
      obtain ⟨second, hsecond⟩ := ihLater (before ++ [n] ++ below) stack
      have hstep : Walk.step expand ⟨visited, before, (n :: work) :: stack⟩ =
          ⟨n.id :: visited, before ++ [n], expand n :: work :: stack⟩ := by
        simp [Walk.step, new]
      refine ⟨second + first + 1, ?_⟩
      rw [Function.iterate_succ_apply, hstep, Function.iterate_add_apply, hfirst, hsecond]
      simp

theorem discover_nil (expand : Node → List Node) (fuel : Nat) (visited : List NodeId) :
    discover expand fuel visited [] = [] := by
  cases fuel <;> rfl

theorem discover_cons_of_mem {n : Node} (hold : n.id ∈ visited) (fuel : Nat) :
    discover expand fuel visited (n :: work) = discover expand fuel visited work := by
  cases fuel with
  | zero => rfl
  | succ fuel => rw [discover, discover, List.dropWhile_cons_of_pos (by simpa using hold)]

theorem discover_cons_of_notMem {n : Node} (hnew : n.id ∉ visited) (fuel : Nat) :
    discover expand (fuel + 1) visited (n :: work) =
      n :: discover expand fuel (n.id :: visited) (expand n ++ work) := by
  rw [discover, List.dropWhile_cons_of_neg (by simpa using hnew)]

/-- What waits behind a level waits until the walk is through with it, and then goes on with the
fuel that is left. -/
theorem Explores.discover_append (h : Explores expand visited work found after) (fuel : Nat)
    (more : List Node) :
    discover expand (found.length + fuel) visited (work ++ more) =
      found ++ discover expand fuel after more := by
  induction h generalizing fuel more with
  | done visited => simp
  | pass old later ih => rw [List.cons_append, discover_cons_of_mem old, ih]
  | @enter visited between after n work below found new down later ihDown ihLater =>
      have hfuel : (n :: below ++ found).length + fuel =
          below.length + (found.length + fuel) + 1 := by
        simp
        omega
      rw [hfuel, List.cons_append, discover_cons_of_notMem new, ihDown, ihLater]
      simp

/-- With enough fuel the work list comes to what the recursion finds. -/
theorem Explores.discover_eq (h : Explores expand visited work found after) {fuel : Nat}
    (hfuel : found.length ≤ fuel) : discover expand fuel visited work = found := by
  obtain ⟨rest, rfl⟩ := Nat.exists_eq_add_of_le hfuel
  simpa [discover_nil] using h.discover_append rest []

/-- The walk finds no more nodes than there are. -/
theorem Explores.length_le {nodes : List Node} (hexpand : ∀ n, expand n ⊆ nodes)
    (hwork : work ⊆ nodes) (h : Explores expand visited work found after) :
    found.length ≤ nodes.length := by
  obtain ⟨hnodup, -⟩ := discover_fresh expand found.length visited work
  rw [h.discover_eq (Nat.le_refl _)] at hnodup
  have hids : idsOf found ⊆ idsOf nodes := List.map_subset _ (h.subset hexpand hwork)
  simpa [idsOf] using (List.subperm_of_subset hnodup hids).length_le

/-! ## What is found -/

/-- Afterwards everything on the level is visited, and so is everything next to what was found. -/
theorem Explores.covers (h : Explores expand visited work found after) :
    (∀ n ∈ work, n.id ∈ after) ∧ ∀ n ∈ found, ∀ m ∈ expand n, m.id ∈ after := by
  induction h with
  | done visited => simp
  | pass old later ih =>
      rw [later.after_eq] at ih ⊢
      exact ⟨List.forall_mem_cons.mpr ⟨List.mem_append_right _ old, ih.1⟩, ih.2⟩
  | enter new down later ihDown ihLater =>
      -- what the lower level has visited stays visited
      have hstays : ∀ {id}, id ∈ _ → id ∈ _ := fun hid =>
        later.after_eq ▸ List.mem_append_right _ hid
      have hself := hstays (down.after_eq ▸ List.mem_append_right _ List.mem_cons_self)
      refine ⟨List.forall_mem_cons.mpr ⟨hself, ihLater.1⟩, List.forall_mem_cons.mpr ⟨?_, ?_⟩⟩
      · exact fun m hm => hstays (ihDown.1 m hm)
      · refine List.forall_mem_append.mpr ⟨fun n hn m hm => ?_, ihLater.2⟩
        exact hstays (ihDown.2 n hn m hm)

/-- Whatever is found is on the level or further down. -/
theorem Explores.exists_reflTransGen {leads : NodeId → NodeId → Prop}
    (hleads : ∀ n, ∀ m ∈ expand n, leads n.id m.id)
    (h : Explores expand visited work found after) {m : Node} (hm : m ∈ found) :
    ∃ n ∈ work, Relation.ReflTransGen leads n.id m.id := by
  induction h with
  | done visited => cases hm
  | pass old later ih =>
      obtain ⟨n, hn, hpath⟩ := ih hm
      exact ⟨n, List.mem_cons_of_mem _ hn, hpath⟩
  | enter new down later ihDown ihLater =>
      rw [List.cons_append, List.mem_cons, List.mem_append] at hm
      obtain rfl | hm | hm := hm
      · exact ⟨m, List.mem_cons_self, .refl⟩
      · obtain ⟨n, hn, hpath⟩ := ihDown hm
        exact ⟨_, List.mem_cons_self, .head (hleads _ n hn) hpath⟩
      · obtain ⟨n, hn, hpath⟩ := ihLater hm
        exact ⟨n, List.mem_cons_of_mem _ hn, hpath⟩

end Explores

/-! ## Steps of dependency -/

section Steps

variable {nodes : List Node} {connections : List Connection}

/-- What a node imports directly, as ids. -/
theorem mem_idsOf_dependencies {n : Node} {id : NodeId} :
    id ∈ idsOf (dependencies nodes connections n) ↔ DependsOn nodes connections n.id id := by
  rw [mem_idsOf]
  constructor
  · rintro ⟨m, hm, rfl⟩
    obtain ⟨source, hsource, hm⟩ := List.mem_flatMap.mp hm
    obtain ⟨c, hc, hfeeds, hlook⟩ := mem_allSources_iff.mp hsource
    split at hm
    · next hfolder =>
        obtain ⟨e, he, hfiled, hmember⟩ := mem_allSources_iff.mp hm
        exact .filed hc hfeeds hlook hfolder he hfiled hmember
    · next hfile =>
        obtain rfl := List.mem_singleton.mp hm
        exact .imported hc hfeeds hlook hfile
  · intro h
    cases h with
    | @imported c m hc hfeeds hlook hfile =>
        refine ⟨m, List.mem_flatMap.mpr ⟨m, mem_allSources_iff.mpr ⟨c, hc, hfeeds, hlook⟩, ?_⟩, rfl⟩
        rw [if_neg hfile]
        exact List.mem_singleton_self m
    | @filed c e folder m hc hfeeds hlook hfolder he hfiled hmember =>
        refine ⟨m, List.mem_flatMap.mpr
          ⟨folder, mem_allSources_iff.mpr ⟨c, hc, hfeeds, hlook⟩, ?_⟩, rfl⟩
        rw [if_pos hfolder]
        exact mem_allSources_iff.mpr ⟨e, he, hfiled, hmember⟩

end Steps

/-! ## The closure of a node -/

section Closure

variable (root : Node) (nodes : List Node) (connections : List Connection)

/-- The closure is what the recursive walk finds. -/
theorem explores_closure :
    Explores (dependencies nodes connections) [root.id] (dependencies nodes connections root)
      (closure root nodes connections)
      (idsOf (root :: closure root nodes connections)).reverse := by
  have hexpand := dependencies_subset nodes connections
  obtain ⟨found, after, h⟩ := exists_explores hexpand [root.id] (hexpand root)
  have hfound : closure root nodes connections = found :=
    h.discover_eq (h.length_le hexpand (hexpand root))
  rw [hfound, idsOf_cons, List.reverse_cons, ← h.after_eq]
  exact h

/-- The nodes of a closure are looked up by their ids. -/
theorem nodeWithId?_of_mem_closure {n : Node} (hn : n ∈ closure root nodes connections) :
    nodeWithId? nodes n.id = some n := by
  have hexpand : ∀ n, ∀ m ∈ dependencies nodes connections n, nodeWithId? nodes m.id = some m :=
    fun n m hm => nodeWithId?_of_mem_dependencies hm
  exact (explores_closure root nodes connections).forall_mem hexpand (hexpand root) n hn

/-- No step of dependency leads out of a node and its closure. -/
theorem mem_idsOf_cons_closure_of_dependsOn {id next : NodeId}
    (hid : id ∈ idsOf (root :: closure root nodes connections))
    (hstep : DependsOn nodes connections id next) :
    next ∈ idsOf (root :: closure root nodes connections) := by
  obtain ⟨hlevel, hbelow⟩ := (explores_closure root nodes connections).covers
  obtain ⟨n, hn, rfl⟩ := mem_idsOf.mp hid
  obtain ⟨m, hm, rfl⟩ := mem_idsOf.mp (mem_idsOf_dependencies.mpr hstep)
  rw [← List.mem_reverse]
  exact List.forall_mem_cons.mpr ⟨hlevel, hbelow⟩ n hn m hm

/-- The closure has the ids that one or more steps of dependency lead to, without the start. -/
theorem mem_idsOf_closure_iff {id : NodeId} :
    id ∈ idsOf (closure root nodes connections) ↔
      id ≠ root.id ∧ Relation.TransGen (DependsOn nodes connections) root.id id := by
  have hwalk := explores_closure root nodes connections
  have hsteps : ∀ n, ∀ m ∈ dependencies nodes connections n,
      DependsOn nodes connections n.id m.id :=
    fun n m hm => mem_idsOf_dependencies.mp (mem_idsOf_of_mem hm)
  constructor
  · intro hid
    have hroot : root.id ∉ idsOf (closure root nodes connections) :=
      (List.nodup_cons.mp (nodup_idsOf_closure root nodes connections)).1
    refine ⟨fun heq => hroot (heq ▸ hid), ?_⟩
    obtain ⟨m, hm, rfl⟩ := mem_idsOf.mp hid
    obtain ⟨n, hn, hpath⟩ := hwalk.exists_reflTransGen hsteps hm
    exact .head' (hsteps root n hn) hpath
  · rintro ⟨hne, hpath⟩
    have hvisited : id ∈ idsOf (root :: closure root nodes connections) := by
      clear hne
      induction hpath with
      | single hstep =>
          exact mem_idsOf_cons_closure_of_dependsOn root nodes connections List.mem_cons_self hstep
      | tail _ hstep ih =>
          exact mem_idsOf_cons_closure_of_dependsOn root nodes connections ih hstep
    exact (List.mem_cons.mp hvisited).resolve_left hne

end Closure

/-- The closure of a node is found depth first.  The loop with a stack comes to an end with it; the
recursive walk finds it and nothing else; and it has each id once to which one or more steps of
dependency lead from the node, and not the node itself. -/
theorem closure_depthFirst (root : Node) (nodes : List Node) (connections : List Connection) :
    let expand := dependencies nodes connections
    let found := closure root nodes connections
    let visited := (idsOf (root :: found)).reverse
    (∃ steps, (Walk.step expand)^[steps] (Walk.start expand root) = ⟨visited, found, []⟩) ∧
    (∀ other after, Explores expand [root.id] (expand root) other after ↔
      other = found ∧ after = visited) ∧
    (idsOf found).Nodup ∧ root.id ∉ idsOf found ∧
    ∀ id, id ∈ idsOf found ↔
      id ≠ root.id ∧ Relation.TransGen (DependsOn nodes connections) root.id id := by
  intro expand found visited
  have hwalk : Explores expand [root.id] (expand root) found visited :=
    explores_closure root nodes connections
  obtain ⟨hroot, hnodup⟩ : root.id ∉ idsOf found ∧ (idsOf found).Nodup :=
    List.nodup_cons.mp (nodup_idsOf_closure root nodes connections)
  refine ⟨hwalk.exists_iterate_step [] [], fun other after => ⟨hwalk.unique, ?_⟩, hnodup, hroot,
    fun id => mem_idsOf_closure_iff root nodes connections⟩
  rintro ⟨rfl, rfl⟩
  exact hwalk

-- a file imports a folder of two files; the first imports it back, the second itself and a package
example :
    let node (id : NodeId) (kind : Kind) : Node := { id, kind, title := id }
    let edge (source target : NodeId) (role : Role) : Connection :=
      ⟨source ++ target, source, source ++ "-out", target, Port.inputId target role⟩
    idsOf (closure (node "a" .code)
      [node "a" .code, node "f" .folder, node "b" .code, node "c" .code, node "p" .packageSearch]
      [edge "f" "a" Role.imports, edge "p" "a" Role.imports, edge "b" "f" Role.files,
        edge "c" "f" Role.files, edge "a" "b" Role.imports, edge "c" "c" Role.imports,
        edge "p" "c" Role.imports, edge "gone" "c" Role.imports]) = ["b", "c", "p"] := by
  decide +kernel

end Traversal
end LiveCanvas
