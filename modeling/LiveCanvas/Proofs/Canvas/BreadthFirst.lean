import LiveCanvas.Canvas.BreadthFirst
import LiveCanvas.Proofs.Canvas.Closure
import Mathlib.Combinatorics.SimpleGraph.Metric

/-!
# What hangs together is found breadth first

The connections make an undirected graph on the ids.  A search from an id holds, at every moment, a
distance up to which it is through: all that is nearer is visited, what waits at the head of the
queue is no farther than that, and what waits behind it at most one connection farther.  So ids are
visited in the order of their distance, each once, and when the queue is empty nothing that can be
reached is missing.
-/

namespace LiveCanvas
namespace Traversal

/-- The ids as the connections join them, whatever their direction. -/
def undirected (connections : List Connection) : SimpleGraph NodeId :=
  .fromRel fun id other => ∃ c ∈ connections, c.source = id ∧ c.target = other

/-! ## Neighbours -/

section Neighbours

variable {connections : List Connection} {id other : NodeId}

theorem mem_neighbours_iff :
    other ∈ neighbours connections id ↔
      ∃ c ∈ connections, c.source = id ∧ c.target = other ∨ c.source = other ∧ c.target = id := by
  simp only [neighbours, List.mem_flatMap, List.mem_append, List.mem_ite_nil_right,
    List.mem_singleton]
  constructor
  · rintro ⟨c, hc, ⟨hsource, rfl⟩ | ⟨htarget, rfl⟩⟩
    · exact ⟨c, hc, .inl ⟨hsource, rfl⟩⟩
    · exact ⟨c, hc, .inr ⟨rfl, htarget⟩⟩
  · rintro ⟨c, hc, ⟨hsource, rfl⟩ | ⟨rfl, htarget⟩⟩
    · exact ⟨c, hc, .inl ⟨hsource, rfl⟩⟩
    · exact ⟨c, hc, .inr ⟨htarget, rfl⟩⟩

theorem adj_undirected_iff :
    (undirected connections).Adj id other ↔ id ≠ other ∧ other ∈ neighbours connections id := by
  rw [undirected, SimpleGraph.fromRel_adj, mem_neighbours_iff]
  refine and_congr_right fun _ => ?_
  constructor
  · rintro (⟨c, hc, hends⟩ | ⟨c, hc, hends⟩)
    · exact ⟨c, hc, .inl hends⟩
    · exact ⟨c, hc, .inr hends⟩
  · rintro ⟨c, hc, hends | hends⟩
    · exact .inl ⟨c, hc, hends⟩
    · exact .inr ⟨c, hc, hends⟩

end Neighbours

/-! ## Distances -/

section Distance

variable {G : SimpleGraph NodeId} {start id other : NodeId}

/-- An id can be reached, and stands no farther than a distance. -/
def Within (G : SimpleGraph NodeId) (start : NodeId) (distance : Nat) (id : NodeId) : Prop :=
  G.Reachable start id ∧ G.dist start id ≤ distance

theorem Within.mono {distance distance' : Nat} (h : Within G start distance id)
    (hle : distance ≤ distance') : Within G start distance' id :=
  ⟨h.1, h.2.trans hle⟩

/-- One step leads at most one farther. -/
theorem Within.step {distance : Nat} (h : Within G start distance id) (hadj : G.Adj id other) :
    Within G start (distance + 1) other := by
  refine ⟨h.1.trans hadj.reachable, ?_⟩
  obtain ⟨walk, hwalk⟩ := h.1.exists_walk_length_eq_dist
  calc G.dist start other ≤ (walk.concat hadj).length := SimpleGraph.dist_le _
    _ = G.dist start id + 1 := by rw [SimpleGraph.Walk.length_concat, hwalk]
    _ ≤ distance + 1 := Nat.succ_le_succ h.2

/-- Before each id but the first stands one that is one step nearer. -/
theorem exists_adj_dist_eq {distance : Nat} (hid : G.Reachable start id)
    (hdist : G.dist start id = distance + 1) :
    ∃ near, G.Adj near id ∧ G.Reachable start near ∧ G.dist start near = distance := by
  obtain ⟨walk, hwalk⟩ := hid.exists_walk_length_eq_dist
  obtain ⟨back, hback⟩ : ∃ back : G.Walk id start, back.length = distance + 1 :=
    ⟨walk.reverse, by rw [SimpleGraph.Walk.length_reverse, hwalk, hdist]⟩
  cases back with
  | nil => simp at hback
  | @cons _ near _ hadj rest =>
      have hnear : G.Reachable start near := rest.reachable.symm
      have hle : G.dist start near ≤ distance := by
        calc G.dist start near ≤ rest.reverse.length := SimpleGraph.dist_le _
          _ = distance := by simpa using hback
      have hstep := (Within.step ⟨hnear, Nat.le_refl _⟩ hadj.symm).2
      exact ⟨near, hadj.symm, hnear, by omega⟩

end Distance

/-! ## How far a search has come -/

namespace Search

variable {connections : List Connection} {start : NodeId} {distance : Nat}
  {near far : List NodeId} {s : Search}

/-- The search is through with everything nearer than a distance.  What waits is split in two: at
that distance or nearer, and one step farther. -/
structure HasCome (connections : List Connection) (start : NodeId) (distance : Nat)
    (near far : List NodeId) (s : Search) : Prop where
  queue : s.queue = near ++ far
  nodup : s.visited.Nodup
  ordered : s.visited.Pairwise fun later earlier =>
    (undirected connections).dist start earlier ≤ (undirected connections).dist start later
  /-- Nothing is visited that is farther. -/
  visited_within : ∀ id ∈ s.visited, Within (undirected connections) start distance id
  through : ∀ id, (undirected connections).Reachable start id →
    (undirected connections).dist start id < distance → id ∈ s.visited
  near_within : ∀ id ∈ near, Within (undirected connections) start distance id
  /-- Nothing at that distance is forgotten. -/
  waiting : ∀ id, (undirected connections).Reachable start id →
    (undirected connections).dist start id = distance → id ∈ s.visited ∨ id ∈ near
  far_within : ∀ id ∈ far, Within (undirected connections) start (distance + 1) id
  next : ∀ id ∈ s.visited, ∀ other, (undirected connections).Adj id other →
    other ∈ s.visited ∨ other ∈ near ∨ other ∈ far

theorem hasCome_start (connections : List Connection) (id : NodeId) :
    HasCome connections id 0 [id] [] (Search.start id) where
  queue := rfl
  nodup := .nil
  ordered := .nil
  visited_within _ hid := absurd hid List.not_mem_nil
  through _ _ hless := absurd hless (Nat.not_lt_zero _)
  near_within other hother := by
    rw [List.mem_singleton.mp hother]
    exact ⟨.refl id, (SimpleGraph.dist_self).le⟩
  waiting other hreach hzero := by
    rw [hreach.dist_eq_zero_iff.mp hzero]
    exact .inr (List.mem_singleton_self _)
  far_within _ hid := absurd hid List.not_mem_nil
  next _ hid := absurd hid List.not_mem_nil

/-- When nothing waits at a distance, the search is through with it. -/
theorem HasCome.farther (h : HasCome connections start distance [] far s) :
    HasCome connections start (distance + 1) far [] s where
  queue := by simpa using h.queue
  nodup := h.nodup
  ordered := h.ordered
  visited_within id hid := (h.visited_within id hid).mono (Nat.le_succ distance)
  through id hreach hless := by
    obtain hless | heq := Nat.lt_succ_iff_lt_or_eq.mp hless
    · exact h.through id hreach hless
    · exact (h.waiting id hreach heq).resolve_right List.not_mem_nil
  near_within := h.far_within
  waiting id hreach heq := by
    obtain ⟨before, hadj, hbefore, hdist⟩ := exists_adj_dist_eq hreach heq
    have hvisited := (h.waiting before hbefore hdist).resolve_right List.not_mem_nil
    exact (h.next before hvisited id hadj).imp_right fun hwaits => by simpa using hwaits
  far_within _ hid := absurd hid List.not_mem_nil
  next id hid other hadj := (h.next id hid other hadj).imp_right fun hwaits => by simpa using hwaits

section Step

variable {nodes : List Node} {kind : Option Kind} {id : NodeId} {rest : List NodeId}

theorem step_of_mem (hqueue : s.queue = id :: rest) (hold : id ∈ s.visited) :
    s.step nodes connections kind = { s with queue := rest } := by
  rw [step, hqueue]
  simp [hold]

theorem step_of_notMem (hqueue : s.queue = id :: rest) (hnew : id ∉ s.visited) :
    s.step nodes connections kind =
      { visited := id :: s.visited
        queue := rest ++ (neighbours connections id).filter fun other =>
          !(id :: s.visited).contains other
        found := s.found ++ nodesOf nodes kind [id] } := by
  rw [step, hqueue]
  simp [hnew]

section Taken

variable {visited : List NodeId} (h : HasCome connections start distance (id :: rest) far s)
  (hid : id ∈ visited) (hvisited : s.visited ⊆ visited)

include h hid hvisited

/-- Once the first id that waits is visited, the others at its distance still wait. -/
theorem HasCome.waiting_rest {other : NodeId}
    (hreach : (undirected connections).Reachable start other)
    (heq : (undirected connections).dist start other = distance) :
    other ∈ visited ∨ other ∈ rest := by
  obtain hother | hwaits := h.waiting other hreach heq
  · exact .inl (hvisited hother)
  · obtain rfl | hwaits := List.mem_cons.mp hwaits
    · exact .inl hid
    · exact .inr hwaits

theorem HasCome.next_rest {before other : NodeId} (hbefore : before ∈ s.visited)
    (hadj : (undirected connections).Adj before other) :
    other ∈ visited ∨ other ∈ rest ∨ other ∈ far := by
  obtain hother | hother | hother := h.next before hbefore other hadj
  · exact .inl (hvisited hother)
  · obtain rfl | hother := List.mem_cons.mp hother
    · exact .inl hid
    · exact .inr (.inl hother)
  · exact .inr (.inr hother)

end Taken

/-- An id that was visited before is passed over. -/
theorem HasCome.pass (h : HasCome connections start distance (id :: rest) far s)
    (hold : id ∈ s.visited) :
    HasCome connections start distance rest far (s.step nodes connections kind) := by
  have hqueue : s.queue = id :: (rest ++ far) := h.queue
  rw [step_of_mem hqueue hold]
  constructor
  case queue => rfl
  case nodup => exact h.nodup
  case ordered => exact h.ordered
  case visited_within => exact h.visited_within
  case through => exact h.through
  case near_within => exact fun other hother => h.near_within other (List.mem_cons_of_mem _ hother)
  case far_within => exact h.far_within
  case waiting => exact fun _ => h.waiting_rest hold (List.Subset.refl _)
  case next => exact fun _ hbefore _ => h.next_rest hold (List.Subset.refl _) hbefore

/-- A new id stands at the distance up to which the search has come. -/
theorem HasCome.dist_eq (h : HasCome connections start distance (id :: rest) far s)
    (hnew : id ∉ s.visited) : (undirected connections).dist start id = distance := by
  obtain ⟨hreach, hle⟩ := h.near_within id List.mem_cons_self
  exact hle.eq_of_not_lt fun hless => hnew (h.through id hreach hless)

/-- A new id is visited, and its neighbours wait one step farther. -/
theorem HasCome.enter (h : HasCome connections start distance (id :: rest) far s)
    (hnew : id ∉ s.visited) :
    ∃ more, HasCome connections start distance rest (far ++ more)
      (s.step nodes connections kind) := by
  have hqueue : s.queue = id :: (rest ++ far) := h.queue
  obtain ⟨hreach, -⟩ := h.near_within id List.mem_cons_self
  have hdist := h.dist_eq hnew
  refine ⟨(neighbours connections id).filter fun other => !(id :: s.visited).contains other, ?_⟩
  rw [step_of_notMem hqueue hnew]
  constructor
  case queue => exact List.append_assoc _ _ _
  case nodup => exact List.nodup_cons.mpr ⟨hnew, h.nodup⟩
  case ordered =>
    refine List.pairwise_cons.mpr ⟨fun earlier hearlier => ?_, h.ordered⟩
    rw [hdist]
    exact (h.visited_within earlier hearlier).2
  case visited_within => exact List.forall_mem_cons.mpr ⟨⟨hreach, hdist.le⟩, h.visited_within⟩
  case through =>
    exact fun other hother hless => List.mem_cons_of_mem _ (h.through other hother hless)
  case near_within => exact fun other hother => h.near_within other (List.mem_cons_of_mem _ hother)
  case waiting => exact fun _ => h.waiting_rest List.mem_cons_self (List.subset_cons_self _ _)
  case far_within =>
    intro other hother
    obtain hother | hother := List.mem_append.mp hother
    · exact h.far_within other hother
    · obtain ⟨hneighbour, hunvisited⟩ := List.mem_filter.mp hother
      have hne : id ≠ other := by
        rintro rfl
        simp at hunvisited
      exact Within.step ⟨hreach, hdist.le⟩ (adj_undirected_iff.mpr ⟨hne, hneighbour⟩)
  case next =>
    intro before hbefore other hadj
    obtain rfl | hbefore := List.mem_cons.mp hbefore
    · by_cases hseen : other ∈ before :: s.visited
      · exact .inl hseen
      · refine .inr (.inr (List.mem_append_right _ (List.mem_filter.mpr ?_)))
        exact ⟨(adj_undirected_iff.mp hadj).2, by simpa using hseen⟩
    · have hother := h.next_rest List.mem_cons_self (List.subset_cons_self _ _) hbefore hadj
      exact hother.imp_right fun hwaits => hwaits.imp_right (List.mem_append_left _)

/-- Every turn of the loop leaves a search that has come to some distance. -/
theorem HasCome.exists_step (h : HasCome connections start distance near far s) :
    ∃ distance near far, HasCome connections start distance near far
      (s.step nodes connections kind) := by
  by_cases hempty : s.queue = []
  · have hstays : s.step nodes connections kind = s := by rw [step, hempty]
    rw [hstays]
    exact ⟨distance, near, far, h⟩
  · -- with nothing near the search goes on to what is one step farther
    obtain ⟨distance, id, rest, far, h⟩ : ∃ distance id rest far,
        HasCome connections start distance (id :: rest) far s := by
      cases near with
      | cons id rest => exact ⟨distance, id, rest, far, h⟩
      | nil =>
          cases far with
          | nil => exact absurd h.queue hempty
          | cons id rest => exact ⟨distance + 1, id, rest, [], h.farther⟩
    by_cases hold : id ∈ s.visited
    · exact ⟨distance, rest, far, h.pass hold⟩
    · obtain ⟨more, hentered⟩ := h.enter hold
      exact ⟨distance, rest, far ++ more, hentered⟩

theorem exists_hasCome (connections : List Connection) (id : NodeId) (nodes : List Node)
    (kind : Option Kind) (steps : Nat) :
    ∃ distance near far, HasCome connections id distance near far
      ((step nodes connections kind)^[steps] (.start id)) := by
  induction steps with
  | zero => exact ⟨0, [id], [], hasCome_start connections id⟩
  | succ steps ih =>
      obtain ⟨distance, near, far, h⟩ := ih
      rw [Function.iterate_succ_apply']
      exact h.exists_step

end Step

/-- When nothing waits any more, everything that can be reached was visited. -/
theorem HasCome.mem_visited_iff (h : HasCome connections start distance near far s)
    (hempty : s.queue = []) {id : NodeId} :
    id ∈ s.visited ↔ (undirected connections).Reachable start id := by
  refine ⟨fun hid => (h.visited_within id hid).1, fun hreach => ?_⟩
  obtain ⟨rfl, rfl⟩ := List.append_eq_nil_iff.mp (h.queue.symm.trans hempty)
  have hfar : ∀ more, HasCome connections start (distance + more) [] [] s := by
    intro more
    induction more with
    | zero => exact h
    | succ more ih => exact ih.farther
  refine (hfar ((undirected connections).dist start id + 1)).through id hreach ?_
  omega

end Search

/-! ## The search comes to an end -/

section Ends

variable {connections : List Connection} {visited queue : List NodeId} {id : NodeId}

theorem spread_nil (connections : List Connection) (fuel : Nat) (visited : List NodeId) :
    spread connections fuel visited [] = [] := by
  cases fuel <;> rfl

theorem spread_cons_of_mem (hold : id ∈ visited) (fuel : Nat) :
    spread connections fuel visited (id :: queue) = spread connections fuel visited queue := by
  cases fuel with
  | zero => rfl
  | succ fuel => rw [spread, spread, List.dropWhile_cons_of_pos (by simpa using hold)]

theorem spread_cons_of_notMem (hnew : id ∉ visited) (fuel : Nat) :
    spread connections (fuel + 1) visited (id :: queue) =
      id :: spread connections fuel (id :: visited) (queue ++ neighbours connections id) := by
  rw [spread, List.dropWhile_cons_of_neg (by simpa using hnew)]

/-- What was visited may as well not wait. -/
theorem spread_filter (connections : List Connection) (fuel : Nat) (visited queue : List NodeId) :
    spread connections fuel visited (queue.filter fun id => !visited.contains id) =
      spread connections fuel visited queue := by
  induction fuel generalizing visited queue with
  | zero => rfl
  | succ fuel ih =>
      induction queue with
      | nil => rfl
      | cons id rest ihRest =>
          by_cases hold : id ∈ visited
          · rw [List.filter_cons_of_neg (by simpa using hold), ihRest, spread_cons_of_mem hold]
          · rw [List.filter_cons_of_pos (by simpa using hold), spread_cons_of_notMem hold,
              spread_cons_of_notMem hold, ← ih, ← ih (id :: visited) (rest ++ _),
              List.filter_append, List.filter_append, List.filter_filter]
            congr 4
            funext other
            by_cases hother : other ∈ visited <;> simp [hother]

/-- So of what comes to wait only the new ids count. -/
theorem spread_append_filter (connections : List Connection) (fuel : Nat)
    (visited queue more : List NodeId) :
    spread connections fuel visited (queue ++ more.filter fun id => !visited.contains id) =
      spread connections fuel visited (queue ++ more) := by
  rw [← spread_filter connections fuel visited (queue ++ more), ← spread_filter,
    List.filter_append, List.filter_append, List.filter_filter]
  simp only [Bool.and_self]

/-- The ids to which a connection or the start of a search can lead. -/
def endsFrom (id : NodeId) (connections : List Connection) : List NodeId :=
  id :: connections.flatMap fun c => [c.source, c.target]

theorem length_endsFrom (id : NodeId) (connections : List Connection) :
    (endsFrom id connections).length = 2 * connections.length + 1 := by
  induction connections with
  | nil => rfl
  | cons c connections ih =>
      simp only [endsFrom, List.length_cons, List.flatMap_cons, List.length_append] at ih ⊢
      simp only [List.length_nil]
      omega

theorem neighbours_subset_endsFrom (start id : NodeId) (connections : List Connection) :
    neighbours connections id ⊆ endsFrom start connections := by
  intro other hother
  refine List.mem_cons_of_mem _ (List.mem_flatMap.mpr ?_)
  obtain ⟨c, hc, ⟨-, rfl⟩ | ⟨rfl, -⟩⟩ := mem_neighbours_iff.mp hother
  · exact ⟨c, hc, by simp⟩
  · exact ⟨c, hc, by simp⟩

theorem nodesOf_append (nodes : List Node) (kind : Option Kind) (ids more : List NodeId) :
    nodesOf nodes kind (ids ++ more) = nodesOf nodes kind ids ++ nodesOf nodes kind more := by
  rw [nodesOf, List.filterMap_append, List.filter_append]
  rfl

/-- With fuel for every id that can still be visited, the loop ends with what the search spreads to.
Each new id takes one off those that can be visited, and until then the queue grows shorter. -/
theorem exists_iterate_step_eq_spread (start : NodeId) (nodes : List Node)
    (connections : List Connection) (kind : Option Kind) (fuel : Nat) {visited queue : List NodeId}
    (found : List Node) (hqueue : queue ⊆ endsFrom start connections)
    (hfuel : ((endsFrom start connections).filter (· ∉ visited)).length ≤ fuel) :
    ∃ steps, (Search.step nodes connections kind)^[steps] ⟨visited, queue, found⟩ =
      ⟨(spread connections fuel visited queue).reverse ++ visited, [],
        found ++ nodesOf nodes kind (spread connections fuel visited queue)⟩ := by
  induction fuel using Nat.strong_induction_on generalizing visited queue found with
  | _ fuel ihFuel =>
      induction queue with
      | nil => exact ⟨0, by simp [spread_nil, nodesOf]⟩
      | cons id rest ihRest =>
          obtain ⟨hid, hrest⟩ := List.cons_subset.mp hqueue
          by_cases hold : id ∈ visited
          · obtain ⟨steps, hsteps⟩ := ihRest hrest
            refine ⟨steps + 1, ?_⟩
            rw [Function.iterate_succ_apply, Search.step_of_mem rfl hold, spread_cons_of_mem hold]
            exact hsteps
          · have hless := length_unvisited_lt hid hold
            obtain ⟨fuel, rfl⟩ : ∃ less, fuel = less + 1 := Nat.exists_eq_succ_of_ne_zero (by omega)
            let more := (neighbours connections id).filter fun other =>
              !(id :: visited).contains other
            have hmore : rest ++ more ⊆ endsFrom start connections :=
              List.append_subset.mpr ⟨hrest, List.Subset.trans (List.filter_subset_self _)
                (neighbours_subset_endsFrom start id connections)⟩
            have hleft :
                ((endsFrom start connections).filter (· ∉ id :: visited)).length ≤ fuel := by
              omega
            obtain ⟨steps, hsteps⟩ :=
              ihFuel fuel (Nat.lt_succ_self fuel) (found ++ nodesOf nodes kind [id]) hmore hleft
            rw [spread_append_filter] at hsteps
            refine ⟨steps + 1, ?_⟩
            rw [Function.iterate_succ_apply, Search.step_of_notMem rfl hold, hsteps,
              spread_cons_of_notMem hold, List.reverse_cons, List.append_assoc, List.append_assoc,
              ← nodesOf_append]
            rfl

/-- The loop ends with the ids and the nodes that hang together with the start. -/
theorem exists_iterate_step_start (start : NodeId) (nodes : List Node)
    (connections : List Connection) (kind : Option Kind) :
    ∃ steps, (Search.step nodes connections kind)^[steps] (.start start) =
      ⟨(component start connections).reverse, [], related start nodes connections kind⟩ := by
  have hfuel : ((endsFrom start connections).filter (· ∉ [])).length ≤
      2 * connections.length + 1 :=
    (List.length_filter_le _ _).trans_eq (length_endsFrom start connections)
  obtain ⟨steps, hsteps⟩ := exists_iterate_step_eq_spread start nodes connections kind
    (2 * connections.length + 1) [] (List.cons_subset_cons start (List.nil_subset _)) hfuel
  refine ⟨steps, hsteps.trans ?_⟩
  rw [List.append_nil, List.nil_append]
  rfl

end Ends

/-! ## What hangs together -/

section Related

variable {start id : NodeId} {nodes : List Node} {connections : List Connection}

/-- The component of an id has what can be reached from it, each once, nearest first. -/
theorem component_breadthFirst (start : NodeId) (connections : List Connection) :
    (∀ id, id ∈ component start connections ↔ (undirected connections).Reachable start id) ∧
      (component start connections).Nodup ∧
      (component start connections).Pairwise fun earlier later =>
        (undirected connections).dist start earlier ≤
          (undirected connections).dist start later := by
  obtain ⟨steps, hsteps⟩ := exists_iterate_step_start start [] connections none
  obtain ⟨distance, near, far, h⟩ := Search.exists_hasCome connections start [] none steps
  rw [hsteps] at h
  refine ⟨fun id => ?_, List.nodup_reverse.mp h.nodup, List.pairwise_reverse.mp h.ordered⟩
  rw [← h.mem_visited_iff rfl, List.mem_reverse]

theorem mem_related_iff (hnodup : (idsOf nodes).Nodup) {kind : Option Kind} {n : Node} :
    n ∈ related start nodes connections kind ↔
      n ∈ nodes ∧ (undirected connections).Reachable start n.id ∧
        kind.all (· == n.kind) = true := by
  rw [related, List.mem_filter, List.mem_filterMap, ← and_assoc]
  refine and_congr_left fun _ => ?_
  simp only [(component_breadthFirst start connections).1]
  constructor
  · rintro ⟨id, hreach, hlook⟩
    have hid : n.id = id := by simpa using List.find?_some hlook
    exact ⟨List.mem_reverse.mp (List.mem_of_find?_eq_some hlook), hid ▸ hreach⟩
  · rintro ⟨hn, hreach⟩
    exact ⟨n.id, hreach, nodeWithId?_of_mem hnodup hn⟩

/-- The nodes of some ids stand in the order of the ids. -/
theorem idsOf_filterMap_sublist (nodes : List Node) (ids : List NodeId) :
    (idsOf (ids.filterMap (nodeWithId? nodes))).Sublist ids := by
  induction ids with
  | nil => exact .slnil
  | cons id ids ih =>
      cases hlook : nodeWithId? nodes id with
      | none =>
          rw [List.filterMap_cons_none hlook]
          exact ih.cons id
      | some n =>
          have hid : n.id = id := by simpa using List.find?_some hlook
          rw [List.filterMap_cons_some hlook, idsOf_cons, hid]
          exact ih.cons_cons id

theorem idsOf_related_sublist (start : NodeId) (nodes : List Node) (connections : List Connection)
    (kind : Option Kind) :
    (idsOf (related start nodes connections kind)).Sublist (component start connections) := by
  have hkind : (related start nodes connections kind).Sublist
      ((component start connections).filterMap (nodeWithId? nodes)) := List.filter_sublist
  exact (hkind.map Node.id).trans (idsOf_filterMap_sublist nodes _)

end Related

/-- What hangs together with an id is found breadth first.  The loop comes to an end with it; it has
every node to which connections lead from the id in one direction or the other, of the kind asked
for, each once and the nearer ones first; and of two nodes both are found from the other or neither
is. -/
theorem related_breadthFirst (start : NodeId) {nodes : List Node} (hnodup : (idsOf nodes).Nodup)
    (connections : List Connection) (kind : Option Kind) :
    let joined := undirected connections
    let found := related start nodes connections kind
    (∃ steps visited, (Search.step nodes connections kind)^[steps] (Search.start start) =
      ⟨visited, [], found⟩) ∧
    (∀ n, n ∈ found ↔
      n ∈ nodes ∧ joined.Reachable start n.id ∧ kind.all (· == n.kind) = true) ∧
    (idsOf found).Nodup ∧
    (found.Pairwise fun earlier later =>
      joined.dist start earlier.id ≤ joined.dist start later.id) ∧
    ∀ a ∈ nodes, ∀ b ∈ nodes,
      b ∈ related a.id nodes connections none ↔ a ∈ related b.id nodes connections none := by
  intro joined found
  obtain ⟨steps, hsteps⟩ := exists_iterate_step_start start nodes connections kind
  obtain ⟨-, honce, hordered⟩ := component_breadthFirst start connections
  have hsublist : (idsOf found).Sublist (component start connections) :=
    idsOf_related_sublist start nodes connections kind
  have hfound : (idsOf found).Pairwise fun earlier later =>
      joined.dist start earlier ≤ joined.dist start later := hordered.sublist hsublist
  rw [idsOf, List.pairwise_map] at hfound
  refine ⟨⟨steps, _, hsteps⟩, fun n => mem_related_iff hnodup, honce.sublist hsublist, hfound,
    fun a ha b hb => ?_⟩
  rw [mem_related_iff hnodup, mem_related_iff hnodup, SimpleGraph.reachable_comm]
  simp [ha, hb]

/-- Three nodes hang together through an id without a node; the one of another kind is farthest. -/
theorem related_breadthFirst_missing_node :
    let node (id : NodeId) (kind : Kind) : Node := { id, kind, title := id }
    let edge (source target : NodeId) : Connection :=
      ⟨source ++ target, source, source ++ "-out", target, target ++ "-in"⟩
    let nodes := [node "p" .preview, node "a" .code, node "b" .code, node "alone" .code]
    let connections := [edge "gone" "a", edge "a" "p", edge "gone" "b", edge "a" "a", edge "a" "p"]
    (idsOf nodes).Nodup ∧
    idsOf (related "a" nodes connections (some .code)) = ["a", "b"].map Text.ofString ∧
      idsOf (related "b" nodes connections none) = ["b", "a", "p"].map Text.ofString ∧
      (undirected connections).Reachable "a" "b" ∧
      (undirected connections).dist "b" "a" ≤ (undirected connections).dist "b" "p" := by
  intro node edge nodes connections
  have hnodup : (idsOf nodes).Nodup := by decide +kernel
  have hcode : related "a" nodes connections (some .code) = [node "a" .code, node "b" .code] := rfl
  have hall : related "b" nodes connections none =
      [node "b" .code, node "a" .code, node "p" .preview] := rfl
  obtain ⟨-, hmem, -, -, -⟩ := related_breadthFirst "a" hnodup connections (some .code)
  obtain ⟨-, -, -, hordered, -⟩ := related_breadthFirst "b" hnodup connections none
  have hb := (hmem (node "b" .code)).mp (by rw [hcode]; simp)
  rw [hall] at hordered
  refine ⟨hnodup, by rw [hcode]; rfl, by rw [hall]; rfl, hb.2.1, ?_⟩
  exact (List.pairwise_cons.mp (List.pairwise_cons.mp hordered).2).1 _ (List.mem_singleton_self _)

end Traversal
end LiveCanvas
