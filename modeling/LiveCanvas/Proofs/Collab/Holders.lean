import LiveCanvas.Collab.Presence
import LiveCanvas.Proofs.Canvas.NodeList

/-!
# Who holds a node

A session that was heard of in time claims the nodes that it edits or drags.  Of the other sessions
the first one to claim a node holds it, in the order of the list, and a node that none of them
claims is released.  So the claims alone say which nodes may be changed here, with one exception: a
lock that is held here already stays, unless somebody else claims the node.
-/

namespace LiveCanvas

/-- The session edits or drags the node. -/
def Collaborator.WorksOn (c : Collaborator) (id : NodeId) : Prop :=
  c.editing = some id ∨ c.dragging = some id

theorem Collaborator.mem_nodes_iff {c : Collaborator} {id : NodeId} :
    id ∈ c.nodes ↔ c.WorksOn id ∧ id ≠ "" := by
  simp [nodes, WorksOn, or_and_right]

namespace Presence

/-- Another session that was heard of in time works on the node. -/
structure Claims (p : Presence) (id : NodeId) (c : Collaborator) : Prop where
  isOther : c.id ≠ p.session
  inTime : p.now - c.lastActive < p.timeout * 1000
  worksOn : c.WorksOn id

theorem claims_iff {p : Presence} {id : NodeId} {c : Collaborator} :
    p.Claims id c ↔ c.id ≠ p.session ∧ p.now - c.lastActive < p.timeout * 1000 ∧
      (c.editing = some id ∨ c.dragging = some id) :=
  ⟨fun h => ⟨h.isOther, h.inTime, h.worksOn⟩,
    fun ⟨hother, htime, hworks⟩ => ⟨hother, htime, hworks⟩⟩

instance (p : Presence) (id : NodeId) : DecidablePred (p.Claims id) := fun _ =>
  decidable_of_iff _ claims_iff.symm

/-- The first session to claim a node. -/
def claimant? (p : Presence) (id : NodeId) : Option Collaborator :=
  p.collaborators.find? fun c => p.Claims id c

theorem claimant?_eq_none_iff {p : Presence} {id : NodeId} :
    p.claimant? id = none ↔ ∀ c ∈ p.collaborators, ¬ p.Claims id c := by
  simp [claimant?]

theorem claimant?_of_first {p : Presence} {id : NodeId} {before after : List Collaborator}
    {c : Collaborator} (hsplit : p.collaborators = before ++ c :: after) (hclaims : p.Claims id c)
    (hfirst : ∀ b ∈ before, ¬ p.Claims id b) : p.claimant? id = some c := by
  have hnone : before.find? (fun b => decide (p.Claims id b)) = none := by
    simpa using hfirst
  rw [claimant?, hsplit, List.find?_append, hnone, Option.none_or]
  exact List.find?_cons_of_pos (by simpa using hclaims)

theorem claims_of_claimant? {p : Presence} {id : NodeId} {c : Collaborator}
    (h : p.claimant? id = some c) : p.Claims id c := by
  simpa using List.find?_some h

/-! ## What is held -/

/-- A node of the graph is held by the first session to claim it. -/
theorem get?_holders (p : Presence) (g : Graph) (id : NodeId) :
    (p.holders g).get? id =
      if id ≠ "" ∧ g.hasNode id = true then (p.claimant? id).map (·.id) else none := by
  rw [holders, Fields.get?_foldl_setDefault, Fields.get?_nil, Option.none_or,
    Fields.get?_flatMap_names p.active (fun c => c.nodes.filter g.hasNode) (·.id), active,
    List.find?_filter]
  have hlooked (c : Collaborator) :
      (c.id != p.session && decide (p.now - c.lastActive < p.timeout * 1000)) = true ∧
        id ∈ c.nodes.filter g.hasNode ↔ p.Claims id c ∧ id ≠ "" ∧ g.hasNode id = true := by
    simp only [List.mem_filter, Collaborator.mem_nodes_iff, claims_iff, Collaborator.WorksOn,
      Bool.and_eq_true, bne_iff_ne, decide_eq_true_iff]
    tauto
  simp only [decide_eq_true_iff, hlooked]
  split
  · next hid => simp [claimant?, hid]
  · next hid => simp [hid]

/-- Who holds what does not depend on the locks. -/
theorem holders_applyLocks (p : Presence) (g : Graph) :
    p.holders (p.applyLocks g) = p.holders g := by
  have hsame : (p.applyLocks g).hasNode = g.hasNode := by
    funext id
    simp [applyLocks, Graph.hasNode, List.any_map, Function.comp_def]
  rw [holders, holders, hsame]

/-! ## What is locked -/

/-- The node with the lock that it has while the sessions hold what they hold. -/
def relock (p : Presence) (held : Fields Text) (n : Node) : Node :=
  { n with lock := p.lockOf held n }

theorem applyLocks_eq (p : Presence) (g : Graph) :
    p.applyLocks g = { g with nodes := g.nodes.map (p.relock (p.holders g)) } := rfl

theorem node?_applyLocks (p : Presence) (g : Graph) (id : NodeId) :
    (p.applyLocks g).node? id = (g.node? id).map (p.relock (p.holders g)) := by
  have hid : ∀ n, (p.relock (p.holders g) n).id = n.id := fun _ => rfl
  exact Graph.node?_of_nodes_eq_map hid rfl id

/-- Locking a node a second time changes nothing. -/
theorem relock_relock (p : Presence) (held : Fields Text) (n : Node) :
    p.relock held (p.relock held n) = p.relock held n := by
  unfold relock lockOf
  cases hheld : held.get? n.id with
  | some holder => simp
  | none => simp [Option.filter_filter]

theorem applyLocks_applyLocks (p : Presence) (g : Graph) :
    p.applyLocks (p.applyLocks g) = p.applyLocks g := by
  rw [applyLocks_eq p (p.applyLocks g), holders_applyLocks, applyLocks_eq]
  show { g with nodes := (g.nodes.map (p.relock (p.holders g))).map (p.relock (p.holders g)) } =
    { g with nodes := g.nodes.map (p.relock (p.holders g)) }
  rw [List.map_map]
  congr 2
  ext1 n
  exact relock_relock p _ n

/-- A node that somebody claims gets the lock of the first session to claim it. -/
theorem node?_applyLocks_of_claimant {p : Presence} {g : Graph} {id : NodeId} {n : Node}
    {c : Collaborator} (hn : g.node? id = some n) (hid : id ≠ "") (hc : p.claimant? id = some c) :
    (p.applyLocks g).node? id = some { n with lock := some (.text c.id) } := by
  have hheld : (p.holders g).get? n.id = some c.id := by
    obtain ⟨hmem, rfl⟩ := Graph.node?_eq_some hn
    have hhas : g.hasNode n.id = true := Graph.hasNode_iff.mpr (mem_idsOf_of_mem hmem)
    rw [get?_holders, if_pos ⟨hid, hhas⟩, hc, Option.map_some]
  rw [node?_applyLocks, hn, Option.map_some, relock, lockOf, hheld]

/-- A node that nobody claims keeps at most a lock that is held here. -/
theorem node?_applyLocks_of_unclaimed {p : Presence} {g : Graph} {id : NodeId} {n : Node}
    (hn : g.node? id = some n) (h : id = "" ∨ ∀ c ∈ p.collaborators, ¬ p.Claims id c) :
    (p.applyLocks g).node? id = some { n with lock := n.lock.filter (·.isText p.session) } := by
  have hfree : (p.holders g).get? n.id = none := by
    rw [(Graph.node?_eq_some hn).2, get?_holders]
    rcases h with hid | hnone
    · rw [if_neg fun hhas => hhas.1 hid]
    · rw [claimant?_eq_none_iff.mpr hnone, Option.map_none, ite_self]
  rw [node?_applyLocks, hn, Option.map_some, relock, lockOf, hfree]

/-! ## Permission -/

/-- A node that is not locked from here may be changed from here exactly when no other session
claims it; otherwise the first session to claim it has its lock.  To apply the same presence again
changes nothing. -/
theorem permits_applyLocks_iff (p : Presence) {g : Graph} {id : NodeId} {n : Node}
    (hn : g.node? id = some n) (hid : id ≠ "") (hlock : n.isLockedBy p.session = false) :
    ((p.applyLocks g).permits (some p.session) id = true ↔
      ∀ c ∈ p.collaborators, ¬ p.Claims id c) ∧
    (∀ before c after, p.collaborators = before ++ c :: after → p.Claims id c →
      (∀ b ∈ before, ¬ p.Claims id b) →
      (p.applyLocks g).node? id = some { n with lock := some (.text c.id) }) ∧
    p.applyLocks (p.applyLocks g) = p.applyLocks g ∧
    p.holders (p.applyLocks g) = p.holders g := by
  refine ⟨?_, ?_, applyLocks_applyLocks p g, holders_applyLocks p g⟩
  · rw [← claimant?_eq_none_iff]
    cases hc : p.claimant? id with
    | none =>
      have hnode := node?_applyLocks_of_unclaimed hn (.inr (claimant?_eq_none_iff.mp hc))
      have hreleased : n.lock.filter (·.isText p.session) = none := by
        cases hany : n.lock <;> simp_all [Node.isLockedBy]
      simp [Graph.permits, hnode, hreleased]
    | some c =>
      have hnode := node?_applyLocks_of_claimant hn hid hc
      have hother := (claims_of_claimant? hc).isOther
      simp [Graph.permits, hnode, Node.isLockedBy, Value.isText, hother]
  · intro before c after hsplit hclaims hfirst
    exact node?_applyLocks_of_claimant hn hid (claimant?_of_first hsplit hclaims hfirst)

/-- One session was silent for too long, the session here edits the node itself, and of the two
others bob, who drags it, stands before carol, who edits it. -/
theorem permits_applyLocks_iff_bob_before_carol :
    let n : Node := { id := "a", kind := .code, title := "a.js", lock := some (.text "gone") }
    let g : Graph := { nodes := [n] }
    let gone : Collaborator := { id := "gone", lastActive := 60000, editing := some "a" }
    let me : Collaborator := { id := "me", lastActive := 99000, editing := some "a" }
    let bob : Collaborator :=
      { id := "bob", lastActive := 99000, editing := some "b", dragging := some "a" }
    let carol : Collaborator := { id := "carol", lastActive := 99000, editing := some "a" }
    let p : Presence := { collaborators := [gone, me, bob, carol], session := "me", now := 100000 }
    g.node? "a" = some n ∧ "a" ≠ "" ∧ n.isLockedBy "me" = false ∧
    (p.applyLocks g).permits (some "me") "a" = false ∧
    (p.applyLocks g).node? "a" = some { n with lock := some (.text "bob") } ∧
    p.applyLocks (p.applyLocks g) = p.applyLocks g := by
  intro n g gone me bob carol p
  have hn : g.node? "a" = some n := rfl
  have hbob : p.Claims "a" bob := by decide
  have hfirst : ∀ c ∈ [gone, me], ¬ p.Claims "a" c := by
    rintro c hc hclaims
    rcases List.mem_pair.mp hc with rfl | rfl
    · exact absurd hclaims.inTime (by decide)
    · exact hclaims.isOther rfl
  obtain ⟨hmay, hlocked, hagain, -⟩ := permits_applyLocks_iff p hn (by decide) rfl
  refine ⟨hn, by decide, rfl, ?_, hlocked [gone, me] bob [carol] rfl hbob hfirst, hagain⟩
  exact Bool.eq_false_iff.mpr fun h => hmay.mp h bob (by simp [p]) hbob

/-! ## Locks held here -/

/-- A lock that is held here is kept, and the node with it, exactly unless another session claims
the node. -/
theorem isLockedBy_applyLocks_iff (p : Presence) {g : Graph} {id : NodeId} {n : Node}
    (hn : g.node? id = some n) (hlock : n.isLockedBy p.session = true) :
    ∃ m, (p.applyLocks g).node? id = some m ∧
      (m.isLockedBy p.session = true ↔ id = "" ∨ ∀ c ∈ p.collaborators, ¬ p.Claims id c) ∧
      (m.isLockedBy p.session = true → m = n) := by
  by_cases hfree : id = "" ∨ ∀ c ∈ p.collaborators, ¬ p.Claims id c
  · have hkept : n.lock.filter (·.isText p.session) = n.lock := by
      cases hheld : n.lock <;> simp_all [Node.isLockedBy]
    refine ⟨n, ?_, iff_of_true hlock hfree, fun _ => rfl⟩
    rw [node?_applyLocks_of_unclaimed hn hfree, hkept]
  · obtain ⟨hid, hclaimed⟩ := not_or.mp hfree
    obtain ⟨c, hc⟩ : ∃ c, p.claimant? id = some c :=
      Option.ne_none_iff_exists'.mp fun hnone => hclaimed (claimant?_eq_none_iff.mp hnone)
    have htaken : ({ n with lock := some (.text c.id) } : Node).isLockedBy p.session = false := by
      simpa [Node.isLockedBy, Value.isText] using (claims_of_claimant? hc).isOther
    refine ⟨_, node?_applyLocks_of_claimant hn hid hc, ?_, fun hown => ?_⟩
    · exact iff_of_false (by simp [htaken]) hfree
    · exact absurd hown (by simp [htaken])

/-- Two sessions name the node, and neither claims it: one was silent for too long, and the other
one is the session here. -/
theorem isLockedBy_applyLocks_iff_stale_editor :
    let n : Node := { id := "a", kind := .code, title := "a.js", lock := some (.text "me") }
    let g : Graph := { nodes := [n] }
    let p : Presence := {
      collaborators := [{ id := "alice", lastActive := 60000, editing := some "a" },
        { id := "me", lastActive := 99000, dragging := some "a" }]
      session := "me"
      now := 100000 }
    g.node? "a" = some n ∧ n.isLockedBy "me" = true ∧ (p.applyLocks g).node? "a" = some n := by
  intro n g p
  have hn : g.node? "a" = some n := rfl
  obtain ⟨m, hm, hkept, hsame⟩ := isLockedBy_applyLocks_iff p hn rfl
  have hunclaimed : ∀ c ∈ p.collaborators, ¬ p.Claims "a" c := by decide
  refine ⟨hn, rfl, ?_⟩
  rw [hm, hsame (hkept.mpr (.inr hunclaimed))]

/-- A lock that is held here goes to another session as soon as that session edits the node. -/
theorem own_lock_of_edited_elsewhere :
    let n : Node := { id := "a", kind := .code, title := "a.js", lock := some (.text "me") }
    let g : Graph := { nodes := [n] }
    let p : Presence := {
      collaborators := [{ id := "alice", lastActive := 99000, editing := some "a" }]
      session := "me"
      now := 100000 }
    g.node? "a" = some n ∧ n.isLockedBy "me" = true ∧
      ∃ m, (p.applyLocks g).node? "a" = some m ∧ m.isLockedBy "me" = false := by
  intro n g p
  refine ⟨rfl, rfl, { n with lock := some (.text "alice") }, ?_, rfl⟩
  have hfirst : p.claimant? "a" =
      some { id := "alice", lastActive := 99000, editing := some "a" } :=
    List.find?_cons_of_pos (by decide)
  exact node?_applyLocks_of_claimant rfl (by decide) hfirst

end Presence
end LiveCanvas
