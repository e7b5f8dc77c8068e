import LiveCanvas.Proofs.Edit.Refused
import LiveCanvas.Proofs.Edit.Scope

/-!
# Where the nodes of a batch come from

A batch never makes an old node again.  Every node that is there afterwards was there before, with
perhaps another title, content or context, or is new and has an id that was still to come.  Only
code files are removed, and the content of a node changes only by a call that was permitted to
change it.  All this is said by one relation between an earlier and a later batch, which every edit
satisfies and which can be composed.
-/

namespace LiveCanvas

namespace IdSource

/-- The id is none of those to come. -/
def IsPast (ids : IdSource) (id : NodeId) : Prop :=
  ∀ stem number, ids.next ≤ number → id ≠ name stem number

variable {ids ids' : IdSource} {g : Graph} {id : NodeId}

theorem IsPast.mono (h : ids.IsPast id) (hle : ids.next ≤ ids'.next) : ids'.IsPast id :=
  fun stem number hnumber => h stem number (Nat.le_trans hle hnumber)

theorem FreshFor.isPast (h : ids.FreshFor g) (hid : id ∈ idsOf g.nodes) : ids.IsPast id :=
  fun stem number hnumber heq => h.nodes stem number hnumber (heq ▸ hid)

end IdSource

namespace Node

/-- What a batch can make of a node: it has perhaps another title, content or context. -/
def RevisedTo (n m : Node) : Prop :=
  ∃ title content contextIds, m = { n with title, content, contextIds }

section RevisedTo

variable {n m k : Node}

theorem RevisedTo.refl (n : Node) : n.RevisedTo n :=
  ⟨n.title, n.content, n.contextIds, rfl⟩

theorem RevisedTo.trans (h : n.RevisedTo m) (h' : m.RevisedTo k) : n.RevisedTo k := by
  obtain ⟨_, _, _, rfl⟩ := h
  obtain ⟨title, content, contextIds, rfl⟩ := h'
  exact ⟨title, content, contextIds, rfl⟩

theorem RevisedTo.id_eq (h : n.RevisedTo m) : m.id = n.id := by
  obtain ⟨_, _, _, rfl⟩ := h
  rfl

theorem RevisedTo.kind_eq (h : n.RevisedTo m) : m.kind = n.kind := by
  obtain ⟨_, _, _, rfl⟩ := h
  rfl

end RevisedTo

/-- The node was made later: its id was still to come, and it is not marked. -/
structure MadeAfter (ids : IdSource) (m : Node) : Prop where
  id : ∃ stem number, ids.next ≤ number ∧ m.id = IdSource.name stem number
  isLoading : m.isLoading = false

namespace MadeAfter

variable {ids ids' : IdSource} {m : Node}

theorem id_ne (h : m.MadeAfter ids) {id : NodeId} (hid : ids.IsPast id) : m.id ≠ id := by
  obtain ⟨stem, number, hnumber, hname⟩ := h.id
  rw [hname]
  exact (hid stem number hnumber).symm

theorem mono (h : m.MadeAfter ids') (hle : ids.next ≤ ids'.next) : m.MadeAfter ids := by
  obtain ⟨stem, number, hnumber, hname⟩ := h.id
  exact ⟨⟨stem, number, Nat.le_trans hle hnumber, hname⟩, h.isLoading⟩

theorem revised (h : m.MadeAfter ids) {k : Node} (hrevised : m.RevisedTo k) : k.MadeAfter ids := by
  obtain ⟨_, _, _, rfl⟩ := hrevised
  exact ⟨h.id, h.isLoading⟩

end MadeAfter
end Node

namespace Batch

variable {before : List Connection} {changes : NodeId → Prop} {b b' b'' : Batch} {c : BatchContext}

/-- A node is removed; the others lose it from their contexts. -/
theorem nodes_remove {id : NodeId} (hid : id ∈ idsOf b.graph.nodes) :
    (b.remove id).graph.nodes =
      (b.graph.nodes.filter fun n => n.id != id).map (Graph.forgetInContext id) := by
  show (b.graph.removeNode id).nodes = _
  rw [Graph.removeNode, if_pos (Graph.hasNode_iff.2 hid)]

/-- How the nodes of a later batch come from those of an earlier one, when no contents change but
those of certain nodes. -/
structure Descends (changes : NodeId → Prop) (b b' : Batch) : Prop where
  next_le : b.ids.next ≤ b'.ids.next
  origin : ∀ m ∈ b'.graph.nodes,
    (∃ n ∈ b.graph.nodes, n.RevisedTo m ∧ (m.content ≠ n.content → changes n.id)) ∨
      m.MadeAfter b.ids
  /-- Only code files are removed. -/
  stays : ∀ n ∈ b.graph.nodes, n.kind ≠ .code → ∃ m ∈ b'.graph.nodes, n.RevisedTo m

namespace Descends

/-- Whatever is not about nodes. -/
theorem of_nodes_eq (hnext : b.ids.next ≤ b'.ids.next) (hnodes : b'.graph.nodes = b.graph.nodes) :
    Descends changes b b' where
  next_le := hnext
  origin m hm := .inl ⟨m, hnodes ▸ hm, .refl m, fun hne => absurd rfl hne⟩
  stays n hn _ := ⟨n, hnodes ▸ hn, .refl n⟩

theorem refl (b : Batch) : Descends changes b b :=
  of_nodes_eq (Nat.le_refl _) rfl

theorem trans (h : Descends changes b b') (h' : Descends changes b' b'') :
    Descends changes b b'' where
  next_le := Nat.le_trans h.next_le h'.next_le
  origin k hk := by
    obtain ⟨m, hm, hlater, hwritten'⟩ | hmade := h'.origin k hk
    · obtain ⟨n, hn, hfirst, hwritten⟩ | hmade := h.origin m hm
      · refine .inl ⟨n, hn, hfirst.trans hlater, fun hne => ?_⟩
        by_cases hsame : m.content = n.content
        · rw [← hfirst.id_eq]
          exact hwritten' (hsame ▸ hne)
        · exact hwritten hsame
      · exact .inr (hmade.revised hlater)
    · exact .inr (hmade.mono h.next_le)
  stays n hn hkind := by
    obtain ⟨m, hm, hfirst⟩ := h.stays n hn hkind
    obtain ⟨k, hk, hlater⟩ := h'.stays m hm (hfirst.kind_eq ▸ hkind)
    exact ⟨k, hk, hfirst.trans hlater⟩

theorem mono {changes' : NodeId → Prop} (h : Descends changes b b')
    (hwider : ∀ n ∈ b.graph.nodes, changes n.id → changes' n.id) : Descends changes' b b' where
  next_le := h.next_le
  origin m hm :=
    (h.origin m hm).imp_left fun ⟨n, hn, hrevised, hwritten⟩ =>
      ⟨n, hn, hrevised, fun hne => hwider n hn (hwritten hne)⟩
  stays := h.stays

theorem add (ht : b.Tidy) {request : NodeRequest} (hid : request.id = none) :
    Descends changes b (b.add request).2 where
  next_le := by
    rw [next_add b hid]
    exact Nat.le_succ _
  origin m hm := by
    rw [ht.nodes_add request hid, List.mem_append, List.mem_singleton] at hm
    obtain hm | rfl := hm
    · exact .inl ⟨m, hm, .refl m, fun hne => absurd rfl hne⟩
    · exact .inr ⟨⟨_, _, Nat.le_refl _, (id_create hid b.ids).1⟩, rfl⟩
  stays n hn _ := by
    rw [ht.nodes_add request hid]
    exact ⟨n, List.mem_append_left _ hn, .refl n⟩

theorem remove (ht : b.Tidy) {gone : Node} (hgone : gone ∈ b.graph.nodes)
    (hcode : gone.kind = .code) : Descends changes b (b.remove gone.id) := by
  have hnodes := nodes_remove (b := b) (mem_idsOf_of_mem hgone)
  refine ⟨Nat.le_refl _, fun m hm => ?_, fun n hn hkind => ?_⟩
  · rw [hnodes] at hm
    obtain ⟨n, hn, rfl⟩ := List.mem_map.1 hm
    exact .inl ⟨n, List.mem_of_mem_filter hn, ⟨_, _, _, rfl⟩, fun hne => absurd rfl hne⟩
  · have hother : n.id ≠ gone.id := by
      intro heq
      rw [eq_of_mem_of_id_eq ht.nodup hn hgone heq] at hkind
      exact hkind hcode
    rw [hnodes]
    exact ⟨_, List.mem_map_of_mem (List.mem_filter.2 ⟨hn, bne_iff_ne.2 hother⟩), _, _, _, rfl⟩

/-- One node is revised, and its content changes only if that is within bounds. -/
theorem onNode (b : Batch) (id : NodeId) {change : Node → Node}
    (hrevised : ∀ n : Node, n.RevisedTo (change n))
    (hcontent : ∀ n : Node, (change n).content ≠ n.content → changes id) :
    Descends changes b (b.onGraph fun g => g.modifyNode id change) := by
  refine ⟨Nat.le_refl _, fun m hm => ?_, fun n hn _ => ⟨_, List.mem_map_of_mem hn, ?_⟩⟩
  · obtain ⟨n, hn, rfl⟩ := List.mem_map.1 hm
    refine .inl ⟨n, hn, ?_⟩
    split
    · next hid => exact ⟨hrevised n, fun hne => hid ▸ hcontent n hne⟩
    · exact ⟨.refl n, fun hne => absurd rfl hne⟩
  · split
    · exact hrevised n
    · exact .refl n

theorem edit (ht : b.Tidy) (hedit : Edit before changes b b') : Descends changes b b' := by
  cases hedit with
  | report report a line => exact of_nodes_eq (Nat.le_refl _) rfl
  | add request hid => exact add ht hid
  | remove n known code within => exact remove ht (ht.nodes_eq ▸ known) code
  | feed source target known code => exact of_nodes_eq (next_le_wire _ _ _ _) (nodes_wire _ _ _ _)
  | takeOut edge old within => exact of_nodes_eq (Nat.le_refl _) rfl
  | write id content within => exact onNode b id (fun n => ⟨_, content, _, rfl⟩) fun _ _ => within
  | rename id title within =>
      exact onNode b id (fun n => ⟨title, _, _, rfl⟩) fun _ hne => absurd rfl hne

theorem edits (ht : b.Tidy) (hedits : Edits before changes b b') : Descends changes b b' := by
  induction hedits with
  | refl => exact .refl b
  | tail hedits hedit ih => exact ih.trans (edit (keeps_tidy.edits hedits ht) hedit)

theorem performs {placement : Option (NodeId × Option NodeId)} (ht : b.Tidy)
    (hperforms : Performs c changes placement b b') : Descends changes b b' := by
  cases hperforms with
  | nowhere edits => exact .edits ht edits
  | @toRoot _ first _ id within live start finish =>
      have hall := (start.trans (edits_detach within first)).trans finish
      exact .edits ht hall
  | @into _ first second _ source folder within live known isFolder start between finish =>
      have hearlier := (start.trans (edits_detach within first)).trans between
      have hsecond : second.Tidy := keeps_tidy.edits hearlier ht
      have hwired : Descends changes second (second.wire source folder Role.files).2 :=
        of_nodes_eq (next_le_wire _ _ _ _) (nodes_wire _ _ _ _)
      have hlater := Descends.edits (hsecond.wire source folder Role.files) finish
      exact ((Descends.edits ht hearlier).trans hwired).trans hlater

/-- A call changes the contents of no nodes but those that may be changed. -/
theorem applyCall (ht : b.Tidy) (c : BatchContext) (call : Value) :
    Descends (fun id => c.permits b.graph id = true) b (b.applyCall c call) := by
  cases hrefusal : b.refusal? c call with
  | some refusal =>
      rw [applyCall_of_refused hrefusal]
      exact of_nodes_eq (Nat.le_refl _) rfl
  | none =>
      obtain ⟨command, action, -, hdecide, hperform⟩ := exists_applyCall_eq_perform hrefusal
      have hdecided := decided_of_decide ht hdecide
      rw [hperform]
      refine (Descends.performs ht (Batch.performs ht c hdecided.known)).mono fun n hn hmay => ?_
      exact hmay.elim (hdecided.permitted n.id) fun hnew => absurd (mem_idsOf_of_mem hn) hnew

end Descends

/-- The content of a node differs after a call only if the node was allowed to change before it. -/
theorem permits_of_content_ne (ht : b.Tidy) (call : Value) {n m : Node} (hn : n ∈ b.graph.nodes)
    (hm : m ∈ (b.applyCall c call).graph.nodes) (hid : m.id = n.id) (hne : m.content ≠ n.content) :
    c.permits b.graph n.id = true := by
  obtain ⟨old, hold, hrevised, hwritten⟩ | hmade := (Descends.applyCall ht c call).origin m hm
  · obtain rfl : n = old := eq_of_mem_of_id_eq ht.nodup hn hold (hid.symm.trans hrevised.id_eq)
    exact hwritten hne
  · exact absurd hid (hmade.id_ne (ht.fresh.isPast (mem_idsOf_of_mem hn)))

end Batch

/-! ## Whole batches -/

section Batches

variable {g : Graph} {ids : IdSource} (hnodup : (idsOf g.nodes).Nodup) (hfresh : ids.FreshFor g)
include hnodup hfresh

theorem tidy_runBatch (setting : BatchSetting) (calls : List Value) :
    (runBatch setting g ids calls).Tidy :=
  Batch.keeps_tidy.applyCalls (Batch.tidy_start hnodup hfresh) _ calls

theorem descends_runBatch (setting : BatchSetting) (calls : List Value) :
    Batch.Descends (fun _ => True) (.start g ids) (runBatch setting g ids calls) := by
  induction calls using List.reverseRecOn with
  | nil => exact .refl _
  | append_singleton calls call ih =>
      rw [runBatch_concat]
      have hcall := Batch.Descends.applyCall (tidy_runBatch hnodup hfresh setting calls)
        (setting.context g) call
      exact ih.trans (hcall.mono fun _ _ _ => trivial)

/-- A node that is no code file is there after the batch, perhaps revised. -/
theorem exists_node?_runBatch (setting : BatchSetting) (calls : List Value) {id : NodeId} {n : Node}
    (hn : g.node? id = some n) (hkind : n.kind ≠ .code) :
    ∃ m, (runBatch setting g ids calls).graph.node? id = some m ∧ n.RevisedTo m := by
  obtain ⟨hmem, rfl⟩ := Graph.node?_eq_some hn
  obtain ⟨m, hm, hrevised⟩ := (descends_runBatch hnodup hfresh setting calls).stays n hmem hkind
  refine ⟨m, ?_, hrevised⟩
  rw [← hrevised.id_eq]
  exact Graph.node?_of_mem (tidy_runBatch hnodup hfresh setting calls).nodup hm

end Batches

end LiveCanvas
