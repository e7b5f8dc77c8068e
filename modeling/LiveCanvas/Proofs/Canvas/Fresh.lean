import LiveCanvas.Proofs.Canvas.NodeList
import LiveCanvas.Proofs.Text.Cut

/-!
# Fresh ids

Generated ids are told apart by their number alone, whatever stem they have: the digits follow the
last hyphen.  So a source whose coming ids are unknown to a graph stays such a source when an id is
taken from it and given to something in the graph.
-/

namespace LiveCanvas
namespace IdSource

/-- The digits of a generated id. -/
def digits (number : Nat) : List Char :=
  List.replicate (12 - (Nat.toDigits 10 number).length) '0' ++ Nat.toDigits 10 number

theorem toList_name (stem : Text) (number : Nat) :
    (name stem number).toList = stem.toList ++ .char '-' :: (digits number).map .char := by
  simp [name, digits]

theorem hyphen_notMem_digits (number : Nat) : .char '-' ∉ (digits number).map Rune.char := by
  rw [Rune.char_mem_map]
  intro h
  rcases List.mem_append.1 h with h | h
  · exact absurd (List.eq_of_mem_replicate h) (by decide)
  · have hdigit := Nat.isDigit_of_mem_toDigits (by omega) (by omega) h
    exact absurd hdigit (by decide)

theorem digits_inj {number number' : Nat} (h : digits number = digits number') :
    number = number' := by
  have hvalue : ∀ k, Nat.ofDigitChars 10 (digits k) 0 = k := by
    intro k
    rw [digits, Nat.ofDigitChars_append, Nat.ofDigitChars_replicate_zero, Nat.mul_zero]
    exact Nat.ofDigitChars_ten_toDigits
  rw [← hvalue number, h, hvalue]

/-- Ids with different numbers differ. -/
theorem name_inj {stem stem' : Text} {number number' : Nat}
    (h : name stem number = name stem' number') : number = number' := by
  have hlist := congrArg Text.toList h
  rw [toList_name, toList_name] at hlist
  have hafter := congrArg (Text.afterLast '-') hlist
  rw [Text.afterLast_append _ (hyphen_notMem_digits number),
    Text.afterLast_append _ (hyphen_notMem_digits number')] at hafter
  exact digits_inj (List.map_injective_iff.2 Rune.char_injective hafter)

/-- The text ends in a digit, as every generated id does. -/
def endsInDigit (id : Text) : Bool :=
  id.toList.getLast?.any Rune.isDigit

theorem ne_name_of_not_endsInDigit {id : Text} (h : endsInDigit id = false)
    (stem : Text) (number : Nat) : id ≠ name stem number := by
  rintro rfl
  have hmem : (Nat.toDigits 10 number).getLast Nat.toDigits_ne_nil ∈ Nat.toDigits 10 number :=
    List.getLast_mem _
  have hlast : (name stem number).toList.getLast? =
      some (.char ((Nat.toDigits 10 number).getLast Nat.toDigits_ne_nil)) := by
    rw [toList_name, digits, List.map_append, ← List.cons_append, ← List.append_assoc]
    rw [List.getLast?_append_of_ne_nil _ (by simp [Nat.toDigits_ne_nil]), List.getLast?_map,
      List.getLast?_eq_some_getLast Nat.toDigits_ne_nil, Option.map_some]
  have hdigit := Nat.isDigit_of_mem_toDigits (by omega) (by omega) hmem
  rw [endsInDigit, hlast] at h
  exact absurd hdigit (Bool.eq_false_iff.1 h)

/-- None of the ids to come for a node is that of a node of the graph. -/
def FreshForNodes (ids : IdSource) (g : Graph) : Prop :=
  ∀ (kind : Kind) (number : Nat), ids.next ≤ number → name kind.idStem number ∉ idsOf g.nodes

namespace FreshForNodes

variable {ids ids' : IdSource} {g g' : Graph}

theorem fresh_notMem (h : ids.FreshForNodes g) (kind : Kind) :
    (ids.fresh kind.idStem).1 ∉ idsOf g.nodes :=
  h kind ids.next (Nat.le_refl _)

/-- A source that is further on, and a graph with no more nodes. -/
theorem mono (h : ids.FreshForNodes g) (hnext : ids.next ≤ ids'.next)
    (hnodes : idsOf g'.nodes ⊆ idsOf g.nodes) : ids'.FreshForNodes g' :=
  fun kind number hnumber hmem => h kind number (Nat.le_trans hnext hnumber) (hnodes hmem)

theorem addNode (h : ids.FreshForNodes g) {n : Node} {stem : Text}
    (hid : n.id = (ids.fresh stem).1) : (ids.fresh stem).2.FreshForNodes (g.addNode n) := by
  intro kind number hnumber hmem
  have hnumber : ids.next + 1 ≤ number := hnumber
  rcases Graph.mem_idsOf_placeNode.1 hmem with hmem | hmem
  · exact h kind number (by omega) hmem
  · have hsame := name_inj (hmem.trans hid)
    omega

end FreshForNodes

/-- None of the ids to come is that of a node or a connection of the graph. -/
structure FreshFor (ids : IdSource) (g : Graph) : Prop where
  nodes : ∀ stem number, ids.next ≤ number → name stem number ∉ idsOf g.nodes
  connections : ∀ stem number, ids.next ≤ number → ∀ c ∈ g.connections, c.id ≠ name stem number

namespace FreshFor

variable {ids : IdSource} {g : Graph}

/-- Ids that do not end in a digit were not generated. -/
theorem of_not_endsInDigit (ids : IdSource) (hnodes : ∀ id ∈ idsOf g.nodes, endsInDigit id = false)
    (hconnections : ∀ e ∈ g.connections, endsInDigit e.id = false) : ids.FreshFor g where
  nodes stem number _ hmem := ne_name_of_not_endsInDigit (hnodes _ hmem) stem number rfl
  connections stem number _ e he := ne_name_of_not_endsInDigit (hconnections e he) stem number

theorem forNodes (h : ids.FreshFor g) : ids.FreshForNodes g :=
  fun kind number hnumber => h.nodes kind.idStem number hnumber

/-- A graph with no more ids than another one. -/
theorem of_subset {g' : Graph} (h : ids.FreshFor g) (hnodes : idsOf g'.nodes ⊆ idsOf g.nodes)
    (hconnections : g'.connections ⊆ g.connections) : ids.FreshFor g' where
  nodes stem number hnumber hmem := h.nodes stem number hnumber (hnodes hmem)
  connections stem number hnumber c hc := h.connections stem number hnumber c (hconnections hc)

theorem addNode (h : ids.FreshFor g) {n : Node} {stem : Text} (hid : n.id = (ids.fresh stem).1) :
    (ids.fresh stem).2.FreshFor (g.addNode n) where
  nodes stem' number hnumber hmem := by
    have hnumber : ids.next + 1 ≤ number := hnumber
    rcases Graph.mem_idsOf_placeNode.1 hmem with hmem | hmem
    · exact h.nodes stem' number (by omega) hmem
    · have hsame := name_inj (hmem.trans hid)
      omega
  connections stem' number hnumber := h.connections stem' number (Nat.le_of_succ_le hnumber)

theorem connect (h : ids.FreshFor g) {c : Connection} {stem : Text}
    (hid : c.id = (ids.fresh stem).1) : (ids.fresh stem).2.FreshFor (g.connect c) where
  nodes stem' number hnumber := by
    have hnodes : (g.connect c).nodes = g.nodes := by
      unfold Graph.connect
      split <;> rfl
    rw [hnodes]
    exact h.nodes stem' number (Nat.le_of_succ_le hnumber)
  connections stem' number hnumber other hother := by
    have hnumber : ids.next + 1 ≤ number := hnumber
    have hmem : other ∈ g.connections ∨ other = c := by
      unfold Graph.connect at hother
      split at hother
      · simpa using hother
      · exact .inl hother
    rcases hmem with hmem | rfl
    · exact h.connections stem' number (by omega) other hmem
    · intro heq
      have hsame := name_inj (hid.symm.trans heq)
      omega

end FreshFor
end IdSource
end LiveCanvas
