import LiveCanvas.Collab.Snapshot
import LiveCanvas.Proofs.Payload.Fits
import LiveCanvas.Proofs.Reading

/-!
# The entries of a payload

A payload is read in two steps: its shape first, and then each node and each connection in it.  Here
both steps are told by the payload itself.  It can be read only if every entry of its two lists can,
and it is refused because of its shape or because of one entry.
-/

namespace LiveCanvas

/-- The entries of a list in a payload: none when it is missing or null.  Whatever else is no list
has no entries to speak of. -/
def entries? (payload : Value) (name : Text) : Option (List Value) :=
  match payload with
  | .object fields =>
    match Fields.get? fields name with
    | none | some .null => some []
    | some (.list items) => some items
    | some _ => none
  | _ => none

/-- Each entry of a list in the payload can be read. -/
def EntriesRead {α : Type} (read : Value → Except LoadError α) (payload : Value)
    (name : Text) : Prop :=
  ∃ entries, entries? payload name = some entries ∧ ∀ v ∈ entries, ∃ a, read v = .ok a

namespace Snapshot

theorem section?_eq_fits {α : Type} {name : Text} {check : Value → Checked α}
    {fields : Fields Value} {found : Option α} (h : section? [name] check fields = .fits found) :
    fields.get? name = none ∧ found = none ∨
      ∃ v, fields.get? name = some v ∧ Checked.nullable check v = .fits found := by
  cases hget : fields.get? name with
  | none =>
      have hnone : Checked.fits none = Checked.fits found := by
        simpa [section?, Checked.optional, Checked.given?, hget] using h
      exact .inl ⟨rfl, (Checked.fits.inj hnone).symm⟩
  | some v =>
      exact .inr ⟨v, rfl, by simpa [section?, Checked.optional, Checked.given?, hget] using h⟩

theorem entries?_of_section {name : Text} {fields : Fields Value}
    {found : Option (List (Fields Value))}
    (h : section? [name] (Checked.list Checked.object) fields = .fits found) :
    entries? (.object fields) name = some ((found.getD []).map .object) := by
  obtain ⟨hget, rfl⟩ | ⟨v, hget, hv⟩ := section?_eq_fits h
  · simp [entries?, hget]
  · obtain ⟨rfl, rfl⟩ | ⟨-, objects, hlist, rfl⟩ := Checked.nullable_eq_fits_iff.mp hv
    · simp [entries?, hget]
    · rw [Checked.list_eq_fits_iff fun _ _ => Checked.object_eq_fits_iff] at hlist
      simp [entries?, hget, hlist]

/-- A snapshot holds the entries of its payload. -/
theorem entries?_of_ofValue {payload : Value} {s : Snapshot} (h : ofValue payload = .ok s) :
    entries? payload "nodes" = some ((s.nodes.getD []).map .object) ∧
      entries? payload "connections" = some ((s.connections.getD []).map .object) := by
  have hshape : shape payload = .fits s := by
    unfold ofValue at h
    split at h
    · simp_all
    · simp at h
  cases payload with
  | object fields =>
      simp only [shape, Checked.seq_eq_fits_iff, Checked.map_eq_fits_iff] at hshape
      obtain ⟨_, _, ⟨_, _, ⟨_, _, ⟨_, connections, ⟨nodes, hnodes, rfl⟩, hconnections, rfl⟩,
        -, rfl⟩, -, rfl⟩, -, rfl⟩ := hshape
      exact ⟨entries?_of_section hnodes, entries?_of_section hconnections⟩
  | null | bool | number | text | list => simp [shape, Checked.misfit] at hshape

/-- What has not the shape of a snapshot is refused as such. -/
theorem exists_of_ofValue_eq_error {payload : Value} {e : LoadError}
    (h : ofValue payload = .error e) : ∃ faults, e = .invalidSnapshot faults := by
  unfold ofValue at h
  split at h
  · simp at h
  · exact ⟨_, (Except.error.inj h).symm⟩

end Snapshot

namespace Incoming

theorem exists_of_readAll_eq_ok {α : Type} {read : Value → Except LoadError α}
    {objects : Option (List (Fields Value))} {found : Option (List α)}
    (h : readAll read objects = .ok found) :
    ∀ v ∈ (objects.getD []).map Value.object, ∃ a, read v = .ok a := by
  cases objects with
  | none => simp
  | some objects =>
      obtain ⟨_, hitems, -⟩ := bind_eq_ok_iff.mp h
      exact List.forall_mem_map.mpr (exists_of_mapM_eq_ok hitems)

theorem exists_of_readAll_eq_error {α : Type} {read : Value → Except LoadError α}
    {objects : Option (List (Fields Value))} {e : LoadError}
    (h : readAll read objects = .error e) :
    ∃ fields, .object fields ∈ (objects.getD []).map Value.object ∧
      read (.object fields) = .error e := by
  cases objects with
  | none => simp [readAll] at h
  | some objects =>
      obtain hitems | ⟨_, -, h⟩ := bind_eq_error_iff.mp h
      · obtain ⟨fields, hmem, he⟩ := exists_of_mapM_eq_error hitems
        exact ⟨fields, List.mem_map_of_mem hmem, he⟩
      · exact absurd h pure_ne_error

/-- The steps in which a payload is read. -/
theorem ofValue_eq_ok_iff {payload : Value} {s : Incoming} :
    ofValue payload = .ok s ↔ ∃ shape nodes connections, Snapshot.ofValue payload = .ok shape ∧
      readAll Node.ofValue shape.nodes = .ok nodes ∧
      readAll Connection.ofValue shape.connections = .ok connections ∧
      s = ⟨nodes, connections, shape.running, shape.pan, shape.zoom⟩ := by
  simp only [ofValue, ofSnapshot, bind_eq_ok_iff, pure_eq_ok_iff]
  constructor
  · rintro ⟨shape, hshape, nodes, hnodes, connections, hconnections, rfl⟩
    exact ⟨shape, nodes, connections, hshape, hnodes, hconnections, rfl⟩
  · rintro ⟨shape, nodes, connections, hshape, hnodes, hconnections, rfl⟩
    exact ⟨shape, hshape, nodes, hnodes, connections, hconnections, rfl⟩

/-- Every node and every connection of a payload that can be read can be read. -/
theorem entriesRead_of_ofValue {payload : Value} {s : Incoming} (h : ofValue payload = .ok s) :
    EntriesRead Node.ofValue payload "nodes" ∧
      EntriesRead Connection.ofValue payload "connections" := by
  obtain ⟨shape, nodes, connections, hshape, hnodes, hconnections, -⟩ := ofValue_eq_ok_iff.mp h
  obtain ⟨hnodeEntries, hconnectionEntries⟩ := Snapshot.entries?_of_ofValue hshape
  exact ⟨⟨_, hnodeEntries, exists_of_readAll_eq_ok hnodes⟩,
    ⟨_, hconnectionEntries, exists_of_readAll_eq_ok hconnections⟩⟩

/-- A payload is refused because of its shape, a node, or a connection. -/
theorem cases_of_ofValue_eq_error {payload : Value} {e : LoadError}
    (h : ofValue payload = .error e) :
    (∃ faults, e = .invalidSnapshot faults) ∨
    (∃ entries fields, entries? payload "nodes" = some entries ∧ .object fields ∈ entries ∧
      Node.ofValue (.object fields) = .error e) ∨
    (∃ entries fields, entries? payload "connections" = some entries ∧ .object fields ∈ entries ∧
      Connection.ofValue (.object fields) = .error e) := by
  obtain hshape | ⟨shape, hshape, h⟩ := bind_eq_error_iff.mp h
  · exact .inl (Snapshot.exists_of_ofValue_eq_error hshape)
  · obtain ⟨hnodeEntries, hconnectionEntries⟩ := Snapshot.entries?_of_ofValue hshape
    obtain hnodes | ⟨_, -, h⟩ := bind_eq_error_iff.mp h
    · obtain ⟨fields, hmem, he⟩ := exists_of_readAll_eq_error hnodes
      exact .inr (.inl ⟨_, fields, hnodeEntries, hmem, he⟩)
    · obtain hconnections | ⟨_, -, h⟩ := bind_eq_error_iff.mp h
      · obtain ⟨fields, hmem, he⟩ := exists_of_readAll_eq_error hconnections
        exact .inr (.inr ⟨_, fields, hconnectionEntries, hmem, he⟩)
      · exact absurd h pure_ne_error

end Incoming
end LiveCanvas
