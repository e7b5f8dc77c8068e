import LiveCanvas.Canvas.Connection
import LiveCanvas.Canvas.NodeWire
import LiveCanvas.Proofs.Reading

/-!
# What is wrong with an entry

A node or a connection that cannot be read is refused with a description of what is wrong with it.
Two faults are not described: an entry that is no object, and a whole number beyond every double in
the place or a size of a node.  This module shows that there is no other such fault, wherever the
reading of an entry goes wrong, and that no entry with one of the two is read.
-/

namespace LiveCanvas

/-- The whole number lies beyond every double. -/
def BeyondDoubles (n : Int) : Prop := (Number.whole n).toReal? = none

theorem beyondDoubles_iff {n : Int} : BeyondDoubles n ↔ (Float.ofInt n).isInf = true := by
  by_cases h : (Float.ofInt n).isInf = true <;> simp [BeyondDoubles, Number.toReal?, h]

/-! ## Numbers -/

theorem Value.toReal_eq_tooLarge {v : Value} (h : v.toReal = .error .tooLarge) :
    ∃ n, v = .number (.whole n) ∧ BeyondDoubles n := by
  cases v with
  | number n =>
      cases n with
      | real x => simp [toReal, Number.toReal?] at h
      | whole n =>
          refine ⟨n, rfl, ?_⟩
          cases hreal : (Number.whole n).toReal? with
          | none => exact hreal
          | some x => simp [toReal, hreal] at h
  | text s => cases hread : Numeral.loose? s <;> simp [toReal, hread] at h
  | null | bool | list | object => simp [toReal] at h

theorem Value.toReal_of_beyondDoubles {n : Int} (h : BeyondDoubles n) :
    (number (.whole n)).toReal = .error .tooLarge := by
  have hnone : (Number.whole n).toReal? = none := h
  simp [toReal, hnone]

theorem Value.realField_eq_tooLarge {fields : Fields Value} {name : Text} {default : Float}
    (h : Value.realField fields name default = .error .tooLarge) :
    ∃ n, fields.get? name = some (.number (.whole n)) ∧ BeyondDoubles n := by
  unfold realField at h
  cases hget : fields.get? name with
  | none => simp [hget] at h
  | some v =>
      obtain ⟨n, rfl, hn⟩ := toReal_eq_tooLarge (by simpa [hget] using h)
      exact ⟨n, rfl, hn⟩

/-! ## Places and sizes -/

/-- The values of some fields of a value that is an object. -/
def Value.valuesOf (names : List Text) : Value → List Value
  | object fields => names.filterMap fun name => Fields.get? fields name
  | _ => []

theorem Value.mem_valuesOf {names : List Text} {fields : Fields Value} {name : Text} {v : Value}
    (hname : name ∈ names) (hget : fields.get? name = some v) :
    v ∈ valuesOf names (object fields) :=
  List.mem_filterMap.mpr ⟨name, hname, hget⟩

/-- A pair of numbers is beyond every double when one of the two is. -/
theorem Value.realFields_eq_tooLarge {α : Type} {fields : Fields Value} {first second : Text}
    {pair : Float → Float → α}
    (h : (do
      let a ← Value.realField fields first 0
      let b ← Value.realField fields second 0
      return pair a b) = .error .tooLarge) :
    ∃ n, .number (.whole n) ∈ valuesOf [first, second] (object fields) ∧ BeyondDoubles n := by
  obtain hfirst | ⟨_, -, h⟩ := bind_eq_error_iff.mp h
  · obtain ⟨n, hget, hn⟩ := realField_eq_tooLarge hfirst
    exact ⟨n, mem_valuesOf (by simp) hget, hn⟩
  · obtain hsecond | ⟨_, -, h⟩ := bind_eq_error_iff.mp h
    · obtain ⟨n, hget, hn⟩ := realField_eq_tooLarge hsecond
      exact ⟨n, mem_valuesOf (by simp) hget, hn⟩
    · exact absurd h pure_ne_error

/-- A pair of numbers that can be read is made of values that stand for doubles. -/
theorem Value.toReal_of_realFields_eq_ok {α : Type} {fields : Fields Value} {first second : Text}
    {pair : Float → Float → α} {a : α}
    (h : (do
      let x ← Value.realField fields first 0
      let y ← Value.realField fields second 0
      return pair x y) = .ok a) :
    ∀ v ∈ valuesOf [first, second] (object fields), ∃ x, v.toReal = .ok x := by
  obtain ⟨x, hx, h⟩ := bind_eq_ok_iff.mp h
  obtain ⟨y, hy, -⟩ := bind_eq_ok_iff.mp h
  intro v hv
  obtain ⟨name, hname, hget⟩ := List.mem_filterMap.mp hv
  simp only [List.mem_cons, List.not_mem_nil, or_false] at hname
  rcases hname with rfl | rfl
  · exact ⟨x, by simpa [realField, hget] using hx⟩
  · exact ⟨y, by simpa [realField, hget] using hy⟩

theorem not_beyondDoubles_of_toReal {n : Int}
    (h : ∃ x, (Value.number (.whole n)).toReal = .ok x) : ¬ BeyondDoubles n := by
  intro hbeyond
  obtain ⟨x, hx⟩ := h
  rw [Value.toReal_of_beyondDoubles hbeyond] at hx
  cases hx

namespace Node

/-- The values that a node's place and sizes are read from. -/
def measures : Value → List Value
  | .object fields =>
    Value.valuesOf ["x", "y"] (Value.field fields "position") ++
    Value.valuesOf ["width", "height"] (Value.field fields "size") ++
    Value.valuesOf ["width", "height"] (Value.field fields "expandedSize")
  | _ => []

/-- Only a whole number beyond every double leaves a field without a description. -/
theorem inField_eq_misuse {α : Type} {id : NodeId} {r : Except Misuse α} {cause : Misuse}
    (h : inField id r = .error (.misuse cause)) : r = .error .tooLarge ∧ cause = .tooLarge := by
  unfold inField at h
  split at h <;> simp_all

theorem inField_eq_ok {α : Type} {id : NodeId} {r : Except Misuse α} {a : α}
    (h : inField id r = .ok a) : r = .ok a := by
  unfold inField at h
  split at h <;> simp_all

theorem readExpanded_eq_tooLarge {v : Value} (h : readExpanded v = .error .tooLarge) :
    ∃ n, .number (.whole n) ∈ Value.valuesOf ["width", "height"] v ∧ BeyondDoubles n := by
  cases v with
  | object fields =>
      cases hsize : Size.ofFields fields with
      | ok size => simp [readExpanded, hsize, Except.map] at h
      | error cause =>
          obtain rfl : cause = .tooLarge := by simpa [readExpanded, hsize, Except.map] using h
          exact Value.realFields_eq_tooLarge hsize
  | null | bool | number | text | list => simp [readExpanded] at h

theorem toReal_of_readExpanded_eq_ok {v : Value} {size : Option Size}
    (h : readExpanded v = .ok size) :
    ∀ w ∈ Value.valuesOf ["width", "height"] v, ∃ x, w.toReal = .ok x := by
  cases v with
  | object fields =>
      cases hsize : Size.ofFields fields with
      | ok size => exact Value.toReal_of_realFields_eq_ok hsize
      | error cause => simp [readExpanded, hsize, Except.map] at h
  | null | bool | number | text | list => simp [Value.valuesOf]

theorem toFieldsIfTrue_ne_tooLarge (v : Value) : v.toFieldsIfTrue ≠ .error .tooLarge := by
  unfold Value.toFieldsIfTrue
  split
  · cases v <;> simp [Value.toFields]
  · simp

theorem elementsIfTrue_ne_tooLarge (v : Value) : v.elementsIfTrue ≠ .error .tooLarge := by
  unfold Value.elementsIfTrue
  split
  · cases v <;> simp [Value.elements]
  · simp

/-- The fields that are read are those of the value, or none. -/
theorem valuesOf_of_toFieldsIfTrue {v : Value} {fields : Fields Value}
    (h : v.toFieldsIfTrue = .ok fields) (names : List Text) :
    Value.valuesOf names v = Value.valuesOf names (.object fields) := by
  unfold Value.toFieldsIfTrue at h
  split at h
  · cases v with
    | object given =>
        obtain rfl : given = fields := Except.ok.inj h
        rfl
    | null | bool | number | text | list => simp [Value.toFields] at h
  · next hfalse =>
    obtain rfl : [] = fields := Except.ok.inj h
    cases v with
    | object given =>
        obtain rfl : given = [] := by simpa [Value.isTrue] using hfalse
        rfl
    | null | bool | number | text | list => simp [Value.valuesOf]

/-- Two numbers of a field of a node, where the field itself can be read. -/
theorem inField_realFields_eq_misuse {α : Type} {id : NodeId} {v : Value} {fields : Fields Value}
    {first second : Text} {pair : Float → Float → α} {cause : Misuse}
    (hfields : inField id v.toFieldsIfTrue = .ok fields)
    (h : inField id (do
      let a ← Value.realField fields first 0
      let b ← Value.realField fields second 0
      return pair a b) = .error (.misuse cause)) :
    cause = .tooLarge ∧
      ∃ n, .number (.whole n) ∈ Value.valuesOf [first, second] v ∧ BeyondDoubles n := by
  obtain ⟨hbeyond, rfl⟩ := inField_eq_misuse h
  obtain ⟨n, hmem, hn⟩ := Value.realFields_eq_tooLarge hbeyond
  exact ⟨rfl, n, valuesOf_of_toFieldsIfTrue (inField_eq_ok hfields) _ ▸ hmem, hn⟩

theorem readMessage_ne_misuse (id : NodeId) (v : Value) (cause : Misuse) :
    readMessage id v ≠ .error (.misuse cause) := by
  intro h
  obtain hfields | ⟨fields, -, h⟩ := bind_eq_error_iff.mp h
  · obtain ⟨hfields, -⟩ := inField_eq_misuse hfields
    cases v <;> simp [Value.toFields] at hfields
  · dsimp only at h
    split at h
    · simp [throw, throwThe, MonadExceptOf.throw] at h
    · exact pure_ne_error h

/-- Reading a node stops without a description only at a whole number beyond every double. -/
theorem ofFields_eq_misuse {kind : Kind} {id : NodeId} {fields : Fields Value} {cause : Misuse}
    (h : ofFields kind id fields = .error (.misuse cause)) :
    cause = .tooLarge ∧
      ∃ n, .number (.whole n) ∈ measures (.object fields) ∧ BeyondDoubles n := by
  -- one step after the other either stops here, or the next one does
  obtain hplace | ⟨place, hplace, h⟩ := bind_eq_error_iff.mp h
  · exact absurd (inField_eq_misuse hplace).1 (toFieldsIfTrue_ne_tooLarge _)
  obtain hposition | ⟨_, -, h⟩ := bind_eq_error_iff.mp h
  · obtain ⟨rfl, n, hmem, hn⟩ := inField_realFields_eq_misuse hplace hposition
    exact ⟨rfl, n, by simp [measures, hmem], hn⟩
  obtain hextent | ⟨extent, hextent, h⟩ := bind_eq_error_iff.mp h
  · exact absurd (inField_eq_misuse hextent).1 (toFieldsIfTrue_ne_tooLarge _)
  obtain hsize | ⟨_, -, h⟩ := bind_eq_error_iff.mp h
  · obtain ⟨rfl, n, hmem, hn⟩ := inField_realFields_eq_misuse hextent hsize
    exact ⟨rfl, n, by simp [measures, hmem], hn⟩
  obtain hexpanded | ⟨_, -, h⟩ := bind_eq_error_iff.mp h
  · obtain ⟨hbeyond, rfl⟩ := inField_eq_misuse hexpanded
    obtain ⟨n, hmem, hn⟩ := readExpanded_eq_tooLarge hbeyond
    exact ⟨rfl, n, by simp [measures, hmem], hn⟩
  obtain hspoken | ⟨_, -, h⟩ := bind_eq_error_iff.mp h
  · exact absurd (inField_eq_misuse hspoken).1 (elementsIfTrue_ne_tooLarge _)
  obtain hmessages | ⟨_, -, h⟩ := bind_eq_error_iff.mp h
  · obtain ⟨v, -, hmessage⟩ := exists_of_mapM_eq_error hmessages
    exact absurd hmessage (readMessage_ne_misuse id v cause)
  obtain hpicked | ⟨_, -, h⟩ := bind_eq_error_iff.mp h
  · exact absurd (inField_eq_misuse hpicked).1 (elementsIfTrue_ne_tooLarge _)
  · exact absurd h pure_ne_error

/-- An object without a known type or without an id is refused with a description; otherwise it is
up to its other fields. -/
theorem ofValue_object_cases (fields : Fields Value) :
    (∃ e, ofValue (.object fields) = .error e ∧ e.isDescribed = true) ∨
      ∃ kind id, ofValue (.object fields) = ofFields kind id fields := by
  cases htype : fields.get? "type" with
  | none => exact .inl ⟨_, by simp only [ofValue, htype]; rfl, rfl⟩
  | some type =>
      cases hkind : Kind.ofValue? type with
      | none => exact .inl ⟨_, by simp only [ofValue, htype, hkind]; rfl, rfl⟩
      | some kind =>
          cases hid : fields.get? "id" with
          | none => exact .inl ⟨_, by simp only [ofValue, htype, hkind, hid]; rfl, rfl⟩
          | some id => exact .inr ⟨kind, id.asText, by simp only [ofValue, htype, hkind, hid]⟩

theorem ofValue_eq_misuse {fields : Fields Value} {cause : Misuse}
    (h : ofValue (.object fields) = .error (.misuse cause)) :
    cause = .tooLarge ∧
      ∃ n, .number (.whole n) ∈ measures (.object fields) ∧ BeyondDoubles n := by
  rcases ofValue_object_cases fields with ⟨e, he, hdescribed⟩ | ⟨kind, id, heq⟩
  · obtain rfl : e = .misuse cause := Except.error.inj (he.symm.trans h)
    simp [LoadError.isDescribed] at hdescribed
  · exact ofFields_eq_misuse (heq ▸ h)

/-- A node that is read has only places and sizes that stand for doubles. -/
theorem toReal_of_ofFields_eq_ok {kind : Kind} {id : NodeId} {fields : Fields Value} {n : Node}
    (h : ofFields kind id fields = .ok n) :
    ∀ v ∈ measures (.object fields), ∃ x, v.toReal = .ok x := by
  obtain ⟨place, hplace, h⟩ := bind_eq_ok_iff.mp h
  obtain ⟨_, hposition, h⟩ := bind_eq_ok_iff.mp h
  obtain ⟨extent, hextent, h⟩ := bind_eq_ok_iff.mp h
  obtain ⟨_, hsize, h⟩ := bind_eq_ok_iff.mp h
  obtain ⟨_, hexpanded, -⟩ := bind_eq_ok_iff.mp h
  simp only [measures, List.mem_append]
  rintro v ((hv | hv) | hv)
  · rw [valuesOf_of_toFieldsIfTrue (inField_eq_ok hplace)] at hv
    exact Value.toReal_of_realFields_eq_ok (inField_eq_ok hposition) v hv
  · rw [valuesOf_of_toFieldsIfTrue (inField_eq_ok hextent)] at hv
    exact Value.toReal_of_realFields_eq_ok (inField_eq_ok hsize) v hv
  · exact toReal_of_readExpanded_eq_ok (inField_eq_ok hexpanded) v hv

/-- A node is only read from an object, and its places and sizes stand for doubles. -/
theorem exists_fields_of_ofValue_eq_ok {v : Value} {n : Node} (h : ofValue v = .ok n) :
    ∃ fields, v = .object fields ∧ ∀ v ∈ measures (.object fields), ∃ x, v.toReal = .ok x := by
  cases v with
  | object fields =>
      rcases ofValue_object_cases fields with ⟨e, he, -⟩ | ⟨kind, id, heq⟩
      · cases he.symm.trans h
      · exact ⟨fields, rfl, toReal_of_ofFields_eq_ok (heq ▸ h)⟩
  | null | bool | number | text | list => simp [ofValue] at h

end Node

/-! ## Connections -/

theorem Connection.readField_ne_misuse {fields : Fields Value} {name : Text} {cause : Misuse} :
    readField fields name ≠ .error (.misuse cause) := by
  unfold readField
  split <;> simp

/-- A connection that is an object is refused with a description. -/
theorem Connection.ofValue_ne_misuse (fields : Fields Value) (cause : Misuse) :
    ofValue (.object fields) ≠ .error (.misuse cause) := by
  intro h
  simp only [ofValue, bind_eq_error_iff, readField_ne_misuse, pure_ne_error, false_or, and_false,
    exists_false] at h

end LiveCanvas
