import LiveCanvas.Canvas.NodeWire
import LiveCanvas.Proofs.Reading
import LiveCanvas.Proofs.Value.ByValue

/-!
# Nodes are read back as they were written

A node leaves out the marks it does not carry, and reading gives a missing mark the value for which
it is left out.  So every field comes back, except that sizes come back as doubles and a null lock
as none.  All of this is about nodes whose numbers are values of doubles: a size that lies between
two doubles is rounded, and one that is not finite is refused.
-/

namespace LiveCanvas

/-! ## Sizes -/

/-- The number as a double, if there is one. -/
def Number.asReal (n : Number) : Number := (n.toReal?.map real).getD n

theorem Number.asReal_of_toReal? {n : Number} {x : Float} (h : n.toReal? = some x) :
    n.asReal = .real x := by
  simp [asReal, h]

theorem Number.IsDouble.byValue_asReal {n : Number} (h : n.IsDouble) :
    n.asReal.byValue = n.byValue := by
  obtain ⟨x, hx, hvalue⟩ := h.exists_toReal?
  rwa [asReal_of_toReal? hx]

namespace Size

/-- The numbers of a size. -/
def numbers (s : Size) : List Number := [s.width, s.height]

/-- The size with doubles for its numbers. -/
def asReals (s : Size) : Size := ⟨s.width.asReal, s.height.asReal⟩

theorem byValue_toValue_asReals {s : Size} (h : ∀ n ∈ s.numbers, n.IsDouble) :
    s.asReals.toValue.byValue = s.toValue.byValue := by
  obtain ⟨hwidth, hheight⟩ : s.width.IsDouble ∧ s.height.IsDouble := by simpa [numbers] using h
  simp [toValue, asReals, hwidth.byValue_asReal, hheight.byValue_asReal]

theorem ofFields_of_isDouble {s : Size} (h : ∀ n ∈ s.numbers, n.IsDouble) :
    ofFields [("width", .number s.width), ("height", .number s.height)] = .ok s.asReals := by
  obtain ⟨hwidth, hheight⟩ : s.width.IsDouble ∧ s.height.IsDouble := by simpa [numbers] using h
  obtain ⟨width, hwidth, -⟩ := hwidth.exists_toReal?
  obtain ⟨height, hheight, -⟩ := hheight.exists_toReal?
  simp [ofFields, Value.realField, Fields.get?_cons, Value.toReal, asReals, hwidth, hheight,
    Number.asReal_of_toReal? hwidth, Number.asReal_of_toReal? hheight]
  rfl

end Size

/-! ## What is left out

A field that is not written is read as the value for which it is left out. -/

namespace Value

theorem isTrue_getD_mark (mark : Bool) :
    ((if mark = true then some (bool true) else none).getD null).isTrue = mark := by
  cases mark <;> rfl

theorem getD_present? (v : Value) : v.present?.getD null = v := by
  cases v <;> rfl

theorem present?_getD_bind (v : Option Value) :
    ((v.bind present?).getD null).present? = v.bind present? := by
  cases v with
  | none => rfl
  | some v => rw [Option.bind_some, getD_present?]

theorem elementsIfTrue_list (items : List Value) : (list items).elementsIfTrue = .ok items := by
  cases items <;> rfl

theorem elementsIfTrue_getD_list (items : List Value) :
    ((if (!items.isEmpty) = true then some (list items) else none).getD null).elementsIfTrue =
      .ok items := by
  cases items <;> rfl

/-- An empty text counts as no, and stands for itself. -/
theorem asText_ifTrue_text (s : Text) :
    (if (text s).isTrue = true then (text s).asText else "") = s := by
  by_cases h : s = "" <;> simp [isTrue, asText, h]

theorem map_asText_text (items : List Text) : (items.map text).map asText = items := by
  rw [List.map_map]
  exact List.map_id _

end Value

/-! ## Nodes -/

namespace Node

theorem get?_writtenIf (present : Bool) (name other : Text) (v : Value) :
    Fields.get? (writtenIf present name v) other =
      if name = other ∧ present = true then some v else none := by
  cases present <;> simp [writtenIf, Fields.get?_cons]

theorem get?_writtenSome (name other : Text) (v : Option Value) :
    Fields.get? (writtenSome name v) other = if name = other then v else none := by
  cases v <;> simp [writtenSome, Fields.get?_cons]

/-- A field of a written node is one that is always there, or one that is left out at times. -/
theorem get?_toFields (n : Node) (name : Text) : n.toFields.get? name =
    (((((((((Fields.get? [("id", .text n.id), ("type", .text n.kind.wire), ("title", .text n.title),
        ("content", .text n.content), ("position", n.position.toValue),
        ("size", n.size.toValue)] name).or
      (if "autoHeight" = name ∧ n.autoHeight = true then some (.bool true) else none)).or
      (if "isMinimized" = name ∧ n.isMinimized = true then some (.bool true) else none)).or
      (if "expandedSize" = name then n.expandedSize.map Size.toValue else none)).or
      (if "isLoading" = name ∧ n.isLoading = true then some (.bool true) else none)).or
      (if "lockedBy" = name then n.lock.bind Value.present? else none)).or
      (if "messages" = name ∧ (!n.messages.isEmpty) = true
        then some (.list (n.messages.map Message.toValue)) else none)).or
      (if "contextNodeIds" = name ∧ (!n.contextIds.isEmpty) = true
        then some (.texts n.contextIds) else none)).or
      (if "sharedState" = name then n.sharedState.present? else none)) := by
  simp only [toFields, Fields.get?_append, get?_writtenIf, get?_writtenSome]

theorem readMessage_toValue (id : NodeId) (m : Message) : readMessage id m.toValue = .ok m := by
  obtain ⟨speaker, text⟩ := m
  cases speaker <;> rfl

theorem readExpanded_toValue {size : Option Size} (h : ∀ s ∈ size, ∀ n ∈ s.numbers, n.IsDouble) :
    readExpanded ((size.map Size.toValue).getD .null) = .ok (size.map Size.asReals) := by
  cases size with
  | none => rfl
  | some size =>
      simp only [Option.map_some, Option.getD_some, Size.toValue, readExpanded,
        Size.ofFields_of_isDouble (h size rfl)]
      rfl

/-- The numbers of a node. -/
def numbers (n : Node) : List Number :=
  [.real n.position.x, .real n.position.y] ++ n.size.numbers ++
    (n.expandedSize.map Size.numbers).getD []

/-- The node as it is read back. -/
def readBack (n : Node) : Node :=
  { n with
    size := n.size.asReals
    expandedSize := n.expandedSize.map Size.asReals
    lock := n.lock.bind Value.present? }

@[simp] theorem id_readBack (n : Node) : n.readBack.id = n.id := rfl

section ReadBack

variable {n : Node} (h : ∀ x ∈ n.numbers, x.IsDouble)
include h

theorem isDouble_size : ∀ x ∈ n.size.numbers, x.IsDouble := by
  intro x hx
  exact h x (by simp [numbers, hx])

theorem isDouble_expandedSize : ∀ s ∈ n.expandedSize, ∀ x ∈ s.numbers, x.IsDouble := by
  intro s hs x hx
  exact h x (by simp [numbers, Option.mem_def.mp hs, hx])

/-- One fact for each read that `ofFields` makes, in the order in which it makes them. -/
theorem ofFields_toFields : ofFields n.kind n.id n.toFields = .ok n.readBack := by
  -- Fields that are always written.
  have htitle : (n.toFields.get? "title").elim (.ofString "") Value.asText = n.title := by
    simp [get?_toFields, Fields.get?_cons, Value.asText]
  have hcontent : Value.field n.toFields "content" = .text n.content := by
    simp [Value.field, get?_toFields, Fields.get?_cons]
  have hplace : (Value.field n.toFields "position").toFieldsIfTrue =
      .ok [("x", .real n.position.x), ("y", .real n.position.y)] := by
    have hwritten : Value.field n.toFields "position" = n.position.toValue := by
      simp [Value.field, get?_toFields, Fields.get?_cons]
    rw [hwritten]
    rfl
  have hposition : Position.ofFields [("x", .real n.position.x), ("y", .real n.position.y)] =
      .ok n.position := rfl
  have hextent : (Value.field n.toFields "size").toFieldsIfTrue =
      .ok [("width", .number n.size.width), ("height", .number n.size.height)] := by
    have hwritten : Value.field n.toFields "size" = n.size.toValue := by
      simp [Value.field, get?_toFields, Fields.get?_cons]
    rw [hwritten]
    rfl
  -- Fields that are left out at times: what they are read as then is what they were left out for.
  have hexpanded : readExpanded (Value.field n.toFields "expandedSize") =
      .ok (n.expandedSize.map Size.asReals) := by
    rw [← readExpanded_toValue (isDouble_expandedSize h)]
    simp [Value.field, get?_toFields, Fields.get?_cons]
  have hspoken : (Value.field n.toFields "messages").elementsIfTrue =
      .ok (n.messages.map Message.toValue) := by
    rw [← Value.elementsIfTrue_getD_list]
    simp [Value.field, get?_toFields, Fields.get?_cons]
  have hmessages : (n.messages.map Message.toValue).mapM (readMessage n.id) =
      .ok n.messages := mapM_map_eq_ok_self (readMessage_toValue n.id)
  have hpicked : (Value.field n.toFields "contextNodeIds").elementsIfTrue =
      .ok (n.contextIds.map Value.text) := by
    rw [← Value.elementsIfTrue_getD_list]
    simp [Value.field, get?_toFields, Fields.get?_cons, Value.texts]
  have hautoHeight : (Value.field n.toFields "autoHeight").isTrue = n.autoHeight := by
    rw [← Value.isTrue_getD_mark n.autoHeight]
    simp [Value.field, get?_toFields, Fields.get?_cons]
  have hminimized : (Value.field n.toFields "isMinimized").isTrue = n.isMinimized := by
    rw [← Value.isTrue_getD_mark n.isMinimized]
    simp [Value.field, get?_toFields, Fields.get?_cons]
  have hloading : (Value.field n.toFields "isLoading").isTrue = n.isLoading := by
    rw [← Value.isTrue_getD_mark n.isLoading]
    simp [Value.field, get?_toFields, Fields.get?_cons]
  have hlock : (Value.field n.toFields "lockedBy").present? = n.lock.bind Value.present? := by
    rw [← Value.present?_getD_bind]
    simp [Value.field, get?_toFields, Fields.get?_cons]
  have hshared : Value.field n.toFields "sharedState" = n.sharedState := by
    rw [← Value.getD_present? n.sharedState]
    simp [Value.field, get?_toFields, Fields.get?_cons]
  unfold ofFields
  simp only [htitle, hcontent, hplace, hposition, hextent,
    Size.ofFields_of_isDouble (isDouble_size h), hexpanded, hspoken, hmessages, hpicked,
    hautoHeight, hminimized, hloading, hlock, hshared, inField, Value.asText_ifTrue_text, bind,
    Except.bind, Value.map_asText_text]
  rfl

/-- A node whose numbers are values of doubles is read back. -/
theorem ofValue_toValue : ofValue n.toValue = .ok n.readBack := by
  have htype : n.toFields.get? "type" = some (.text n.kind.wire) := by
    simp [get?_toFields, Fields.get?_cons]
  have hid : n.toFields.get? "id" = some (.text n.id) := by
    simp [get?_toFields, Fields.get?_cons]
  simp only [ofValue, toValue, htype, hid, Kind.ofValue?, Kind.ofWire?_wire, Value.asText,
    ofFields_toFields h]

/-- What is read back is written as before, but for how its numbers are written. -/
theorem byValue_toValue_readBack : n.readBack.toValue.byValue = n.toValue.byValue := by
  have hsize := Size.byValue_toValue_asReals (isDouble_size h)
  have hexpanded : ∀ s ∈ n.expandedSize, s.asReals.toValue.byValue = s.toValue.byValue :=
    fun s hs => Size.byValue_toValue_asReals (isDouble_expandedSize h s hs)
  have hlock : (n.lock.bind Value.present?).bind Value.present? = n.lock.bind Value.present? := by
    cases hlock : n.lock with
    | none => rfl
    | some v => cases v <;> rfl
  simp only [toValue, toFields, readBack, Value.byValue_object, List.map_append, List.map_cons,
    hsize, hlock]
  cases hsome : n.expandedSize with
  | none => rfl
  | some s =>
    simp only [Option.map_some, writtenSome, List.map_cons, hexpanded s hsome]

end ReadBack

end Node
end LiveCanvas
