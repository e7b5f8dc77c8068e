import LiveCanvas.Proofs.Number.Exact
import LiveCanvas.Value.Basic

/-!
# Values up to how their numbers are written

A number is written whole or as a double, and `450` and `450.0` are the same number.  Here a value
is brought into a form in which equal numbers are written the same, so that two values can be
compared by what their numbers are.
-/

namespace LiveCanvas

namespace Number

/-- The number, written whole if it is. -/
def byValue : Number → Number
  | whole n => whole n
  | real x =>
    match wholeValue? x with
    | some n => whole n
    | none => real x

/-- The value of a finite double.  Every finite double has one, and a whole number has to have a
double that is exactly equal to it: `2 ^ 53 + 1` has none. -/
def IsDouble : Number → Prop
  | whole n => ∃ x, wholeValue? x = some n
  | real x => x.isFinite = true

theorem isDouble_whole_iff {n : Int} :
    (whole n).IsDouble ↔ wholeValue? (Float.ofInt n) = some n := by
  constructor
  · rintro ⟨x, hx⟩
    obtain ⟨y, hreal, hy⟩ := exists_toReal?_of_wholeValue? hx
    obtain rfl : Float.ofInt n = y := by
      by_contra hne
      simp [toReal?, hne] at hreal
    exact hy
  · exact fun h => ⟨_, h⟩

instance : (n : Number) → Decidable n.IsDouble
  | whole _ => decidable_of_iff _ isDouble_whole_iff.symm
  | real x => inferInstanceAs (Decidable (x.isFinite = true))

/-- The value of a double is converted to that double, and that changes at most how it is
written. -/
theorem IsDouble.exists_toReal? {n : Number} (h : n.IsDouble) :
    ∃ x, n.toReal? = some x ∧ (real x).byValue = n.byValue := by
  cases n with
  | real x => exact ⟨x, rfl, rfl⟩
  | whole n =>
      obtain ⟨x, hx⟩ := h
      obtain ⟨y, hreal, hy⟩ := exists_toReal?_of_wholeValue? hx
      exact ⟨y, hreal, by simp [byValue, hy]⟩

end Number

namespace Value

mutual

/-- The value with every number in it written whole if it is. -/
def byValue : Value → Value
  | number n => number n.byValue
  | list items => list (itemsByValue items)
  | object fields => object (fieldsByValue fields)
  | null => null
  | bool b => bool b
  | text s => text s

/-- Each item with its numbers written whole if they are. -/
def itemsByValue : List Value → List Value
  | [] => []
  | v :: rest => byValue v :: itemsByValue rest

/-- Each field with its numbers written whole if they are. -/
def fieldsByValue : List (Text × Value) → List (Text × Value)
  | [] => []
  | (name, v) :: rest => (name, byValue v) :: fieldsByValue rest

end

theorem itemsByValue_eq_map (items : List Value) : itemsByValue items = items.map byValue := by
  induction items with
  | nil => rfl
  | cons v items ih => rw [itemsByValue, ih, List.map_cons]

theorem fieldsByValue_eq_map (fields : List (Text × Value)) :
    fieldsByValue fields = fields.map fun field => (field.1, byValue field.2) := by
  induction fields with
  | nil => rfl
  | cons field fields ih => rw [fieldsByValue, ih, List.map_cons]

@[simp] theorem byValue_number (n : Number) : (number n).byValue = number n.byValue := by
  rw [byValue]

@[simp] theorem byValue_list (items : List Value) :
    (list items).byValue = list (items.map byValue) := by
  rw [byValue, itemsByValue_eq_map]

@[simp] theorem byValue_object (fields : List (Text × Value)) :
    (object fields).byValue = object (fields.map fun field => (field.1, byValue field.2)) := by
  rw [byValue, fieldsByValue_eq_map]

example : (object [("width", int 450), ("tags", list [text "a"])]).byValue =
    (object [("width", real 450), ("tags", list [text "a"])]).byValue := by
  rfl

end Value
end LiveCanvas
