import LiveCanvas.Fields
import LiveCanvas.Number.Reading

/-!
# Values

What a payload, a settings file or a shared node state is made of: null, truth values, numbers,
texts, lists, and objects whose fields keep their order.
-/

namespace LiveCanvas

/-- A value of a payload or a file. -/
inductive Value
  | null
  | bool (b : Bool)
  | number (n : Number)
  | text (s : Text)
  | list (items : List Value)
  | object (fields : List (Text × Value))

namespace Value

instance : Inhabited Value := ⟨null⟩

/-- A whole number as a value. -/
def int (n : Int) : Value := number (.whole n)

/-- A double as a value. -/
def real (x : Float) : Value := number (.real x)

/-- A list of texts as a value. -/
def texts (items : List Text) : Value := list (items.map text)

/-- A text or null. -/
def optionalText : Option Text → Value
  | some s => text s
  | none => null

/-- The value of a field, null when the object has no such field. -/
def field (fields : Fields Value) (name : Text) : Value :=
  (fields.get? name).getD null

/-- Null, false, zero, and empty texts, lists and objects count as no. -/
def isTrue : Value → Bool
  | null => false
  | bool b => b
  | number n => n.isNonzero
  | text s => s != ""
  | list items => !items.isEmpty
  | object fields => !fields.isEmpty

/-- A null value counts as absent. -/
def present? : Value → Option Value
  | null => none
  | v => some v

theorem eq_of_present? {v w : Value} (h : v.present? = some w) : v = w := by
  cases v <;> simp_all [present?]

/-- A value that is exactly this text. -/
def isText (v : Value) (s : Text) : Bool :=
  match v with
  | text t => t == s
  | _ => false

end Value

/-- Ways in which a value cannot be used as asked. -/
inductive Misuse
  /-- A field was asked of something that is not an object. -/
  | noFields
  /-- The value is of a kind that does not fit. -/
  | wrongKind
  /-- A text that does not read as a number, or a whole number with more digits than are read. -/
  | unreadable
  /-- A whole number beyond every double. -/
  | tooLarge
  /-- A text with halves that cannot be written as characters. -/
  | unencodable
deriving DecidableEq, Repr

namespace Value

/-- The double that a value stands for. -/
def toReal : Value → Except Misuse Float
  | number n => match n.toReal? with
    | some x => .ok x
    | none => .error .tooLarge
  | bool b => .ok (if b then 1 else 0)
  | text s => match Numeral.loose? s with
    | some x => .ok x
    | none => .error .unreadable
  | null | list _ | object _ => .error .wrongKind

/-- What a loop over the value runs through: items, characters, or field names. -/
def elements : Value → Except Misuse (List Value)
  | list items => .ok items
  | text s => .ok (s.toList.map fun c => text (Text.singleton c))
  | object fields => .ok (fields.map fun f => text f.1)
  | null | bool _ | number _ => .error .wrongKind

/-- The elements of a value that counts as yes; otherwise there are none. -/
def elementsIfTrue (v : Value) : Except Misuse (List Value) :=
  if v.isTrue then v.elements else .ok []

/-- The fields of an object; other values have none to ask for. -/
def toFields : Value → Except Misuse (Fields Value)
  | object fields => .ok fields
  | _ => .error .noFields

/-- The fields of a value that counts as yes; otherwise it stands for an object without fields. -/
def toFieldsIfTrue (v : Value) : Except Misuse (Fields Value) :=
  if v.isTrue then v.toFields else .ok []

/-- The number in a field, or a default when the object has no such field. -/
def realField (fields : Fields Value) (name : Text) (default : Float) : Except Misuse Float :=
  match fields.get? name with
  | some v => v.toReal
  | none => .ok default

end Value
end LiveCanvas
