import LiveCanvas.Value.Basic

/-!
# Layers of settings

Settings come in layers, and a later layer wins field by field.  Objects are merged, lists and other
values are replaced, and a null leaves the layers below alone.
-/

namespace LiveCanvas
namespace Settings

mutual

/-- Lays one value over a field. -/
def layField (base : Fields Value) (name : Text) : Value → Fields Value
  | .null => base
  | .object fields =>
    match base.get? name with
    | some (.object current) => base.set name (.object (layFields current fields))
    | _ => base.set name (.object fields)
  | v => base.set name v

/-- Lays fields over fields, one after the other. -/
def layFields (base : Fields Value) : List (Text × Value) → Fields Value
  | [] => base
  | (name, v) :: rest => layFields (layField base name v) rest

end

/-- Lays a layer over others; one that holds nothing is passed over. -/
def lay (base : Fields Value) (layer : Value) : Except Misuse (Fields Value) := do
  let fields ← layer.toFieldsIfTrue
  return layFields base fields

/-- All layers, the first one at the bottom. -/
def mergeLayers (layers : List Value) : Except Misuse (Fields Value) :=
  layers.foldlM lay []

theorem layField_null (base : Fields Value) (name : Text) :
    layField base name .null = base := by
  simp [layField]

theorem layFields_nil (base : Fields Value) : layFields base [] = base := by
  simp [layFields]

end Settings
end LiveCanvas
