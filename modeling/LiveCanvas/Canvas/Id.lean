import LiveCanvas.Text.Basic

/-!
# Generated ids

Every generated id takes the next number of one counter, whatever it names.
-/

namespace LiveCanvas

/-- The id of a node. -/
abbrev NodeId := Text

/-- Where generated ids come from. -/
structure IdSource where
  next : Nat := 1
deriving DecidableEq, Repr

namespace IdSource

/-- An id from a stem and a number of twelve digits. -/
def name (stem : Text) (number : Nat) : Text :=
  let digits := Nat.toDigits 10 number
  stem ++ "-" ++ Text.ofChars (List.replicate (12 - digits.length) '0' ++ digits)

/-- A new id, and the source for the ids after it. -/
def fresh (ids : IdSource) (stem : Text) : Text × IdSource :=
  (name stem ids.next, ⟨ids.next + 1⟩)

example : (fresh {} "node").1 = "node-000000000001" := by decide +kernel

end IdSource
end LiveCanvas
