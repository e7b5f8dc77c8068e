import LiveCanvas.Value.Basic

/-!
# Payloads with a known shape

A payload either fits its shape or does not, and then every place that does not fit is told, in the
order in which the shape lists its fields.  Fields that the shape does not know are ignored.
-/

namespace LiveCanvas

/-- What a payload holds, or every place where it does not fit. -/
inductive Checked (α : Type)
  | fits (value : α)
  /-- Each place is the way to it from the outside in. -/
  | faulty (places : List (List Text))
deriving DecidableEq, Repr

namespace Checked

variable {α β : Type}

/-- Two readings side by side; the faults of both are told. -/
def both (f : Checked (α → β)) (x : Checked α) : Checked β :=
  match f, x with
  | fits f, fits x => fits (f x)
  | fits _, faulty places => faulty places
  | faulty places, fits _ => faulty places
  | faulty first, faulty second => faulty (first ++ second)

instance : Applicative Checked where
  pure := fits
  seq f x := both f (x ())

/-- The reading of something that lies at a place. -/
def inside (place : Text) : Checked α → Checked α
  | fits x => fits x
  | faulty places => faulty (places.map (place :: ·))

/-- The faults of a reading. -/
def faults : Checked α → List (List Text)
  | fits _ => []
  | faulty places => places

/-- What was read, if all fits. -/
def toOption : Checked α → Option α
  | fits x => some x
  | faulty _ => none

/-- A place as one text. -/
def placeText (place : List Text) : Text :=
  Text.intercalate "." place

/-- The value as a whole does not fit. -/
def misfit : Checked α := faulty [[]]

/-- What an option holds. -/
def ofOption : Option α → Checked α
  | some x => fits x
  | none => misfit

/-- A text. -/
def text : Value → Checked Text
  | .text s => fits s
  | _ => misfit

/-- A text that is not empty. -/
def filledText : Value → Checked Text
  | .text s => if s = "" then misfit else fits s
  | _ => misfit

/-- A number, a truth value, or a text that reads as a number. -/
def real : Value → Checked Float
  | .number n => ofOption n.toReal?
  | .bool b => fits (if b then 1 else 0)
  | .text s => ofOption (Numeral.field? s)
  | _ => misfit

/-- One of the texts that stand for something. -/
def choice (meaning : Text → Option α) : Value → Checked α
  | .text s => ofOption (meaning s)
  | _ => misfit

/-- Null, or what fits. -/
def nullable (check : Value → Checked α) : Value → Checked (Option α)
  | .null => fits none
  | v => some <$> check v

/-- An object. -/
def object : Value → Checked (Fields Value)
  | .object fields => fits fields
  | _ => misfit

/-- The items of a list from a position on. -/
def itemsFrom (check : Value → Checked α) : Nat → List Value → Checked (List α)
  | _, [] => fits []
  | i, v :: rest =>
    List.cons <$> inside (Text.ofChars (Nat.toDigits 10 i)) (check v)
      <*> itemsFrom check (i + 1) rest

/-- A list of what fits. -/
def list (check : Value → Checked α) : Value → Checked (List α)
  | .list items => itemsFrom check 0 items
  | _ => misfit

/-- The first of several names of a field that the object has, with its value. -/
def given? (fields : Fields Value) (names : List Text) : Option (Text × Value) :=
  names.findSome? fun name => (fields.get? name).map (name, ·)

/-- A field that must be there; a missing one is told by its first name. -/
def required (names : List Text) (check : Value → Checked α) (fields : Fields Value) :
    Checked α :=
  match given? fields names with
  | some (name, v) => inside name (check v)
  | none => inside (names.headD "") misfit

/-- A field that may be missing. -/
def optional (names : List Text) (default : α) (check : Value → Checked α)
    (fields : Fields Value) : Checked α :=
  match given? fields names with
  | some (name, v) => inside name (check v)
  | none => fits default

end Checked
end LiveCanvas
