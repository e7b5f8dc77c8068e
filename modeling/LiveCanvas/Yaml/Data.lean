import LiveCanvas.Yaml.Atom
import LiveCanvas.Yaml.Node

/-!
# The value of a document

Nodes become values by their kinds.  The entries that a merge key brings in stand before the entries
of the object itself, so that the latter win.  Of several faults the one in the outermost list or
object counts, and among those the first.
-/

namespace LiveCanvas
namespace Yaml

/-- A fault, and how many lists and objects it lies in. -/
structure Defect where
  depth : Nat
  fault : Fault
deriving DecidableEq, Repr

/-- What is found in a node. -/
abbrev Found (α : Type) := Except Defect α

namespace Found

/-- A fault right here. -/
def fail {α : Type} (fault : Fault) : Found α :=
  .error ⟨0, fault⟩

/-- What is found one list or object deeper. -/
def inside {α : Type} (a : Found α) : Found α :=
  a.mapError fun d => ⟨d.depth + 1, d.fault⟩

/-- Both of two things; of two faults the outer one, or else the first. -/
def both {α β : Type} (a : Found α) (b : Found β) : Found (α × β) :=
  match a, b with
  | .ok a, .ok b => .ok (a, b)
  | .error d, .ok _ => .error d
  | .ok _, .error e => .error e
  | .error d, .error e => .error (if e.depth < d.depth then e else d)

/-- All things of a list. -/
def all {α : Type} : List (Found α) → Found (List α)
  | [] => .ok []
  | a :: rest => (both a (all rest)).map fun (a, rest) => a :: rest

end Found

namespace Node

/-- How deep a node is; more than the depth of all its parts. -/
def depth : Node → Nat
  | scalar _ _ | inner => 1
  | sequence _ items => depthOfItems items + 1
  | mapping _ entries => depthOfEntries entries + 1
where
  /-- The depth of the deepest item. -/
  depthOfItems : List Node → Nat
    | [] => 0
    | n :: rest => max n.depth (depthOfItems rest)
  /-- The depth of the deepest key or value. -/
  depthOfEntries : List (Node × Node) → Nat
    | [] => 0
    | (k, v) :: rest => max (max k.depth v.depth) (depthOfEntries rest)

/-- The kind of a node. -/
def tag? : Node → Option Tag
  | scalar t _ | sequence t _ | mapping t _ => some t
  | inner => none

/-- The entries of an object, merged ones first.  What is merged is an object, or a list of objects
of which the first one wins. -/
def mergedEntries (entries : List (Node × Node)) : Nat → Option (List (Node × Node))
  | 0 => none
  | fuel + 1 => do
    let merged ← (entries.filter fun e => e.1.tag? == some .merge).mapM fun e =>
      match e.2 with
      | mapping _ more => mergedEntries more fuel
      | sequence _ items => do
        let parts ← items.mapM fun
          | mapping _ more => mergedEntries more fuel
          | inner => some []
          | _ => none
        return parts.reverse.flatten
      | inner => some []
      | scalar _ _ => none
    -- later entries win, so the object's own stand last
    return merged.flatten ++ entries.filter fun e => e.1.tag? != some .merge

/-- The text of a scalar, or of the entry that stands for an object as a whole. -/
def ownText? (n : Node) : Nat → Option Text
  | 0 => none
  | fuel + 1 =>
    match n with
    | scalar _ text => some text
    | mapping _ entries =>
      match entries.find? fun e => e.1.tag? == some .value with
      | some (_, v) => v.ownText? fuel
      | none => none
    | _ => none

/-- The key of an entry is a scalar.  The key that stands for the object as a whole is a text. -/
def key (k : Node) : Found Atom :=
  match k with
  | scalar tag text =>
    match Atom.ofText (if tag = .value then .str else tag) text with
    | .ok a => .ok a
    | .error e => .fail e
  | _ => .fail .malformed

end Node

/-- Sets a key in a list of keys and values; a key of the same size keeps its form and place. -/
def setKey (entries : List (Atom × Value)) (k : Atom) (v : Value) : List (Atom × Value) :=
  match entries with
  | [] => [(k, v)]
  | (a, w) :: rest => if a.sameKey k then (a, v) :: rest else (a, w) :: setKey rest k v

/-- The fields of an object, each key by its name. -/
def fieldsOf (entries : List (Atom × Value)) : Fields Value :=
  let distinct := entries.foldl (fun read e => setKey read e.1 e.2) []
  Fields.ofList (distinct.map fun e => (e.1.name, e.2))

mutual

/-- The value of a node. -/
def valueOf (n : Node) : Nat → Found Value
  | 0 => .fail .malformed
  | fuel + 1 =>
    match n with
    | .inner => .ok .null
    | .sequence .seq items =>
      Found.inside ((Found.all (items.map fun item => valueOf item fuel)).map Value.list)
    | .sequence .omap items | .sequence .pairs items =>
      Found.inside ((Found.all (items.map fun item => pairOf item fuel)).map Value.list)
    | .mapping .map entries =>
      Found.inside ((entriesOf entries fuel).map fun read => Value.object (fieldsOf read))
    | .mapping .set entries =>
      Found.inside ((entriesOf entries fuel).map fun read =>
        Value.list ((fieldsOf read).map fun f => Value.text f.1))
    | .sequence .map _ | .sequence .set _ | .mapping .seq _ | .mapping .omap _ | .mapping .pairs _
    | .scalar .seq _ | .scalar .map _ | .scalar .omap _ | .scalar .pairs _ | .scalar .set _ =>
      Found.inside (.fail .malformed)
    | n =>
      match n.ownText? n.depth with
      | none => .fail .malformed
      | some text =>
        match Atom.ofText (n.tag?.getD .unknown) text with
        | .ok a => .ok a.toValue
        | .error e => .fail e

/-- The one entry of an item as a pair. -/
def pairOf (n : Node) : Nat → Found Value
  | 0 => .fail .malformed
  | fuel + 1 =>
    match n with
    | .mapping _ [(k, v)] =>
      (Found.both (valueOf k fuel) (valueOf v fuel)).map fun (k, v) => Value.list [k, v]
    | _ => .fail .malformed

/-- The keys and values of an object in order. -/
def entriesOf (entries : List (Node × Node)) : Nat → Found (List (Atom × Value))
  | 0 => .fail .malformed
  | fuel + 1 =>
    match Node.mergedEntries entries (Node.depth.depthOfEntries entries + 1) with
    | none => .fail .malformed
    | some all => Found.all (all.map fun e => Found.both e.1.key (valueOf e.2 fuel))

end

/-- The value of a node, or why it has none. -/
def Node.value (n : Node) : Except Fault Value :=
  (valueOf n (3 * n.depth + 1)).mapError Defect.fault

/-- The value of a text; a text without a document is null. -/
def read (s : Text) : Except Fault Value := do
  match ← Node.ofText? s with
  | none => return .null
  | some n => n.value

/-- The fields of a file of settings.  A text that is not YAML, or not an object, holds none; a
number, date or character that cannot be read is an error. -/
def readFields (s : Text) : Except Fault (Fields Value) :=
  match read s with
  | .ok (.object fields) => .ok fields
  | .ok _ | .error .malformed => .ok []
  | .error e => .error e

end Yaml
end LiveCanvas
