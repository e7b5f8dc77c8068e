import LiveCanvas.Text.Cut

/-!
# Paths of files

A path is a list of names below the root or below the working directory.  Empty names and `.` stand
for nothing and are left out; `..` stays, because what it leads to depends on the disk.
-/

namespace LiveCanvas

/-- A path: how many slashes stand in front, and the names. -/
structure DiskPath where
  slashes : Nat
  names : List Text
deriving DecidableEq, Repr

namespace DiskPath

/-- Exactly two slashes in front are kept; any other number counts as one. -/
def leadingSlashes (text : List Rune) : Nat :=
  match (text.takeWhile (· == .char '/')).length with
  | 0 => 0
  | 2 => 2
  | _ => 1

/-- The path that a text names. -/
def ofText (s : Text) : DiskPath :=
  { slashes := leadingSlashes s.toList
    names := ((Text.splitAt '/' s.toList).map Text.ofList).filter fun n => n != "" && n != "." }

/-- The text of a path; one without names is the working directory. -/
def text (p : DiskPath) : Text :=
  if p.slashes = 0 && p.names.isEmpty then "."
  else Text.ofList (List.replicate p.slashes '/') ++ Text.intercalate "/" p.names

/-- The path of a name below another one. -/
def below (p : DiskPath) (names : List Text) : DiskPath :=
  { p with names := p.names ++ names }

/-- The names that are left when every `..` takes the name before it away; there are none when one
leads out of the working directory. -/
def lexical? (p : DiskPath) : Option (List Text) :=
  if p.slashes ≠ 0 then none
  else p.names.foldl (fun place (name : Text) =>
    place.bind fun names =>
      if name != ".." then some (names ++ [name])
      else if names.isEmpty then none else some names.dropLast) (some [])

example : (ofText "/abs//p/").text = "/abs/p" ∧ (ofText "a/./b/../c").text = "a/b/../c" ∧
    (ofText "").text = "." ∧ (ofText "///x").text = "/x" := by
  decide +kernel

example : (ofText "a/../b").lexical? = some [.ofString "b"] ∧
    (ofText "a/../..").lexical? = none := by
  decide +kernel

end DiskPath
end LiveCanvas
