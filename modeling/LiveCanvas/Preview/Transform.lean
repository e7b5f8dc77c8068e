import LiveCanvas.Text.Basic

/-!
# Transforms of scripts

A transform turns the source of a script into what a page can run, or tells why it cannot.  A
failure concerns one script only.
-/

namespace LiveCanvas

/-- Why a script has no transformed code. -/
inductive TransformFailure
  /-- The source cannot be transformed. -/
  | refused (reason : Text)
  /-- The transform itself broke, with an error of this kind and text. -/
  | broken (kind reason : Text)
deriving DecidableEq, Repr

/-- What a reader sees of a failure. -/
def TransformFailure.reason : TransformFailure → Text
  | refused reason => reason
  | broken kind reason => kind ++ ": " ++ reason

/-- What a reader sees when the file with this name has no transformed code. -/
def TransformFailure.message (failure : TransformFailure) (file : Text) : Text :=
  "Failed to compile " ++ file ++ ": " ++ failure.reason

/-- A source and the name of its file to the code that a page runs. -/
abbrev Transform := (source file : Text) → Except TransformFailure Text

/-- Leaves every source as it is. -/
def Transform.unchanged : Transform := fun source _ => .ok source

/-- The transforms that settings can name. -/
inductive TransformChoice
  /-- Sources are plain scripts. -/
  | unchanged
  /-- Sources are compiled outside this library with these presets. -/
  | presets (names : List Text)
deriving DecidableEq, Repr

/-- Only the name `none` leaves sources as they are. -/
def TransformChoice.ofName (name : Text) (presets : List Text) : TransformChoice :=
  if name = "none" then .unchanged else .presets presets

end LiveCanvas
