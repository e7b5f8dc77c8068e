import LiveCanvas.Canvas.Id
import LiveCanvas.Edit.Command
import LiveCanvas.Text.Cut

/-!
# What a batch reports

One line for each effect and each refusal of a batch of edits.
-/

namespace LiveCanvas

/-- Why an edit is not made. -/
inductive Refusal
  | invalid (error : CommandError)
  | notFound (title : Text)
  | notFoundToMove (title : Text)
  | locked (title : Text)
  | notPlaceable (title : Text)
  | notImportable (source target : Text)
  | notConnectable (source target : Text)
deriving DecidableEq, Repr

/-- What a reader sees. -/
def Refusal.message : Refusal → Text
  | invalid error => error.message
  | notFound title => "Could not find " ++ title
  | notFoundToMove title => "Could not find " ++ title ++ " to move"
  | locked title => title ++ " is locked"
  | notPlaceable title => title ++ " cannot be placed in a folder"
  | notImportable source target => target ++ " cannot import " ++ source
  | notConnectable source target => "Cannot connect " ++ source ++ " to " ++ target

/-- One line of a report. -/
inductive Annotation
  | refused (refusal : Refusal)
  | updated (title : Text)
  | created (title : Text)
  | createdFolder (title : Text)
  | wired (title folder : Text)
  | moved (title : Text) (folder : Option Text)
  | renamed (oldTitle newTitle : Text)
  | deleted (title : Text)
  | connected (source target : Text)
  | alreadyConnected (source target : Text)
deriving DecidableEq, Repr

namespace Annotation

/-- The line without its brackets. -/
def body : Annotation → Text
  | refused refusal => "Error: " ++ refusal.message
  | updated title => "Updated " ++ title
  | created title => "Created " ++ title
  | createdFolder title => "Created folder " ++ title
  | wired title folder => "Wired " ++ title ++ " to " ++ folder
  | moved title folder => "Moved " ++ title ++ " to " ++ folder.getD "root"
  | renamed oldTitle newTitle => "Renamed " ++ oldTitle ++ " to " ++ newTitle
  | deleted title => "Deleted " ++ title
  | connected source target => "Connected " ++ source ++ " -> " ++ target
  | alreadyConnected source target => source ++ " is already connected to " ++ target

/-- The line as a reader sees it. -/
def text (a : Annotation) : Text :=
  "[" ++ a.body ++ "]"

/-- A line that reads as an error. -/
def readsAsError (line : Text) : Bool :=
  (Text.toList "[Error").isPrefixOf line.toList

end Annotation

/-- What a batch did. -/
structure BatchReport where
  annotations : List Annotation := []
  /-- The nodes that were changed, each once. -/
  touched : List NodeId := []
  /-- The nodes in the order in which changes of them were shown. -/
  highlighted : List NodeId := []
deriving DecidableEq, Repr

namespace BatchReport

/-- The lines of the report. -/
def lines (r : BatchReport) : List Text :=
  r.annotations.map Annotation.text

/-- The report as one text. -/
def transcript (r : BatchReport) : Text :=
  Text.unlines r.lines

/-- The lines that read as errors. -/
def errors (r : BatchReport) : List Text :=
  r.lines.filter Annotation.readsAsError

/-- Adds a line. -/
def note (r : BatchReport) (a : Annotation) : BatchReport :=
  { r with annotations := r.annotations ++ [a] }

/-- Adds a line about a node that was changed. -/
def noteChange (r : BatchReport) (a : Annotation) (id : NodeId) : BatchReport :=
  { annotations := r.annotations ++ [a]
    touched := if r.touched.contains id then r.touched else r.touched ++ [id]
    highlighted := r.highlighted ++ [id] }

end BatchReport
end LiveCanvas
