import LiveCanvas.Edit.Command

/-!
# Declarations of the edits

What the assistant is told about each edit: its name, what it does, and its arguments.
-/

namespace LiveCanvas
namespace Tool

/-- An argument of an edit. -/
structure Argument where
  name : Text
  description : Text
  isRequired : Bool := true
deriving DecidableEq, Repr

/-- What an edit does. -/
def description : Tool → Text
  | updateFile =>
    "Create or update a file. Supports paths (e.g. \"components/Button.tsx\"); " ++
      "a missing folder is created."
  | deleteFile => "Delete a file node from the project."
  | moveFile =>
    "Move an existing file into a folder or to the root. This rewires its connections."
  | renameFile => "Rename a file node. Do not use paths here."
  | connectFiles =>
    "Wire a file into a folder, or make a code file import another file or package."

/-- The arguments of an edit. -/
def arguments : Tool → List Argument
  | updateFile =>
    [{ name := "filename"
       description :=
         "The name or path of the file (e.g. \"script.js\" or \"lib/utils.js\")." },
     { name := "code", description := "The new full content of the file." }]
  | deleteFile => [{ name := "filename", description := "The name of the file to delete." }]
  | moveFile =>
    [{ name := "filename", description := "The exact name of the file node to move." },
     { name := "targetFolderName"
       description :=
         "The exact name of the destination folder. Leave empty to move to the root."
       isRequired := false }]
  | renameFile =>
    [{ name := "oldName", description := "The current name of the file." },
     { name := "newName", description := "The new name for the file (no paths)." }]
  | connectFiles =>
    [{ name := "sourceFilename", description := "The file or package that is used." },
     { name := "targetFilename", description := "The folder or code file that uses it." }]

/-- An argument as an object: every argument is a text. -/
def Argument.toValue (a : Argument) : Value :=
  .object [("type", .text "string"), ("description", .text a.description)]

/-- An edit as an object that says how it is called. -/
def declaration (tool : Tool) : Value :=
  let arguments := tool.arguments
  .object [("type", .text "function"), ("function", .object [
    ("name", .text tool.name), ("description", .text tool.description),
    ("parameters", .object [("type", .text "object"),
      ("properties", .object (arguments.map fun a => (a.name, a.toValue))),
      ("required", .texts ((arguments.filter (·.isRequired)).map (·.name)))])])]

/-- Every edit as an object. -/
def declarations : List Value := all.map declaration

end Tool
end LiveCanvas
