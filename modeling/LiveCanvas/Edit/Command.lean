import LiveCanvas.Payload.Checked
import LiveCanvas.Value.Shown

/-!
# Edit commands

A tool call asks for one of five edits.  Calls come loosely typed from outside; here each becomes a
command, or an error that says what is wrong with it.
-/

namespace LiveCanvas

/-- An edit of the project. -/
inductive Command
  /-- Writes a file, in a folder if the path names one. -/
  | updateFile (path content : Text)
  | deleteFile (title : Text)
  /-- Moves a file into a folder, or out of every folder. -/
  | moveFile (title : Text) (folder : Option Text)
  | renameFile (oldTitle newTitle : Text)
  /-- Puts a file into a folder, or lets a code file import something. -/
  | connectFiles (sourceTitle targetTitle : Text)
deriving DecidableEq, Repr

/-- Why a call is no command. -/
structure CommandError where
  /-- The tool that was called, as far as that is known. -/
  tool : Text
  reason : Text
deriving DecidableEq, Repr

/-- What a reader sees. -/
def CommandError.message (e : CommandError) : Text :=
  e.tool ++ ": " ++ e.reason

/-- The edits by name. -/
inductive Tool
  | updateFile
  | deleteFile
  | moveFile
  | renameFile
  | connectFiles
deriving DecidableEq, Repr

namespace Tool

/-- The name under which an edit is called. -/
def name : Tool → Text
  | updateFile => "updateFile"
  | deleteFile => "deleteFile"
  | moveFile => "moveFile"
  | renameFile => "renameFile"
  | connectFiles => "connectFiles"

/-- Every edit, in the order in which they are offered. -/
def all : List Tool := [updateFile, deleteFile, moveFile, renameFile, connectFiles]

/-- The edit with a name. -/
def ofName? (name : Text) : Option Tool :=
  all.find? fun tool => tool.name == name

@[simp] theorem ofName?_name (tool : Tool) : ofName? tool.name = some tool := by
  cases tool <;> decide

end Tool

namespace Command

/-- The edit that a command asks for. -/
def tool : Command → Tool
  | updateFile .. => .updateFile
  | deleteFile .. => .deleteFile
  | moveFile .. => .moveFile
  | renameFile .. => .renameFile
  | connectFiles .. => .connectFiles

/-- The command of an edit from its arguments. -/
def ofArguments (tool : Tool) (arguments : Fields Value) : Checked Command :=
  match tool with
  | .updateFile =>
    updateFile <$> Checked.required ["filename", "path"] Checked.filledText arguments
      <*> Checked.required ["code", "content"] Checked.text arguments
  | .deleteFile =>
    deleteFile <$> Checked.required ["filename", "title"] Checked.filledText arguments
  | .moveFile =>
    moveFile <$> Checked.required ["filename", "title"] Checked.filledText arguments
      <*> Checked.optional ["targetFolderName", "target_folder"] none
        (Checked.nullable Checked.text) arguments
  | .renameFile =>
    renameFile <$> Checked.required ["oldName", "old_title"] Checked.filledText arguments
      <*> Checked.required ["newName", "new_title"] Checked.filledText arguments
  | .connectFiles =>
    connectFiles <$>
      Checked.required ["sourceFilename", "source_title"] Checked.filledText arguments
      <*> Checked.required ["targetFilename", "target_title"] Checked.filledText arguments

/-- The arguments with a folder name that says nothing left out. -/
def dropBlankFolder (arguments : Fields Value) : Fields Value :=
  if (Value.field arguments "targetFolderName").isTrue then arguments
  else arguments.erase "targetFolderName"

/-- The arguments as an edit reads them. -/
def preparedArguments (tool : Tool) (arguments : Fields Value) : Fields Value :=
  match tool with
  | .moveFile => dropBlankFolder arguments
  | _ => arguments

/-- The arguments of a call: its `args`, or else its `arguments`. -/
def argumentsOf (call : Fields Value) : Value :=
  match (Value.field call "args").present? with
  | some v => v
  | none => (call.get? "arguments").getD (.object [])

/-- The edit that a value names. -/
def toolOf? : Value → Option Tool
  | .text name => Tool.ofName? name
  | _ => none

/-- What is said of arguments that do not fit. -/
def invalidReason (places : List (List Text)) : Text :=
  "invalid arguments (" ++ Text.intercalate ", " (places.map Checked.placeText) ++ ")"

/-- The command that a call asks for. -/
def ofCall (call : Value) : Except CommandError Command :=
  match call with
  | .object fields =>
    let name := Value.field fields "name"
    match toolOf? name with
    | none => .error ⟨name.asText, "unknown tool"⟩
    | some tool =>
      match argumentsOf fields with
      | .object arguments =>
        match ofArguments tool (preparedArguments tool arguments) with
        | .fits command => .ok command
        | .faulty places => .error ⟨tool.name, invalidReason places⟩
      | _ => .error ⟨tool.name, "arguments must be an object"⟩
  | _ => .error ⟨"<unknown>", "tool call must be an object"⟩

end Command
end LiveCanvas
