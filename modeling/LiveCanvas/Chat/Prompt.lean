import LiveCanvas.Canvas.Path
import LiveCanvas.Text.Cut
import LiveCanvas.Text.Blank

/-!
# What the assistant is told

The texts that are sent to the service, and the code that is read out of its replies.  Files are
called by the paths under which an edit finds them.
-/

namespace LiveCanvas
namespace Prompt

/-- The rules that every chat begins with. -/
def instructions : Text :=
  Text.unlines [
    "You are a coding assistant working on a node-based project canvas.",
    "",
    "Rules:",
    "1. To edit or create a file use updateFile. A path like \"folder/file.ext\" places the file in that folder.",
    "2. To move an existing file use moveFile. Leave targetFolderName empty to move it to the root.",
    "3. To rename a file use renameFile. Never put a folder in the new name.",
    "4. To make a file import another file or package, or to put a file in a folder, use connectFiles.",
    "5. Files wired into a folder node are inside it; keep the entry point (usually index.html) at the root.",
    "6. You may edit any file listed below, not only the one currently selected.",
    ""]

/-- What an automatic repair is told first. -/
def fixInstructions : Text :=
  "You are an automated error fixer. Analyze the error and fix it using updateFile."

/-- The line that lists a node; only folders and files are listed. -/
def listingLine? (nodes : List Node) (connections : List Connection) (n : Node) : Option Text :=
  if n.kind = .folder then some ("[FOLDER] " ++ n.title)
  else if n.isFile then
    some ("- " ++ Path.pathOf n nodes connections ++ " (" ++ n.kind.wire ++ ")")
  else none

/-- The folders and files of a project, one a line. -/
def listing (nodes : List Node) (connections : List Connection) : Text :=
  Text.unlines (nodes.filterMap (listingLine? nodes connections))

/-- The rules and the files of a project. -/
def system (nodes : List Node) (connections : List Connection) : Text :=
  instructions ++ "\nProject files (you have authority over these):\n" ++
    listing nodes connections ++ "\n"

/-- Files with their paths and contents; `label` stands before each path. -/
def contents (label : Text) (files nodes : List Node) (connections : List Connection) : Text :=
  Text.intercalate "\n\n" (files.map fun n =>
    label ++ ": " ++ Path.pathOf n nodes connections ++ "\nContent:\n" ++ n.content)

/-- A chat message with the files it is about. -/
def chat (text : Text) (files nodes : List Node) (connections : List Connection) : Text :=
  "Query: " ++ text ++ "\n\nSelected File Content Context:\n" ++
    contents "File Path" files nodes connections

/-- A request about one file; without a request the file is to be made better. -/
def focus (n : Node) : Option Text → Text
  | none => "Optimize the file " ++ n.title ++ "."
  | some request => "Request: " ++ request ++ "\n\n(Focus on " ++ n.title ++ ")"

/-- An error message with the files that may have caused it. -/
def fix (error : Text) (files nodes : List Node) (connections : List Connection) : Text :=
  "Error Message: " ++ error ++ "\n\nFiles:\n" ++ contents "Filename" files nodes connections ++
    "\n\nFix the error using the updateFile tool."

/-- What opens and closes a block of code. -/
def fence : List Rune := Text.toList "```"

/-- The lines without an opening fence. -/
def dropOpening : List (List Rune) → List (List Rune)
  | [] => []
  | line :: rest => if fence.isPrefixOf line then rest else line :: rest

/-- The lines without a closing fence, which may have blanks around it. -/
def dropClosing (lines : List (List Rune)) : List (List Rune) :=
  match lines.getLast? with
  | some line => if Text.stripWhile Text.isBlank line == fence then lines.dropLast else lines
  | none => lines

/-- The code of a reply: the text without empty lines at its ends and without the fences around
it. -/
def codeOf (reply : Text) : Text :=
  let lines := Text.splitAt '\n' (Text.stripWhile (· == .char '\n') reply.toList)
  Text.ofList ([Rune.char '\n'].intercalate (dropClosing (dropOpening lines)))

example : codeOf "```js\nlet a;\n```\n" = "let a;" ∧ codeOf "a\n\n" = "a" := by decide +kernel

end Prompt
end LiveCanvas
