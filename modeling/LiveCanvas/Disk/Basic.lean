import LiveCanvas.Disk.Path
import LiveCanvas.Fields
import LiveCanvas.Text.Quoted

/-!
# Files to read and write

What a run sees of the disk: the text of a file or why there is none, and whether a file can be
written.  The files of one directory, given by their paths, make such a disk.
-/

namespace LiveCanvas

/-- Why a file cannot be opened. -/
inductive DiskFault
  | missing
  | parentIsFile
  | isDirectory
deriving DecidableEq, Repr

namespace DiskFault

/-- The number and the name of a fault. -/
def description : DiskFault → Text
  | missing => "[Errno 2] No such file or directory"
  | parentIsFile => "[Errno 20] Not a directory"
  | isDirectory => "[Errno 21] Is a directory"

/-- What a reader sees when the file at a path cannot be opened. -/
def message (fault : DiskFault) (path : DiskPath) : Text :=
  fault.description ++ ": " ++ Text.quoted path.text

end DiskFault

/-- A disk as a run sees it. -/
structure Disk where
  /-- The text of a file. -/
  read : DiskPath → Except DiskFault Text
  /-- Why a file cannot be written. -/
  writeFault? : DiskPath → Option DiskFault

namespace Disk

/-- What stands at a place below the working directory. -/
inductive Entry
  | file (text : Text)
  | directory
  | nothing
deriving DecidableEq, Repr

/-- The entry at a place, when the working directory holds only these files. -/
def entryAt (files : List (List Text × Text)) (place : List Text) : Entry :=
  match files.find? fun f => f.1 == place with
  | some f => .file f.2
  | none =>
    if place.isEmpty || files.any (fun f => place.isPrefixOf f.1) then .directory else .nothing

/-- The place that a walk along these names ends at.  Every name but the last has to be that of a
directory, and the walk may not leave the working directory. -/
def walk (files : List (List Text × Text)) (place : List Text) :
    List Text → Except DiskFault (List Text)
  | [] => .ok place
  | name :: rest =>
    match entryAt files place with
    | .file _ => .error .parentIsFile
    | .nothing => .error .missing
    | .directory =>
      -- what lies above the working directory is not known
      if name != ".." then walk files (place ++ [name]) rest
      else if place.isEmpty then .error .missing else walk files place.dropLast rest

/-- What stands at a path. -/
def entry (files : List (List Text × Text)) (p : DiskPath) : Except DiskFault Entry :=
  if p.slashes ≠ 0 then .error .missing
  else (walk files [] p.names).map (entryAt files)

/-- The disk whose working directory holds these files and nothing else. -/
def ofFiles (files : Fields Text) : Disk :=
  let places := files.map fun (path, text) => ((DiskPath.ofText path).names, text)
  { read := fun p =>
      match entry places p with
      | .error e => .error e
      | .ok (.file text) => .ok text
      | .ok .directory => .error .isDirectory
      | .ok .nothing => .error .missing
    writeFault? := fun p =>
      match entry places p with
      | .error e => some e
      | .ok .directory => some .isDirectory
      | .ok _ => none }

example : DiskFault.message .missing (DiskPath.ofText "./none.json") =
    "[Errno 2] No such file or directory: 'none.json'" := by
  decide +kernel

end Disk
end LiveCanvas
