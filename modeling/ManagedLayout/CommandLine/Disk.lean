import ManagedLayout.CommandLine.Path
import ManagedLayout.CommandLine.Run

/-!
# Runs on a disk that is a value

A disk holds files in folders. It can host runs, which take place in one of its folders: what they
print is collected, and what they write is kept on the disk.
-/

namespace ManagedLayout.CommandLine

/-- A place on a disk: its name, and the names of the folders that it is in, innermost first. The
root is the place without a name. -/
abbrev Place : Type := List String

/-- Folders and files. Every folder other than the root is in a folder. -/
structure Disk where
  folders : List Place
  files : List (Place × List UInt8)
  deriving DecidableEq, Repr

namespace Disk

/-- The file that is empty whatever is written to it. -/
def nullDevice : Place := ["null", "dev"]

/-- The folder that runs take place in. -/
def workingFolder : Place := ["run", "tmp"]

/-- The disk with the given files in the working folder. -/
def ofFiles (files : List (String × List UInt8)) : Disk where
  folders := [workingFolder, ["tmp"], ["dev"]]
  files := (nullDevice, []) :: files.map fun (name, contents) ↦ (name :: workingFolder, contents)

def isFolder (disk : Disk) (place : Place) : Bool := place == [] || disk.folders.contains place

/-- The contents of the file at a place. -/
def contents? (disk : Disk) (place : Place) : Option (List UInt8) := disk.files.lookup place

/-- Replaces the contents of the file at a place, or makes a file there. -/
def insert (disk : Disk) (place : Place) (contents : List UInt8) : Disk :=
  if place = nullDevice then disk
  else if (disk.contents? place).isSome then
    { disk with
      files := disk.files.map fun file ↦ if file.1 == place then (place, contents) else file }
  else { disk with files := disk.files ++ [(place, contents)] }

/-- The files of the working folder that another disk lacks, or has with other contents. -/
def changesSince (disk earlier : Disk) : List (String × List UInt8) :=
  disk.files.filterMap fun (place, contents) ↦
    match place with
    | name :: folder =>
      if folder = workingFolder ∧ earlier.contents? place ≠ some contents then
        some (name, contents)
      else none
    | [] => none

/-- The place that a name leads to from a folder. One point stands for the folder itself, two for
the folder that it is in. -/
def follow (folder : Place) (name : String) : Except PathFault Place :=
  if name = "." then .ok folder
  else if name = ".." then .ok folder.tail
  else if Path.maxNameSize < name.utf8ByteSize then .error .nameTooLong
  else .ok (name :: folder)

/-- Goes from a folder into another one. -/
def enter (disk : Disk) (folder : Place) (name : String) : Except PathFault Place := do
  let place ← follow folder name
  if disk.isFolder place then return place
  else throw (if (disk.contents? place).isSome then .notFolder else .notFound)

/-- The folder at the end of which way the name of a path stands. -/
def folderOf (disk : Disk) (path : Path) : Except PathFault Place :=
  path.folders.foldlM disk.enter (if path.isAbsolute then [] else workingFolder)

/-- Reads what a path leads to. A folder can be opened, but has no bytes. -/
def read (disk : Disk) (text : String) : Except PathFault (List UInt8) := do
  let path ← Path.ofText text
  let folder ← disk.folderOf path
  match path.name? with
  | none => return []
  | some name =>
    let place ← follow folder name
    if disk.isFolder place then return []
    match disk.contents? place with
    | some contents => if path.isSlashed then throw .notFolder else return contents
    | none => throw .notFound

/-- Writes the file that a path leads to. -/
def write (disk : Disk) (text : String) (contents : List UInt8) : Except PathFault Disk := do
  let path ← Path.ofText text
  let folder ← disk.folderOf path
  match path.name? with
  | none => throw .isFolder
  | some name =>
    if path.isSlashed then throw .isFolder
    let place ← follow folder name
    if disk.isFolder place then throw .isFolder
    return disk.insert place contents

end Disk

/-- A disk on which runs take place, and what they have printed. -/
structure Workspace where
  disk : Disk
  printed : String

/-- The host whose files are those of a disk. -/
def Workspace.host : Host (StateM Workspace) where
  fileExists path := return ((← get).disk.read path).isOk
  read path := return ((← get).disk.read path).mapError PathFault.message
  write path contents := do
    match (← get).disk.write path contents with
    | .ok disk =>
      modify fun workspace ↦ { workspace with disk }
      return .ok ()
    | .error fault => return .error fault.message
  print text := modify fun workspace ↦ { workspace with printed := workspace.printed ++ text }
  report _ := pure ()

/-- A run on a disk: how it ends, what it prints, and the disk after it. -/
def Disk.run (disk : Disk) (arguments : List String) : Outcome × String × Disk :=
  let (outcome, workspace) := CommandLine.run Workspace.host arguments ⟨disk, ""⟩
  (outcome, workspace.printed, workspace.disk)

/-- Several runs, one after the other, on one disk. -/
def Disk.runAll (disk : Disk) : List (List String) → List (Outcome × String) × Disk
  | [] => ([], disk)
  | arguments :: rest =>
    let (outcome, printed, after) := disk.run arguments
    let (others, final) := after.runAll rest
    ((outcome, printed) :: others, final)

end ManagedLayout.CommandLine
