/-!
# Paths

A path names a file or a folder by the folders on the way to it. Where the way begins, and whether
the names on it lead anywhere, is a matter of the disk.
-/

namespace ManagedLayout.CommandLine

/-- Why a path does not lead to a file that can be used. -/
inductive PathFault where
  | notFound
  /-- The way leads through a file. -/
  | notFolder
  /-- The path leads to a folder. -/
  | isFolder
  | nameTooLong
  deriving DecidableEq, Repr

/-- The text of a fault, with the number that the system gives it. -/
def PathFault.message : PathFault → String
  | notFound => "No such file or directory (os error 2)"
  | notFolder => "Not a directory (os error 20)"
  | isFolder => "Is a directory (os error 21)"
  | nameTooLong => "File name too long (os error 36)"

/-- A path, taken apart at its slashes. -/
structure Path where
  /-- Whether the way begins at the root of the disk. -/
  isAbsolute : Bool
  /-- The names of the folders on the way. -/
  folders : List String
  /-- The name at the end of the way; none if the path consists of slashes. -/
  name? : Option String
  /-- Whether a slash stands behind the name, so that it must be that of a folder. -/
  isSlashed : Bool
  deriving DecidableEq, Repr

namespace Path

/-- The greatest number of bytes that a name may have. -/
def maxNameSize : Nat := 255

/-- The greatest number of bytes that a path may have. -/
def maxSize : Nat := 4095

/-- Takes the text of a path apart. Several slashes count as one. -/
def ofText (text : String) : Except PathFault Path :=
  if text.isEmpty then .error .notFound
  else if maxSize < text.utf8ByteSize then .error .nameTooLong
  else
    let names := ((text.toList.splitOn '/').filter (· ≠ [])).map String.ofList
    .ok {
      isAbsolute := text.toList.head? = some '/'
      folders := names.dropLast
      name? := names.getLast?
      isSlashed := text.toList.getLast? = some '/' }

end Path

end ManagedLayout.CommandLine
