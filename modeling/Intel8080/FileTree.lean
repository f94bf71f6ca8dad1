/-!
# Files

A tree of files as a value, together with the place where relative paths start.
A path is followed name by name, from the root if a slash begins it. An empty
name and a dot stay where they are and two dots go up, so that a slash at the
end asks for a directory. The first step that cannot be made decides why the
file is not read.
-/

namespace Intel8080

/-- Why a file could not be read. -/
inductive ReadError where
  /-- The path leads nowhere. -/
  | missing
  | permissionDenied
  /-- The path goes on behind a file. -/
  | notDirectory
  /-- The path leads to a directory. -/
  | isDirectory
  /-- The path or a name in it is too long. -/
  | nameTooLong
  /-- Another reason, in the words of the system. -/
  | other (reason : String)
  deriving DecidableEq, Repr

/-- The wording of a read error, with the number by which the operating system
knows it. -/
def ReadError.message : ReadError → String
  | missing => "No such file or directory (os error 2)"
  | permissionDenied => "Permission denied (os error 13)"
  | notDirectory => "Not a directory (os error 20)"
  | isDirectory => "Is a directory (os error 21)"
  | nameTooLong => "File name too long (os error 36)"
  | other reason => reason

/-- Files, each under the names that lead to it from the root. There are the
directories that files or the starting place need, and no others. -/
structure FileTree where
  /-- The directory where relative paths start. -/
  start : List String := []
  /-- The files, the last written first. -/
  files : List (List String × List UInt8) := []

namespace FileTree

/-- The greatest number of bytes in a name. -/
def longestName : Nat := 255

/-- The greatest number of bytes in a path. -/
def longestPath : Nat := 4095

/-- The names in a path. -/
def names (path : String) : List String :=
  path.splitOn "/"

/-- The directory in which a path starts. -/
def origin (tree : FileTree) (path : String) : List String :=
  if path.startsWith "/" then [] else tree.start

/-- Whether a directory stands at a place: the starting place and all above it are
directories, and so is all that has a file below it. -/
def isDirectory (tree : FileTree) (place : List String) : Bool :=
  place.isPrefixOf tree.start ||
    tree.files.any fun (file, _) => place.isPrefixOf file && place.length < file.length

/-- Follows one name from a place. -/
def enter (tree : FileTree) (place : List String) (name : String) :
    Except ReadError (List String) :=
  if !tree.isDirectory place then .error .notDirectory
  else if name = "" ∨ name = "." then .ok place
  else if name = ".." then .ok place.dropLast
  else if longestName < name.utf8ByteSize then .error .nameTooLong
  else
    let inside := place ++ [name]
    if tree.isDirectory inside || (tree.files.lookup inside).isSome then .ok inside
    else .error .missing

/-- Follows a path to the place where it leads. -/
def resolve (tree : FileTree) (path : String) : Except ReadError (List String) :=
  if path.isEmpty then .error .missing
  else if longestPath < path.utf8ByteSize then .error .nameTooLong
  else (names path).foldlM tree.enter (tree.origin path)

/-- Reads the file to which a path leads. -/
def read (tree : FileTree) (path : String) : Except ReadError (List UInt8) := do
  let place ← tree.resolve path
  match tree.files.lookup place with
  | some content => .ok content
  | none => .error .isDirectory

/-- Writes a file under a path without dots that go up, and makes the directories
that it needs. -/
def write (tree : FileTree) (path : String) (content : List UInt8) : FileTree :=
  let place := tree.origin path ++ (names path).filter fun name => name ≠ "" ∧ name ≠ "."
  { tree with files := (place, content) :: tree.files }

end FileTree

end Intel8080
