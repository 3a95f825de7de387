/-!
# Files

Paths and what they lead to.

A path is a row of names divided by `/`. It is followed name by name, from the root if
it starts with `/` and else from the working directory. An empty name and `.` stay
where they are, `..` goes up, and the root is above itself. Nothing, not even an empty
name, can follow the name of a file.
-/

namespace SmallScheme.CommandLine

/-- Why a file cannot be opened. -/
inductive OpenError where
  /-- The path leads to nothing. -/
  | missing
  /-- The path goes on behind a file. -/
  | notDirectory
  /-- The path leads to a directory. -/
  | isDirectory
  /-- The path, or a name in it, is too long. -/
  | tooLong
  deriving DecidableEq

/-- The number and the words of a message. -/
def OpenError.message : OpenError → String
  | missing => "[Errno 2] No such file or directory"
  | notDirectory => "[Errno 20] Not a directory"
  | isDirectory => "[Errno 21] Is a directory"
  | tooLong => "[Errno 36] File name too long"

/-- The bytes of files, found by their paths. -/
abbrev FileSystem := String → Except OpenError ByteArray

/-- A working directory, given by the names from the root on, and the files in it. -/
structure WorkingDirectory where
  /-- The names from the root to the directory. -/
  place : List String
  /-- The files. -/
  files : List (String × ByteArray)

namespace WorkingDirectory

/-- What stands at a place. -/
inductive Entry where
  /-- A directory. -/
  | directory
  /-- A file. -/
  | file (bytes : ByteArray)

/-- What stands at a place: the working directory, the directories above it, the files in
it, and else nothing. -/
def entry? (w : WorkingDirectory) (place : List String) : Option Entry :=
  if place.isPrefixOf w.place then some .directory
  else if place.dropLast = w.place then (place.getLast?.bind fun name => w.files.lookup name).map .file
  else none

/-- The greatest number of bytes in a name. -/
def nameLimit : Nat := 255

/-- The greatest number of bytes in a path. -/
def pathLimit : Nat := 4095

/-- Follows names from a directory. -/
def follow (w : WorkingDirectory) (place : List String) : List String → Except OpenError ByteArray
  | [] => .error .isDirectory
  | name :: names =>
    if name = "" ∨ name = "." then w.follow place names
    else if name = ".." then w.follow place.dropLast names
    else if nameLimit < name.utf8ByteSize then .error .tooLong
    else
      match w.entry? (place ++ [name]) with
      | none => .error .missing
      | some .directory => w.follow (place ++ [name]) names
      | some (.file bytes) => if names.isEmpty then .ok bytes else .error .notDirectory

/-- The files of a working directory, found by their paths. -/
def fileSystem (w : WorkingDirectory) : FileSystem := fun path =>
  if path = "" then .error .missing
  else if pathLimit < path.utf8ByteSize then .error .tooLong
  else
    let start := if path.toList.head? = some '/' then [] else w.place
    w.follow start (path.splitOn "/")

end WorkingDirectory

end SmallScheme.CommandLine
