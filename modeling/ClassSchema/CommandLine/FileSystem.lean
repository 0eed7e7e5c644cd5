/-
Files, as far as the commands need them.

* `FileSystem` — reading a file, telling a directory, and writing a file;
* `Disk` — files in memory, and `FileSystem` for programs whose state is a disk.

A path that begins with a slash is read from the root, and any other from the directory where the
program runs.  Every part but the last has to be a directory.  The part `..` leads to the directory
around, which for the root is the root itself.  There are no links.  No part may have more than 255
octets, and the path no more than 4095.
-/
import ClassSchema.Entries
import ClassSchema.Source

namespace ClassSchema

/-- What a program can do with files. -/
class FileSystem (m : Type → Type) where
  /-- The content of a file, if it can be read. -/
  read? : String → m (Option ByteArray)
  isDirectory : String → m Bool
  /-- Writes a file; false if it cannot be written. -/
  write : String → String → m Bool

/-- Files in memory, for a program that runs in the directory `here`.  A place is named by the parts
of the way to it from the root. -/
structure Disk (here : List String := []) where
  directories : List (List String)
  files : List (List String × ByteArray)

namespace Disk

variable {here : List String}

/-- Is the place a directory?  Where the program runs always is one, and so is all around it. -/
def hasDirectory (disk : Disk here) (place : List String) : Bool :=
  place.isPrefixOf here || disk.directories.contains place

/-- The place that parts lead to from a directory. -/
def walk? (disk : Disk here) (start : List String) : List String → Option (List String)
  | [] => some start
  | part :: rest =>
    if !disk.hasDirectory start then none
    else disk.walk? (if part = ".." then start.dropLast else start ++ [part]) rest

/-- Does a path by its form lead to a directory? -/
def endsInDirectory (path : String) : Bool :=
  match (path.toList.splitOn '/').getLast? with
  | some last => last.isEmpty || last = ['.'] || last = ['.', '.']
  | none => false

/-- Does a path begin at the root? -/
def isAbsolute (path : String) : Bool := path.toList.head? = some '/'

/-- The directory where a path begins. -/
def origin (here : List String) (path : String) : List String :=
  if isAbsolute path then [] else here

/-- How many octets a part of a path may have. -/
def maxNameLength : Nat := 255

/-- How many octets a path may have. -/
def maxPathLength : Nat := 4095

/-- The place that a path leads to, from the root or from where the program runs. -/
def place? (disk : Disk here) (path : String) : Option (List String) := do
  if path.isEmpty then none
  if path.utf8ByteSize > maxPathLength then none
  if (pathParts path).any fun part => part.utf8ByteSize > maxNameLength then none
  let place ← disk.walk? (origin here path) (pathParts path)
  if endsInDirectory path && !disk.hasDirectory place then none
  else some place

/-- The content of a file, if it can be read. -/
def read? (disk : Disk here) (path : String) : Option ByteArray := do
  let place ← disk.place? path
  if disk.hasDirectory place then none else Entries.get? place disk.files

/-- Does the path lead to a directory? -/
def isDirectory (disk : Disk here) (path : String) : Bool :=
  (disk.place? path).any disk.hasDirectory

/-- The disk with a file written, if it can be. -/
def write? (disk : Disk here) (path content : String) : Option (Disk here) := do
  let place ← disk.place? path
  if disk.hasDirectory place then none
  else some { disk with files := Entries.put place content.toUTF8 disk.files }

end Disk

instance {here : List String} : FileSystem (StateM (Disk here)) where
  read? path := return (← get).read? path
  isDirectory path := return (← get).isDirectory path
  write path content := do
    match (← get).write? path content with
    | some disk => set disk; return true
    | none => return false

end ClassSchema
