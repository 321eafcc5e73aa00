import Strongbox.Error
/-!
# Files

The files below the working directory, by place. A directory is there if a file is in it. A path is
followed name by name, and each name has to be looked for in a directory.

## Main definitions

* `Command.Place`: places in the tree of directories
* `Command.Path`: paths, and `Path.ofString`, the path that a text spells
* `Command.Files`: the files, `Files.locate`: where a path leads, `Files.read`, `Files.write`:
  reading and writing them

## Main results

* `Files.get?_put_self`, `Files.get?_put_of_ne`: what is there after a file is put
-/

namespace Strongbox.Command

/-- A place in the tree of directories: the names on the way to it from the working directory. A
slash in front leads to the root, and two dots in front lead one level up. -/
abbrev Place := List String

/-- Whether a name leads out of the working directory. -/
def leadsOut (name : String) : Bool := name = "/" || name = ".."

namespace Place

/-- The working directory. -/
def workingDirectory : Place := []

/-- The root. -/
def root : Place := ["/"]

/-- The place one level up; the root is above itself. -/
def parent (place : Place) : Place :=
  if !place.all leadsOut then place.dropLast
  else if place = root then root
  else place ++ [".."]

/-- The most bytes a name may have. -/
def longestName : Nat := 255

/-- The place of a name in a directory. A single dot is the directory itself, two dots are the place
one level up. -/
def child (place : Place) (name : String) : Except FileFault Place :=
  if name = "." then .ok place
  else if name = ".." then .ok place.parent
  else if longestName < name.utf8ByteSize then .error .nameTooLong
  else .ok (place ++ [name])

end Place

/-- A path. -/
structure Path where
  /-- Whether it starts at the root, and not at the working directory. -/
  fromRoot : Bool
  /-- The names on it, dots among them. -/
  names : List String
  /-- Whether it ends in a slash, so that it can only lead to a directory. -/
  endsInSlash : Bool
deriving DecidableEq, Repr

namespace Path

/-- The first length in bytes that a path may not have. -/
def tooLong : Nat := 4096

/-- The names in a text, slashes between them; no name is empty. -/
def namesOf (s : String) : List String :=
  ((s.toList.splitOn '/').map String.ofList).filter (· ≠ "")

/-- The path that a text spells. -/
def ofString (s : String) : Except FileFault Path :=
  if tooLong ≤ s.utf8ByteSize then .error .nameTooLong
  else .ok ⟨s.toList.head? = some '/', namesOf s, s.toList.getLast? = some '/'⟩

/-- Where the path starts. -/
def start (path : Path) : Place := if path.fromRoot then .root else .workingDirectory

/-- The path without its last name. -/
def dropLast (path : Path) : Path := { path with names := path.names.dropLast }

end Path

/-- The files below the working directory. -/
abbrev Files := List (Place × Bytes)

/-- What is at a place. -/
inductive Entry where
  /-- A file. -/
  | file (data : Bytes)
  /-- A directory. -/
  | directory
deriving DecidableEq, Repr

namespace Files

/-- The contents of a file. -/
def get? (files : Files) (place : Place) : Option Bytes :=
  (files.find? (·.1 = place)).map (·.2)

/-- Whether a place is a directory: the working directory, one above it, or one with a file in
it. -/
def isDirectory (files : Files) (place : Place) : Bool :=
  place.all leadsOut || files.any fun file => place.isPrefixOf file.1 && file.1 ≠ place

/-- What is at a place, if anything is. -/
def entry? (files : Files) (place : Place) : Option Entry :=
  match files.get? place with
  | some data => some (.file data)
  | none => if files.isDirectory place then some .directory else none

/-- A place that has to be a directory. -/
def directory (files : Files) (place : Place) : Except FileFault Place :=
  match files.entry? place with
  | some .directory => .ok place
  | some (.file _) => .error .notDirectory
  | none => .error .notFound

/-- Where a path leads. Every place on the way has to be a directory; nothing need be at its end. -/
def locate (files : Files) (path : Path) : Except FileFault Place :=
  path.names.foldlM (fun place name => do (← files.directory place).child name) path.start

/-- The contents of the file a path leads to. -/
def read (files : Files) (path : Path) : Except FileFault Bytes := do
  match files.entry? (← files.locate path) with
  | some (.file data) => if path.endsInSlash then .error .notDirectory else .ok data
  | some .directory => .error .isDirectory
  | none => .error .notFound

/-- The contents of the file at the path that a text spells. -/
def readAt (files : Files) (path : String) : Except FileFault Bytes := do
  files.read (← Path.ofString path)

/-- The files with one of them put in the place of another at the same place, or added. -/
def put (files : Files) (place : Place) (data : Bytes) : Files :=
  (place, data) :: files.filter (·.1 ≠ place)

/-- The files after one is written; its directory has to be there. -/
def write (files : Files) (path : Path) (data : Bytes) : Except FileFault Files :=
  match path.names.getLast? with
  | none => .error .isDirectory
  | some name => do
    let above ← files.directory (← files.locate path.dropLast)
    if path.endsInSlash then .error .isDirectory
    else
      let place ← above.child name
      if files.entry? place = some .directory then .error .isDirectory
      else .ok (files.put place data)

/-- The files after one is written at the path that a text spells. -/
def writeAt (files : Files) (path : String) (data : Bytes) : Except FileFault Files := do
  files.write (← Path.ofString path) data

theorem get?_put_self (files : Files) (place : Place) (data : Bytes) :
    (files.put place data).get? place = some data := by
  simp [put, get?]

theorem get?_put_of_ne (files : Files) {place other : Place} (data : Bytes) (h : other ≠ place) :
    (files.put place data).get? other = files.get? other := by
  have hne : place ≠ other := Ne.symm h
  simp only [put, get?, List.find?_cons, List.find?_filter, hne, decide_false]
  congr 2
  funext file
  by_cases hf : file.1 = other
  · simp [hf, h]
  · simp [hf]

end Files

end Strongbox.Command
