import SyntaxGraph.Source.Path

/-!
# A disk as a value

A disk holds files and directories by their places.  A place is reached from a
starting directory, the root or one some levels above the working directory, by a
list of names.  A path is followed part by part: each part but the last must be a
directory that exists, and two dots lead to the directory above, so a path can only
go up from a directory that is there.  Names and paths have a longest length, and a path
with a null character leads nowhere.
-/

set_option autoImplicit false

namespace SyntaxGraph.CommandLine

/-- The directories from which places are reached, none of which is ever made. -/
inductive Anchor
  | root
  | above (levels : Nat)
deriving DecidableEq

/-- Where a file or directory is; the last name comes first. -/
structure Place where
  anchor : Anchor
  names : List String
deriving DecidableEq

namespace Place

def workingDirectory : Place := ⟨.above 0, []⟩

/-- The file from which nothing is ever read. -/
def nullDevice : Place := ⟨.root, ["null", "dev"]⟩

def child (place : Place) (name : String) : Place := { place with names := name :: place.names }

/-- The directory above; the root is above itself. -/
def parent (place : Place) : Place :=
  match place.names, place.anchor with
  | _ :: names, _ => { place with names }
  | [], .root => place
  | [], .above levels => { place with anchor := .above (levels + 1) }

/-- The path of a place in or below the working directory, seen from there. -/
def relativePath? (place : Place) : Option String :=
  if place.anchor = .above 0 then some ("/".intercalate place.names.reverse) else none

end Place

structure Disk where
  files : List (Place × String) := []
  directories : List Place := []
deriving DecidableEq

namespace Disk

def isDirectory (disk : Disk) (place : Place) : Bool :=
  place.names.isEmpty || disk.directories.contains place

def file? (disk : Disk) (place : Place) : Option String := disk.files.lookup place

/-- Where a path begins. -/
def start (path : String) : Place :=
  if Path.isAbsolute path then ⟨.root, []⟩ else .workingDirectory

/-- Whether a path says by its end that it names a directory. -/
def namesDirectory (path : String) : Bool :=
  match path.toList.reverse with
  | '/' :: _ => true
  | '.' :: '/' :: _ => true
  | ['.'] => true
  | _ => false

/-- The most bytes of a name. -/
def longestName : Nat := 255

/-- The most bytes of a path. -/
def longestPath : Nat := 4095

/-- Whether a path can lead anywhere. -/
def isPassable (path : String) : Bool :=
  path.utf8ByteSize ≤ longestPath && !path.toList.contains (Char.ofNat 0)
    && (Path.parts path).all fun part => part.utf8ByteSize ≤ longestName

/-- Follow one part of a path from a directory to another one. -/
def enter? (disk : Disk) (place : Place) (part : String) : Option Place :=
  if part = ".." then some place.parent
  else if disk.isDirectory (place.child part) then some (place.child part)
  else none

/-- The text of the file at a path. -/
def read? (disk : Disk) (path : String) : Option String := do
  let parts := Path.parts path
  let name ← parts.getLast?
  if name = ".." || namesDirectory path || !isPassable path then none
  let place ← parts.dropLast.foldlM disk.enter? (start path)
  disk.file? (place.child name)

/-- Follow one part of a path to a directory, which is made if nothing is there. -/
def enterOrMake? (here : Disk × Place) (part : String) : Option (Disk × Place) :=
  let (disk, place) := here
  if part = ".." then some (disk, place.parent)
  else
    let next := place.child part
    if disk.isDirectory next then some (disk, next)
    else if (disk.file? next).isSome then none
    else some ({ disk with directories := next :: disk.directories }, next)

/-- The disk with a text at a place, whatever the file there held before. -/
def put (disk : Disk) (place : Place) (text : String) : Disk :=
  { disk with files := (place, text) :: disk.files.filter (·.1 ≠ place) }

/-- Write a text to the file at a path, making the directories that lead to it. -/
def write? (disk : Disk) (path text : String) : Option Disk := do
  let parts := Path.parts path
  let name ← parts.getLast?
  if !isPassable path then none
  let (disk, place) ← parts.dropLast.foldlM enterOrMake? (disk, start path)
  if name = ".." || disk.isDirectory (place.child name) then none
  return disk.put (place.child name) text

/-- The disk with nothing on it but what every system has. -/
def bare : Disk where
  files := [(.nullDevice, "")]
  directories := [Place.nullDevice.parent]

/-- The disk that holds the given files, by their paths, and the directories that
lead to them. -/
def ofFiles (files : List (String × String)) : Disk :=
  files.foldl (fun disk (path, text) => (disk.write? path text).getD disk) bare

/-- The files in or below the working directory that an earlier disk does not hold with
the same text, by their paths. -/
def changedFiles (disk earlier : Disk) : List (String × String) :=
  disk.files.filterMap fun (place, text) =>
    if earlier.file? place = some text then none
    else place.relativePath?.map fun path => (path, text)

end Disk

end SyntaxGraph.CommandLine
