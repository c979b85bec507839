import MdxBuild.Dictionary

/-!
# A directory on disk

The directory that keeps a cache between builds, as a value: which files and directories there are
and what the files hold. A path is walked name by name, and a name only leads on from a directory
that exists. Creating fails where a file stands in the way of a directory or a directory in the way
of a file, and for names that no file system takes.
-/

namespace MdxBuild

/-- The names on the way from the root of the tree to an entry. -/
abbrev Path : Type :=
  List Text

namespace Path

/-- The path that a text spells with slashes. Empty names and single dots count for nothing. -/
def ofText (text : Text) : Path :=
  (text.splitOn '/').filter fun name => !name.isEmpty && name != ['.']

/-- The path spelled with slashes. -/
def toText (path : Path) : Text :=
  ['/'].intercalate path

/-- The name that leads from a directory to the one around it. -/
def up : Text :=
  ['.', '.']

/-- The place where a name leads from the place of a directory. Above the root there are only the
directories around it. -/
def next (place : Path) (name : Text) : Path :=
  if name != up || place.all (· = up) then place ++ [name] else place.dropLast

/-- The place of a directory around the root. -/
def isAbove (place : Path) : Bool :=
  !place.isEmpty && place.all (· = up)

/-- The greatest number of bytes in a name. -/
def longestName : Nat :=
  255

/-- A name that a file system takes. -/
def isName (name : Text) : Bool :=
  !name.isEmpty && Text.utf8Length name ≤ longestName && !name.contains '\x00'

end Path

/-- What a path leads to. -/
inductive Entry where
  | directory
  /-- A file; it has no text if its bytes are not UTF-8. -/
  | file (text : Option Text)
deriving DecidableEq, Repr

/-- A tree of files and directories. Its root is a directory under the empty path once it exists. -/
structure Disk where
  entries : Dictionary Entry := .empty
deriving DecidableEq

namespace Disk

/-- What stands at a place, if anything. -/
def entry? (disk : Disk) (place : Path) : Option Entry :=
  if place.isAbove then some .directory else disk.entries.find? place.toText

/-- The place where names lead from a place, each but the last one through a directory. -/
def walk? (disk : Disk) (place : Path) : (names : Path) → Option Path
  | [] => some place
  | name :: names =>
    if disk.entry? place = some .directory then walk? disk (place.next name) names else none

/-- The place of a path. -/
def place? (disk : Disk) (path : Path) : Option Path :=
  disk.walk? [] path

/-- The tree with an entry at a place. -/
def set (disk : Disk) (place : Path) (entry : Entry) : Disk :=
  ⟨disk.entries.insert place.toText entry⟩

/-- The tree with a directory at a place, and whether there is one: a file may stand there. -/
def makeDir (disk : Disk) (place : Path) : Bool × Disk :=
  match disk.entry? place with
  | some .directory => (true, disk)
  | some (.file _) => (false, disk)
  | none => if place.all Path.isName then (true, disk.set place .directory) else (false, disk)

/-- The tree with directories along the names of a path, as far as they can be made, and whether
all of them are there. -/
def makeDirsFrom (disk : Disk) (place : Path) : (names : Path) → Bool × Disk
  | [] => disk.makeDir place
  | name :: names =>
    match disk.makeDir place with
    | (true, made) => makeDirsFrom made (place.next name) names
    | (false, made) => (false, made)

/-- The tree with a directory at a path and all directories on the way to it. -/
def makeDirs (disk : Disk) (path : Path) : Bool × Disk :=
  disk.makeDirsFrom [] path

/-- The tree with a text in the file at a path, whose directory has to exist. -/
def write? (disk : Disk) (path : Path) (text : Text) : Option Disk := do
  let place ← disk.place? path
  if disk.entry? place = some .directory || place.isEmpty || !place.all Path.isName then none
  else some (disk.set place (.file (some text)))

/-- Writes a file together with the directories on the way to it. A write that fails names the path
that could not be made, and may leave directories behind. -/
def put (disk : Disk) (path : Path) (text : Text) : Except Path Unit × Disk :=
  match disk.makeDirs path.dropLast with
  | (false, made) => (.error path.dropLast, made)
  | (true, made) =>
    match made.write? path text with
    | none => (.error path, made)
    | some written => (.ok (), written)

/-- What a path leads to, if anything. -/
def find? (disk : Disk) (path : Path) : Option Entry :=
  (disk.place? path).bind disk.entry?

/-- The text of the file at a path. -/
def read? (disk : Disk) (path : Path) : Option Text :=
  match disk.find? path with
  | some (.file text) => text
  | _ => none

/-- There is a file at a path. -/
def hasFile (disk : Disk) (path : Path) : Bool :=
  match disk.find? path with
  | some (.file _) => true
  | _ => false

/-- The tree without the file at a path. -/
def remove (disk : Disk) (path : Path) : Disk :=
  match disk.place? path with
  | some place => if disk.hasFile path then ⟨disk.entries.erase place.toText⟩ else disk
  | none => disk

/-- The paths of all files below the root, in order. -/
def files (disk : Disk) : List Text :=
  disk.entries.entries.filterMap fun (path, entry) =>
    match entry with
    | .file _ => if (Path.ofText path).head? = some Path.up then none else some path
    | .directory => none

end Disk

end MdxBuild
