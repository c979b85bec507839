import MdxBuild.Storage.Disk

/-!
# File trees with links

The directory in which documents are looked for, as a value. Beside files and directories it holds
symbolic links, which lead to the place that they name, from the directory that they are in. A path
is followed name by name; a name only leads on from a directory, and a path that needs too many
links leads nowhere.
-/

namespace MdxBuild

/-- What stands at a place of a file tree. -/
inductive FileTree.Node where
  | directory
  /-- A file; it has no text if its bytes are not UTF-8. -/
  | file (text : Option Text)
  | link (target : Text)
deriving DecidableEq, Repr

/-- A file tree. Its root is a directory under the empty path once it exists. -/
structure FileTree where
  nodes : Dictionary FileTree.Node := .empty
deriving DecidableEq

namespace FileTree

/-- What stands at a place. -/
def node? (tree : FileTree) (place : Path) : Option Node :=
  tree.nodes.find? place.toText

/-- The tree with a node at a place. -/
def set (tree : FileTree) (place : Path) (node : Node) : FileTree :=
  ⟨tree.nodes.insert place.toText node⟩

/-- The greatest number of links that a path may need. -/
def mostLinks : Nat :=
  40

/-- A name that stays in the directory in which it is followed. -/
def staysInPlace (name : Text) : Bool :=
  name.isEmpty || name == ['.']

/-- The place that names lead to from a place, if they need no more than `links` links. The root is
its own parent. -/
def follow (tree : FileTree) (links : Nat) (place : Path) : List Text → Option Path
  | [] => some place
  | name :: names =>
    match tree.node? place with
    | some .directory =>
      if staysInPlace name then tree.follow links place names
      else if name = ['.', '.'] then tree.follow links place.dropLast names
      else
        match tree.node? (place ++ [name]), links with
        | none, _ => none
        | some (.link _), 0 => none
        | some (.link target), fewer + 1 =>
          if target.isEmpty || target.head? == some '/' then none
          else tree.follow fewer place (target.splitOn '/' ++ names)
        | some _, links => tree.follow links (place ++ [name]) names
    | _ => none
termination_by names => (links, names.length)

/-- The place that names lead to from the root, if there is anything. -/
def place? (tree : FileTree) (names : List Text) : Option Path :=
  (tree.follow mostLinks [] names).filter fun place => (tree.node? place).isSome

/-- The nodes in the directory at a place, with their names. -/
def children (tree : FileTree) (place : Path) : List (Text × Node) :=
  tree.nodes.entries.filterMap fun (text, node) =>
    let names := Path.ofText text
    match names.getLast? with
    | some name => if names.dropLast = place then some (name, node) else none
    | none => none

/-- Enters a directory from a place, which is made if there is nothing of its name. -/
def enter? (state : FileTree × Path) (name : Text) : Option (FileTree × Path) :=
  let (tree, place) := state
  if staysInPlace name then some state
  else
    match tree.node? (place ++ [name]) with
    | none => some (tree.set (place ++ [name]) .directory, place ++ [name])
    | some _ => (tree.follow mostLinks place [name]).map fun entered => (tree, entered)

/-- The tree with a node at a path, and directories on the way to it. A tree in which something
else than directories is on the way stays as it is. -/
def add (tree : FileTree) (path : Text) (node : Node) : FileTree :=
  let names := path.splitOn '/'
  let rooted := tree.set [] .directory
  let added := do
    let (made, place) ← names.dropLast.foldlM enter? (rooted, [])
    let name ← names.getLast?
    match node with
    | .directory => some (← enter? (made, place) name).1
    | _ => some (made.set (place ++ [name]) node)
  added.getD tree

end FileTree

end MdxBuild
