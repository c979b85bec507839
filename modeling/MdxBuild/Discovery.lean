import MdxBuild.Document
import MdxBuild.Storage.Tree
import MdxBuild.Text.Order

/-!
# Document discovery

The documents of a directory are its files with a wanted extension, at any depth and also behind
links. What cannot be read is passed over, and so is a link back to a directory that leads to it.
Every document is named by the path on which it was found.
-/

namespace MdxBuild.Discovery

/-- The extensions of documents. -/
def documentExtensions : List Text :=
  ["md".toList, "mdx".toList]

/-- What follows the last dot of a file name, unless nothing comes before it. -/
def extension? (name : Text) : Option Text := do
  let (stem, extension) ← Text.splitLast? ['.'] name
  if stem.isEmpty then none else some extension

/-- The file name has one of the wanted extensions, which may be given with dots in front. -/
def isWanted (wanted : List Text) (name : Text) : Bool :=
  (extension? name).any fun extension =>
    wanted.any fun text => Text.sameIgnoringCase (text.dropWhile (· = '.')) extension

/-- A path to a node and whether the node is a link. -/
structure Visit where
  names : List Text
  viaLink : Bool

/-- The documents at a visited path below a root and under it, to a depth of `fuel`; `above` holds
the places of the directories that led there. -/
def documentsAt (tree : FileTree) (wanted root : List Text) :
    (fuel : Nat) → (above : List Path) → Visit → List SourceDocument
  | 0, _, _ => []
  | fuel + 1, above, visit =>
    let path := root ++ visit.names
    match tree.place? path with
    | none => []
    | some place =>
      match tree.node? place with
      | some (.file (some text)) =>
        if path.getLast?.any (isWanted wanted) then [⟨['/'].intercalate visit.names, text, none⟩]
        else []
      | some .directory =>
        if visit.viaLink && above.contains place then []
        else
          (tree.children place).flatMap fun (name, node) =>
            let viaLink := match node with
              | .link _ => true
              | _ => false
            documentsAt tree wanted root fuel (place :: above) ⟨visit.names ++ [name], viaLink⟩
      | _ => []

/-- A depth that no visit exceeds: a path has at most `mostLinks` links, and between two of them it
gets deeper in the tree with each name. -/
def depthBound (tree : FileTree) : Nat :=
  (FileTree.mostLinks + 2) * (tree.nodes.entries.length + 1)

/-- The documents in a directory of a tree, sorted by id. -/
def discover (tree : FileTree) (root : Text) (wanted : List Text) : List SourceDocument :=
  (documentsAt tree wanted (root.splitOn '/') (depthBound tree) [] ⟨[], false⟩).mergeSort
    fun first second => Text.precedes first.id second.id

end MdxBuild.Discovery
