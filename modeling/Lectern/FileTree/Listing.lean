import Lectern.FileTree

/-!
# Listing File Trees

What stands in a directory, and what stands below it.

* `FileTree.names` — the names in a directory.
* `FileTree.directoriesBelow` — the ways to the directories below a directory.
-/

namespace Lectern.FileTree

/-- The name of an entry that stands in the directory at a location. -/
def nameIn? (directory location : Location) : Option Bytes :=
  if location.dropLast = directory then location.getLast? else none

/-- The **names** of what stands in the directory at a location. -/
def names (tree : FileTree) (directory : Location) : List Bytes :=
  tree.entries.filterMap fun entry => nameIn? directory entry.1

/-- The number of names on the longest way from the root. -/
def depth (tree : FileTree) : Nat :=
  (tree.entries.map fun entry => entry.1.length).foldr max 0

/-- The ways from the directory at a location to the directories **below** it, of at most so many
names; the first way leads nowhere. -/
def directoriesBelow (tree : FileTree) : Nat → Location → List Location
  | 0, _ => [[]]
  | depth + 1, directory =>
    let inside := (tree.names directory).filter fun name =>
      tree.entry? (directory ++ [name]) = some .directory
    [] :: inside.flatMap fun name =>
      (tree.directoriesBelow depth (directory ++ [name])).map (name :: ·)

end Lectern.FileTree
