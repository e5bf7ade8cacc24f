import Lectern.FileTree

/-!
# Writing to File Trees

New files and directories. What is written stands at the end of a path whose other steps lead
through directories, and it needs a name that a file can have.

* `FileTree.write` — the tree with a file.
* `FileTree.makeDirectories` — the tree with a directory and those on the way to it.
-/

namespace Lectern.FileTree

/-- The location at the end of an absolute path, where something **may be written**: the path
ends with a name in a directory. -/
def target (tree : FileTree) (p : Path) : Except PathFault Location :=
  if !isUsable p then .error .unusable
  else
    let segments := Path.segments p
    let name := segments.getLast?.getD []
    match tree.walk [] segments.dropLast with
    | .error fault => .error fault
    | .ok location =>
      match tree.entry? location with
      | none => .error .missing
      | some (.file _) => .error .notDirectory
      | some .directory =>
        if Path.isSilent name || name = [Path.dot, Path.dot] then .error .isDirectory
        else if maxName < name.length then .error .unusable
        else .ok (location ++ [name])

/-- The tree with a **file** at the end of an absolute path, instead of one that was there. -/
def write (tree : FileTree) (p : Path) (content : Bytes) : Except PathFault FileTree :=
  match tree.target p with
  | .error fault => .error fault
  | .ok location =>
    if tree.entry? location = some .directory then .error .isDirectory
    else .ok (tree.set location (.file content))

/-- A path without the slashes at its end. -/
def trimSlashes (p : Path) : Path := (p.reverse.dropWhile (· = Path.slash)).reverse

/-- The tree with a new **directory** at the end of an absolute path, where nothing may be. -/
def makeDirectory (tree : FileTree) (p : Path) : Except PathFault FileTree :=
  match tree.target (trimSlashes p) with
  | .error fault => .error fault
  | .ok location =>
    match tree.entry? location with
    | none => .ok (tree.set location .directory)
    | some .directory => .error .isDirectory
    | some (.file _) => .error .notDirectory

/-- The tree after a new directory, or as it was if the directory is there already. -/
def keepDirectory (tree : FileTree) (p : Path) : Except PathFault FileTree :=
  match tree.makeDirectory p with
  | .ok made => .ok made
  | .error fault => if tree.isDirectory p then .ok tree else .error fault

/-- The tree with a directory at the end of the first path; the other paths are those above it,
of which as many are made as are missing. -/
def makeChain (tree : FileTree) : List Path → Except PathFault FileTree
  | [] => .error .missing
  | p :: above =>
    match tree.makeDirectory p with
    | .ok made => .ok made
    | .error .missing =>
      match tree.makeChain above with
      | .ok ready => ready.keepDirectory p
      | .error fault => .error fault
    | .error fault => if tree.isDirectory p then .ok tree else .error fault

/-- The tree with the **directories** on the way of an absolute path, the last one included. -/
def makeDirectories (tree : FileTree) (p : Path) : Except PathFault FileTree :=
  tree.makeChain (Path.ancestors p)

end Lectern.FileTree
