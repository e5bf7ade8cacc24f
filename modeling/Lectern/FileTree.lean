import Lectern.Path

/-!
# File Trees

The files and directories that a program finds. An entry stands at a **location**, the list of the
names on the way to it from the root; a path leads to a location, step by step, and each step has
to start in a directory.

* `FileTree.find` — the entry that a path leads to, or why there is none.
* `FileTree.read` — the content of the file that a path leads to.
* `FileTree.set`, `FileTree.remove` — changed trees.
-/

namespace Lectern

/-- The names on the way from the root. -/
abbrev Location := List Bytes

/-- What stands at a location. -/
inductive Entry where
  | file (content : Bytes)
  | directory
deriving DecidableEq, Repr

/-- Why a path leads nowhere: something is missing on its way, the way goes through a file, it
leads to a directory where a file is needed, or no file can have such a name. -/
inductive PathFault where
  | missing
  | notDirectory
  | isDirectory
  | unusable
deriving DecidableEq, Repr

/-- A **file tree**: the entries below the root, each at its location. -/
structure FileTree where
  entries : List (Location × Entry) := []
deriving DecidableEq, Repr

namespace FileTree

/-- The entry at a location; the root is a directory. -/
def entry? (tree : FileTree) (location : Location) : Option Entry :=
  if location = [] then some .directory
  else (tree.entries.find? fun e => e.1 == location).map (·.2)

/-- The tree with `entry` at a location. -/
def set (tree : FileTree) (location : Location) (entry : Entry) : FileTree :=
  ⟨(location, entry) :: tree.entries.filter fun e => e.1 != location⟩

/-- The tree without what stands at a location or below it. -/
def remove (tree : FileTree) (location : Location) : FileTree :=
  ⟨tree.entries.filter fun e => !location.isPrefixOf e.1⟩

/-- The locations of the directories on the way to a location, the location itself last. -/
def waysTo (location : Location) : List Location :=
  (List.range location.length).map fun n => location.take (n + 1)

/-- The tree in which everything on the way to a location, and the location itself, is a directory
unless something stands there already. -/
def plantDirectory (tree : FileTree) (location : Location) : FileTree :=
  (waysTo location).foldl
    (fun tree way => if (tree.entry? way).isSome then tree else tree.set way .directory) tree

/-- The tree with a file at a location, and directories on the way to it. -/
def plantFile (tree : FileTree) (location : Location) (content : Bytes) : FileTree :=
  (tree.plantDirectory location.dropLast).set location (.file content)

/-! ### Paths -/

/-- The longest name of a file, in bytes. -/
def maxName : Nat := 255

/-- The longest path, in bytes. -/
def maxPath : Nat := 4095

/-- One step of a path from a location, which has to be a directory. -/
def step (tree : FileTree) (location : Location) (segment : Bytes) : Except PathFault Location :=
  match tree.entry? location with
  | some .directory =>
    if Path.isSilent segment then .ok location
    else if segment = [Path.dot, Path.dot] then .ok location.dropLast
    else if maxName < segment.length then .error .unusable
    else if (tree.entry? (location ++ [segment])).isSome then .ok (location ++ [segment])
    else .error .missing
  | some (.file _) => .error .notDirectory
  | none => .error .missing

/-- The location that segments lead to from another. -/
def walk (tree : FileTree) (location : Location) : List Bytes → Except PathFault Location
  | [] => .ok location
  | segment :: rest =>
    match tree.step location segment with
    | .ok next => tree.walk next rest
    | .error fault => .error fault

/-- Whether a text of bytes can be a path at all. -/
def isUsable (p : Path) : Bool := p.length ≤ maxPath && !p.contains 0

/-- The **location** that an absolute path leads to. -/
def locate (tree : FileTree) (p : Path) : Except PathFault Location :=
  if p = [] then .error .missing
  else if isUsable p then tree.walk [] (Path.segments p)
  else .error .unusable

/-- The entry that an absolute path leads to. -/
def find (tree : FileTree) (p : Path) : Except PathFault Entry :=
  match tree.locate p with
  | .ok location => ((tree.entry? location).map Except.ok).getD (.error .missing)
  | .error fault => .error fault

/-- Whether a path leads to a file. -/
def isFile (tree : FileTree) (p : Path) : Bool :=
  match tree.find p with
  | .ok (.file _) => true
  | _ => false

/-- Whether a path leads to a directory. -/
def isDirectory (tree : FileTree) (p : Path) : Bool :=
  match tree.find p with
  | .ok .directory => true
  | _ => false

/-- The **content** of the file that a path leads to. -/
def read (tree : FileTree) (p : Path) : Except PathFault Bytes :=
  match tree.find p with
  | .ok (.file content) => .ok content
  | .ok .directory => .error .isDirectory
  | .error fault => .error fault

end FileTree

end Lectern
