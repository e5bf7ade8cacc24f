import Lectern.FileTree.Listing

/-!
# Globs

A glob is a path in which some steps are left open. A star stands for any part of a name and a
question mark for one character of it; two stars on their own stand for any directories, also for
none. In brackets a character stands for itself, so any text can be escaped.

A step without open parts is followed like the step of a path, also if it is a dot or two; an open
step leads to the names in a directory that match it, as far as they are text. The paths that are
found are written like the glob, but no dot is left at their start.

* `Glob.escape` — the glob that a text alone matches.
* `Glob.search` — the paths that a glob leads to.
-/

namespace Lectern.Glob

/-! ### Patterns -/

/-- A part of the pattern of a name. -/
inductive Token where
  | plain (c : Char)
  /-- A character in brackets. -/
  | quoted (c : Char)
  /-- Any character. -/
  | single
  /-- Any characters, or none. -/
  | gap
deriving DecidableEq, Repr

/-- A **step** of a glob: any directories, or a name that matches a pattern. -/
inductive Step where
  | everywhere
  | name (pattern : List Token)
deriving DecidableEq, Repr

/-- Whether `c` is written in brackets to stand for itself. -/
def isSpecial (c : Char) : Bool := c == '?' || c == '*' || c == '[' || c == ']'

/-- The **escaped** text: the glob that it alone matches. -/
def escape (s : Text) : Text := s.flatMap fun c => if isSpecial c then ['[', c, ']'] else [c]

/-- The pattern that a text is. A bracket that is not closed behind one character stands for
itself. -/
def tokens : Text → List Token
  | '[' :: c :: ']' :: rest => .quoted c :: tokens rest
  | '?' :: rest => .single :: tokens rest
  | '*' :: rest => .gap :: tokens rest
  | c :: rest => .plain c :: tokens rest
  | [] => []

/-- The step that a text between slashes is. -/
def Step.ofText (s : Text) : Step := if s = "**".toList then .everywhere else .name (tokens s)

/-- The text of a pattern without open parts and brackets. -/
def literal? : List Token → Option Text
  | [] => some []
  | .plain c :: rest => (literal? rest).map (c :: ·)
  | _ => none

/-- Whether some end of a text, or the whole text, has a property. -/
def someEnd (property : Text → Bool) : Text → Bool
  | [] => property []
  | c :: s => property (c :: s) || someEnd property s

/-- Whether a text **matches** a pattern. -/
def isMatch : List Token → Text → Bool
  | [], s => s.isEmpty
  | .gap :: pattern, s => someEnd (isMatch pattern) s
  | .single :: pattern, _ :: s => isMatch pattern s
  | .plain c :: pattern, d :: s => c == d && isMatch pattern s
  | .quoted c :: pattern, d :: s => c == d && isMatch pattern s
  | _, [] => false

/-- Whether a name is a text that matches a pattern. -/
def isNameMatch (pattern : List Token) (name : Bytes) : Bool :=
  ((Text.decode? name).map (isMatch pattern)).getD false

/-! ### Searching -/

/-- Whether a path is that of the working directory. -/
def isHere (path : Path) : Bool := Path.components path = [.here]

/-- The path of something in the directory `path`. What is in the working directory is written
without a dot. -/
def pathTo (path : Path) (name : Bytes) : Path :=
  if isHere path then name else Path.join path name

/-- A **spot** of a search: the path by which it is reached, and the location to which the path
leads. -/
structure Spot where
  path : Path
  location : Location
deriving DecidableEq, Repr

namespace Spot

/-- The spot of a name in a directory. -/
def enter (spot : Spot) (name : Bytes) : Spot := ⟨pathTo spot.path name, spot.location ++ [name]⟩

/-- The spot at the end of names, each in the directory before it. -/
def descend (spot : Spot) (names : List Bytes) : Spot := names.foldl enter spot

/-- The spot of a segment without open parts, if it leads anywhere. -/
def follow? (tree : FileTree) (spot : Spot) (segment : Bytes) : Option Spot :=
  if isHere spot.path && segment = [] then none
  else
    match tree.step spot.location segment with
    | .ok location => some ⟨pathTo spot.path segment, location⟩
    | .error _ => none

/-- The spots to which a **step** leads from a spot. -/
def reach (tree : FileTree) (spot : Spot) : Step → List Spot
  | .everywhere =>
    if tree.entry? spot.location = some .directory then
      (tree.directoriesBelow tree.depth spot.location).map spot.descend
    else []
  | .name pattern =>
    match literal? pattern with
    | some s => (spot.follow? tree (Text.encode s)).toList
    | none =>
      if tree.entry? spot.location = some .directory then
        ((tree.names spot.location).filter (isNameMatch pattern)).map spot.enter
      else []

end Spot

/-- The spots to which steps lead, one after the other. -/
def walk (tree : FileTree) : List Step → Spot → List Spot
  | [], spot => [spot]
  | step :: rest, spot => (spot.reach tree step).flatMap (walk tree rest)

/-- The steps of a glob without the slash at its start. -/
def steps (s : Text) : List Step := (Text.splitOnChar '/' s).map Step.ofText

/-- The spot at which the search for a glob starts, and the steps from there. -/
def start? (tree : FileTree) (workingDirectory : Path) (glob : Text) :
    Option (Spot × List Step) :=
  match glob with
  | '/' :: rest => some (⟨[Path.slash], []⟩, steps rest)
  | _ =>
    match tree.locate (Path.join workingDirectory [Path.dot]) with
    | .ok location => some (⟨[Path.dot], location⟩, steps glob)
    | .error _ => none

/-- The paths that a **glob** leads to, as seen from a working directory. -/
def search (tree : FileTree) (workingDirectory : Path) (glob : Text) : List Path :=
  match start? tree workingDirectory glob with
  | some (spot, steps) => (walk tree steps spot).map (·.path)
  | none => []

end Lectern.Glob
