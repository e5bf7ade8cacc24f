import Lectern.Text.Utf8

/-!
# Paths

A path names a file by the directories on the way to it. It is kept as it was written, byte for
byte, because error messages and page lists show it that way; its meaning is its list of
`components`, in which repeated and final slashes and dots do not count.

* `join` — a path from the directory of another.
* `parent?`, `fileName?`, `extension?` — the parts of a path.
* `namesBelow?` — a path as seen from a directory above it.
* `normalize` — the path without dots; two dots take back the directory before them, and nothing
  lies above the root.
* `absolute?` — a path as seen from a working directory.
-/

namespace Lectern

/-- A path, as the bytes in which it was written. -/
abbrev Path := Bytes

namespace Path

/-- The byte between two directories. -/
def slash : UInt8 := 0x2F

/-- The byte before an extension. -/
def dot : UInt8 := 0x2E

/-- The path with the given text. -/
def ofText (s : Text) : Path := Text.encode s

/-- A text without the steps `./` at its start. -/
def stripHere : Text → Text
  | '.' :: '/' :: rest => stripHere rest
  | s => s

/-- The path of an entry of a directory, which may be written with steps `./` at its start. -/
def ofEntry (s : Text) : Path := ofText (stripHere s)

/-- The text of a path, for messages. -/
def display (p : Path) : Text := Text.decodeLossy p

/-- Whether a path starts at the root. -/
def isAbsolute (p : Path) : Bool := p.head? == some slash

/-- The **segments** of a path: what stands between its slashes, empty ones included. -/
def segments : Path → List Bytes
  | [] => [[]]
  | b :: rest =>
    if b = slash then [] :: segments rest
    else match segments rest with
      | segment :: more => (b :: segment) :: more
      | [] => [[b]]

/-- The path with the given segments. -/
def ofSegments (segments : List Bytes) : Path := [slash].intercalate segments

/-- A step on the way that a path describes. -/
inductive Component where
  | root
  | here
  | up
  | name (bytes : Bytes)
deriving DecidableEq, Repr

/-- The step that a segment after the first stands for. -/
def Component.ofSegment? (segment : Bytes) : Option Component :=
  if segment = [] then none
  else if segment = [dot] then none
  else if segment = [dot, dot] then some .up
  else some (.name segment)

/-- The **components** of a path. A dot counts only at the start of a relative path. -/
def components (p : Path) : List Component :=
  match segments p with
  | [] => []
  | first :: rest =>
    let start : List Component :=
      if first = [] then if p = [] then [] else [.root]
      else if first = [dot] then [.here]
      else (Component.ofSegment? first).toList
    start ++ rest.filterMap Component.ofSegment?

/-- The bytes in which a component is written; the root is written before a slash. -/
def Component.bytes : Component → Bytes
  | .root => []
  | .here => [dot]
  | .up => [dot, dot]
  | .name bytes => bytes

/-- `p` seen from the directory `base`. An absolute `p` stays as it is. -/
def join (base p : Path) : Path :=
  if isAbsolute p then p
  else if base = [] || base.getLast? = some slash then base ++ p
  else base ++ slash :: p

/-- Whether a segment after the first leaves the directory as it is. -/
def isSilent (segment : Bytes) : Bool := segment = [] || segment = [dot]

/-- The segments of a path without the silent ones at its end. -/
def trimmedSegments : List Bytes → List Bytes
  | [] => []
  | first :: rest => first :: (rest.reverse.dropWhile isSilent).reverse

/-- The path with the given segments, of which the first is empty for an absolute path. -/
def ofTrimmed (segments : List Bytes) : Path :=
  if segments = [[]] then [slash] else ofSegments segments

/-- The path without its last component; the root and the empty path have no **parent**. -/
def parent? (p : Path) : Option Path :=
  let trimmed := trimmedSegments (segments p)
  if trimmed = [[]] then none
  else some (ofTrimmed (trimmedSegments trimmed.dropLast))

/-- The path, its parent, the parent of that, and so on; `fuel` bounds their number. -/
def ancestorsAux : Nat → Path → List Path
  | 0, p => [p]
  | fuel + 1, p => p :: (match parent? p with
    | some parent => ancestorsAux fuel parent
    | none => [])

/-- The **ancestors** of a path, from the path itself upwards. -/
def ancestors (p : Path) : List Path := ancestorsAux p.length p

/-- The last component, if it is a name. -/
def fileName? (p : Path) : Option Bytes :=
  match (components p).getLast? with
  | some (.name bytes) => some bytes
  | _ => none

/-- The two sides of the last dot of a file name. A dot at its start divides nothing. -/
def splitExtension (name : Bytes) : Bytes × Option Bytes :=
  let extension := (name.reverse.takeWhile (· != dot)).reverse
  let stem := name.take (name.length - extension.length - 1)
  if extension.length = name.length || stem = [] then (name, none) else (stem, some extension)

/-- The **extension** of the file name. -/
def extension? (p : Path) : Option Bytes := (fileName? p).bind fun name => (splitExtension name).2

/-- The name that a component is. -/
def Component.name? : Component → Option Bytes
  | .name bytes => some bytes
  | _ => none

/-- The names on the way from the directory `base` to `p`, if `p` lies below it. -/
def namesBelow? (base p : Path) : Option (List Bytes) :=
  if (components base).isPrefixOf (components p) then
    ((components p).drop (components base).length).mapM Component.name?
  else none

/-- One component of a path that is being normalized, onto the names before it, nearest first. -/
def normalizeStep (names : List Bytes) : Component → List Bytes
  | .root | .here => names
  | .up => names.tail
  | .name bytes => bytes :: names

/-- The names that are left of a path when dots are resolved. -/
def normalizedNames (p : Path) : List Bytes := ((components p).foldl normalizeStep []).reverse

/-- The path of names from the root, or from a working directory. -/
def ofNames (fromRoot : Bool) (names : List Bytes) : Path :=
  if fromRoot then slash :: ofSegments names else ofSegments names

/-- The path without dots, repeated slashes and a final slash. -/
def normalize (p : Path) : Path := ofNames (isAbsolute p) (normalizedNames p)

/-- The absolute path of `p` as seen from the working directory `cwd`. Two slashes at the start, a
final slash and pairs of dots are kept; the empty path has none. -/
def absolute? (cwd p : Path) : Option Path :=
  if p = [] then none
  else
    let steps := (components p).filter fun c => c != .root && c != .here
    let start :=
      if !isAbsolute p then cwd
      else if (p.takeWhile (· = slash)).length = 2 then [slash, slash]
      else [slash]
    let whole := steps.foldl (fun base c => join base c.bytes) start
    some (if p.getLast? = some slash then join whole [] else whole)

end Path

end Lectern
