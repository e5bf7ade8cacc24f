import Lectern.Path

/-!
# Module Formats

How the source of a module is to be evaluated. A format has a name, and most file extensions imply
one; scripts with the plain extension get theirs from the package they belong to.
-/

namespace Lectern.Import

/-- The **format** of a module. -/
inductive Format where
  | module
  | commonjs
  | json
  | wasm
  | builtin
deriving DecidableEq, Repr

/-- A name that belongs to no format. -/
structure UnknownFormat where
  name : Text
deriving DecidableEq, Repr

/-- What is said of a name that belongs to no format. -/
def UnknownFormat.message (unknown : UnknownFormat) : Text :=
  "Unknown module format '".toList ++ unknown.name ++ "'".toList

namespace Format

/-- All formats. -/
def all : List Format := [.module, .commonjs, .json, .wasm, .builtin]

/-- The name of a format. -/
def name : Format → Text
  | .module => "module".toList
  | .commonjs => "commonjs".toList
  | .json => "json".toList
  | .wasm => "wasm".toList
  | .builtin => "builtin".toList

/-- The format with the given name. -/
def ofName? (s : Text) : Option Format := all.find? fun format => format.name == s

/-- The format with the given name, or the report that there is none. -/
def parse (s : Text) : Except UnknownFormat Format :=
  match ofName? s with
  | some format => .ok format
  | none => .error ⟨s⟩

/-- The format that a file extension implies. Plain scripts have none by their extension. -/
def ofExtension? (extension : Bytes) : Option Format :=
  if extension = Path.ofText "mjs".toList then some .module
  else if extension = Path.ofText "cjs".toList then some .commonjs
  else if extension = Path.ofText "json".toList then some .json
  else if extension = Path.ofText "wasm".toList then some .wasm
  else none

/-- The format that the extension of a path implies. -/
def ofPath? (p : Path) : Option Format := (Path.extension? p).bind ofExtension?

end Format

end Lectern.Import
