import Lectern.FileUrl
import Lectern.Import.Hook
import Lectern.Import.Manifest

/-!
# The Host on Disk

The host that finds modules in a file tree. A specifier is the name of a built-in module, a `file:`
URL, an absolute path, a path from the importing module, or the name of a package with, perhaps, a
part of it. Packages lie in the `node_modules` directory of the importing module's directory or of
one above it.

The format of a module comes from its extension; that of a plain script, from the manifest of the
closest directory above it that has one.

* `Disk.resolve` — the URL and the format of the module that a specifier names.
* `Disk.load` — the source of a module.
-/

namespace Lectern.Import

/-- What the host sees: the files, the directory of relative paths, and the directory of imports
that come from no module. -/
structure Disk where
  tree : FileTree
  workingDirectory : Path
  baseDirectory : Path

namespace Disk

/-! ### Specifiers -/

/-- The built-in modules that are known by their bare names. -/
def builtinNames : List Text :=
  ["assert", "buffer", "child_process", "crypto", "events", "fs", "http", "https", "module", "net",
    "os", "path", "process", "stream", "url", "util", "worker_threads", "zlib"].map String.toList

/-- The scheme of built-in modules. -/
def builtinScheme : Text := "node:".toList

/-- The URL of a built-in module. -/
def builtinUrl? (specifier : Text) : Option Text :=
  if builtinScheme.isPrefixOf specifier then some specifier
  else if builtinNames.contains (specifier.takeWhile (· != '/')) then
    some (builtinScheme ++ specifier)
  else none

/-- Whether a specifier is a path from the importing module. -/
def isRelative (specifier : Text) : Bool :=
  specifier == ['.'] || specifier == ['.', '.'] || "./".toList.isPrefixOf specifier ||
    "../".toList.isPrefixOf specifier

/-- The length of the package name at the start of a specifier. A name with an at sign has two
segments. -/
def packageNameLength? (specifier : Text) : Option Nat :=
  let first := specifier.takeWhile (· != '/')
  if specifier.head? = some '@' then
    match specifier.drop first.length with
    | [] => none
    | _ :: rest => some (first.length + 1 + (rest.takeWhile (· != '/')).length)
  else some first.length

/-- The **package name** and the part of a specifier. -/
def splitPackage? (specifier : Text) : Option (Text × Text) :=
  (packageNameLength? specifier).map fun n =>
    (specifier.take n, (specifier.drop n).dropWhile (· == '/'))

/-! ### Files -/

/-- The **file** that a path designates: itself, with the extension of a script, or the index of a
directory. -/
def fileAt? (tree : FileTree) (p : Path) : Option Path :=
  [p, p ++ Path.ofText ".js".toList, Path.join p (Path.ofText "index.js".toList)].find? tree.isFile

/-- The format of plain scripts in a package. -/
def scriptFormat (manifest : Manifest) : Format :=
  if manifest.type = some "module".toList then .module else .commonjs

/-- The format of plain scripts below directories, of which the closest comes first. -/
def scriptFormatBelow (tree : FileTree) : List Path → Except ImportError Format
  | [] => .ok .commonjs
  | directory :: rest =>
    match Manifest.read tree directory with
    | .error e => .error e
    | .ok (some manifest) => .ok (scriptFormat manifest)
    | .ok none => scriptFormatBelow tree rest

/-- The **format** of the module at a path, if its extension is known. -/
def formatOf (tree : FileTree) (p : Path) : Except ImportError (Option Format) :=
  match Format.ofPath? p with
  | some format => .ok (some format)
  | none =>
    if Path.extension? p = some (Path.ofText "js".toList) then
      (scriptFormatBelow tree (Path.ancestors p).tail).map some
    else .ok none

/-! ### Resolving -/

/-- The directory of the importing module, or that of imports from no module. -/
def importerDirectory (disk : Disk) (specifier : Text) (context : ResolveContext) :
    Except ImportError Path :=
  match context.parentUrl with
  | none => .ok disk.baseDirectory
  | some parent =>
    match FileUrl.toPath? parent with
    | some p => .ok ((Path.parent? p).getD [Path.slash])
    | none => .error (.invalidSpecifier specifier
        ("parent URL '".toList ++ parent ++ "' is not a file URL".toList))

/-- The directory from which relative paths and packages are looked up. -/
def lookupDirectory (disk : Disk) (specifier : Text) (context : ResolveContext) :
    Except ImportError Path :=
  match disk.importerDirectory specifier context with
  | .error e => .error e
  | .ok directory =>
    match Path.absolute? disk.workingDirectory directory with
    | some p => .ok (Path.normalize p)
    | none => .error (.unreadable directory)

/-- The directory of the package `name` that is seen from a directory. -/
def packageDirectory? (tree : FileTree) (name : Text) (lookup : Path) : Option Path :=
  ((Path.ancestors lookup).map fun directory =>
    Path.join (Path.join directory (Path.ofText "node_modules".toList)) (Path.ofText name)).find?
      tree.isDirectory

/-- The path that a manifest gives for a part of a package. -/
def packageTarget (manifest : Manifest) (conditions : List Text) (directory : Path) (part : Text) :
    Path :=
  match manifest.exportTarget? part conditions with
  | some target => Path.join directory (Path.ofEntry target)
  | none =>
    if part.isEmpty then
      (manifest.main.map fun main => Path.join directory (Path.ofText main)).getD directory
    else Path.join directory (Path.ofText part)

/-- The path that a specifier of a package names. -/
def packagePath (tree : FileTree) (specifier : Text) (lookup : Path) (conditions : List Text) :
    Except ImportError Path :=
  match splitPackage? specifier with
  | none => .error (.invalidSpecifier specifier "scoped package name needs a '/'".toList)
  | some (name, part) =>
    match packageDirectory? tree name lookup with
    | none => .error (.moduleNotFound specifier (Path.display lookup))
    | some directory =>
      (Manifest.read tree directory).map fun manifest =>
        packageTarget (manifest.getD {}) conditions directory part

/-- The path that a specifier names, seen from a directory. -/
def targetPath (tree : FileTree) (specifier : Text) (lookup : Path) (conditions : List Text) :
    Except ImportError Path :=
  if "file:".toList.isPrefixOf specifier then
    match FileUrl.toPath? specifier with
    | some p => .ok p
    | none => .error (.invalidSpecifier specifier "not a local file URL".toList)
  else if specifier.head? = some '/' then .ok (Path.ofText specifier)
  else if isRelative specifier then .ok (Path.join lookup (Path.ofText specifier))
  else packagePath tree specifier lookup conditions

/-- The URL of a path. -/
def urlOf (p : Path) : Except ImportError Text :=
  match FileUrl.ofPath? p with
  | some url => .ok url
  | none => .error (.invalidSpecifier (Path.display p) "path is not absolute".toList)

/-- The answer for a specifier that names no built-in module. -/
def resolveFile (disk : Disk) (specifier : Text) (context : ResolveContext) :
    Except ImportError Resolved := do
  let lookup ← disk.lookupDirectory specifier context
  let target ← targetPath disk.tree specifier lookup context.conditions
  match fileAt? disk.tree (Path.normalize target) with
  | none => .error (.moduleNotFound specifier (Path.display lookup))
  | some file => .ok { url := ← urlOf file, format := ← formatOf disk.tree file }

/-- The **answer** to a request to resolve. -/
def resolve (disk : Disk) : Resolver (Except ImportError) := fun specifier context =>
  if specifier.isEmpty then .error (.invalidSpecifier specifier "empty specifier".toList)
  else match builtinUrl? specifier with
    | some url => .ok { url, format := some .builtin }
    | none => disk.resolveFile specifier context

/-! ### Loading -/

/-- The format as which a module is loaded: that of the request, or else its own. -/
def loadFormat (tree : FileTree) (url : Text) (p : Path) :
    Option Format → Except ImportError Format
  | some format => .ok format
  | none =>
    match formatOf tree p with
    | .ok (some format) => .ok format
    | .ok none => .error (.invalidSpecifier url "unknown file extension".toList)
    | .error e => .error e

/-- The **answer** to a request to load. -/
def load (disk : Disk) : Loader (Except ImportError) := fun url context =>
  if builtinScheme.isPrefixOf url then .ok { format := .builtin, source := none }
  else match FileUrl.toPath? url with
    | none => .error (.invalidSpecifier url "only file: and node: URLs can be loaded".toList)
    | some p => do
      let format ← loadFormat disk.tree url p context.format
      match disk.tree.read p with
      | .ok source => .ok { format, source := some source }
      | .error .missing => .error (.moduleNotFound url "the file system".toList)
      | .error _ => .error (.unreadable p)

/-- The disk as a host. -/
def host (disk : Disk) : Host (Except ImportError) := ⟨disk.resolve, disk.load⟩

end Disk

end Lectern.Import
