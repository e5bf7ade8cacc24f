import Lectern.FileUrl
import Lectern.Import.Hook

/-!
# The Reserved Package

The interpreter that runs the expressions on a page is a package of modern modules whose manifest
does not say so, and a host takes its files for scripts of the older kind. The hook of this module
mends both sides: an import of the package by its name resolves to its entry file without asking
the host, and every script in the directory of the package is loaded as a module.
-/

namespace Lectern.Import

/-- The URL of a path; a relative path, which has none, is written behind two slashes as it is. -/
def entryUrl (p : Path) : Text :=
  (FileUrl.ofPath? p).getD ("file://".toList ++ Path.display p)

/-- A **reserved package** that is installed under `root`; `entry` is its entry file, seen from
there. -/
structure ReservedPackage where
  root : Path
  name : Text := "lamcalc".toList
  entry : Text := "node_modules/lamcalc/lamcalc.js".toList
deriving DecidableEq, Repr

namespace ReservedPackage

/-- The URL to which every import of the package resolves. -/
def url (package : ReservedPackage) : Text :=
  entryUrl (Path.join package.root (Path.ofEntry package.entry))

/-- The part of a URL that leads into the directory of the package. -/
def directory (package : ReservedPackage) : Text :=
  "node_modules/".toList ++ package.name ++ "/".toList

/-- Whether `s` leads into the directory and on to a script, all on one line. -/
def startsOwned (package : ReservedPackage) (s : Text) : Bool :=
  match Text.after? package.directory s with
  | some rest => Text.endsWith rest ".js".toList && rest.all (· != '\n')
  | none => false

/-- Whether `url` **belongs** to the package: it leads to a script in the directory of the
package. -/
def owns (package : ReservedPackage) : Text → Bool
  | [] => false
  | c :: rest => package.startsOwned (c :: rest) || package.owns rest

/-- The name of the hook. -/
def hookName : Text := "reserved_package".toList

/-- The **hook** of the package. -/
def hook {m : Type → Type} [Pure m] (package : ReservedPackage) : Hook m where
  name := hookName
  resolve next specifier context :=
    if specifier = package.name then
      pure { url := package.url, format := some .module, shortCircuit := true }
    else next specifier context
  load next url context :=
    if context.format = some .module || !package.owns url then next url context
    else next url (context.withFormat .module)

end ReservedPackage

end Lectern.Import
