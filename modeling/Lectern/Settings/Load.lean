import Lectern.FileTree
import Lectern.Json.Parser
import Lectern.Settings.Draft

/-!
# Loading Settings

Settings come from a file, either the one that is asked for or the first `lamdocs.toml` on the way
from the working directory to the root. Without a file all settings have their defaults. What is
asked for on the command line counts more than the file.

* `Settings.load` — the settings that a program finds.
* `Settings.interpreterVersion` — the version of the installed interpreter.
-/

namespace Lectern

/-- What a program **finds** when it starts. -/
structure Surroundings where
  tree : FileTree
  workingDirectory : Path
  environment : Settings.Environment

namespace Surroundings

/-- The place of a path, as seen from the working directory. -/
def place (here : Surroundings) (p : Path) : Path :=
  if p = [] then [] else Path.join here.workingDirectory p

/-- What a path leads to. -/
def find (here : Surroundings) (p : Path) : Except PathFault Entry := here.tree.find (here.place p)

/-- Whether a path leads to something. -/
def has (here : Surroundings) (p : Path) : Bool := (here.find p).toOption.isSome

/-- The text in the file that a path leads to. -/
def readText? (here : Surroundings) (p : Path) : Option Text :=
  (here.tree.read (here.place p)).toOption.bind Text.decode?

end Surroundings

namespace Settings

/-! ### Files -/

/-- The name of the file that holds settings. -/
def fileName : Path := Path.ofText "lamdocs.toml".toList

/-- The **closest** settings file, in the working directory or in one above it. -/
def discover? (here : Surroundings) : Option Path :=
  ((Path.ancestors here.workingDirectory).map fun directory =>
    Path.join directory fileName).find? here.has

/-- Settings that make sense, or their first problem. -/
def check (settings : Settings) : Except SettingsError Settings :=
  match settings.problems with
  | [] => .ok settings
  | problem :: _ => .error (.invalid problem)

/-- The settings that a text stands for, in a file with an absolute path. -/
def ofText (environment : Environment) (file : Path) (s : Text) : Except SettingsError Settings :=
  match Draft.parse? s with
  | none => .error .malformed
  | some draft => do
    let expanded ← draft.expand environment
    let directory := (Path.parent? file).getD [Path.dot]
    check { expanded.resolve directory with file := some file }

/-- The settings in a file. -/
def readFile (here : Surroundings) (p : Path) : Except SettingsError Settings :=
  match Path.absolute? here.workingDirectory p with
  | none => .error .unreadable
  | some file =>
    match here.readText? file with
    | none => .error .unreadable
    | some s => ofText here.environment file s

/-! ### Loading -/

/-- What is **asked for** instead of the settings of the file. -/
structure Overrides where
  source : Option Path := none
  output : Option Path := none
  docId : Option Text := none
deriving DecidableEq, Repr

/-- The settings with what is asked for. -/
def override (overrides : Overrides) (settings : Settings) : Settings :=
  { settings with
    directories :=
      { source := overrides.source.getD settings.directories.source
        output := overrides.output.getD settings.directories.output }
    docId := overrides.docId.or settings.docId }

/-- The settings in the file that is asked for, in the closest file, or without a file. -/
def locate (here : Surroundings) : Option Path → Except SettingsError Settings
  | some p => if here.has p then readFile here p else .error (.missing p)
  | none =>
    match discover? here with
    | some p => readFile here p
    | none => .ok (inDirectory here.workingDirectory)

/-- The **settings** that a program finds. What is asked for is not checked. -/
def load (here : Surroundings) (file : Option Path) (overrides : Overrides) :
    Except SettingsError Settings :=
  (locate here file).map (override overrides)

/-! ### The interpreter -/

/-- The directory where packages are installed, seen from a working directory. -/
def rootDirectory? (settings : Settings) (workingDirectory : Path) : Option Path :=
  match settings.interpreter.root with
  | some root => Path.absolute? workingDirectory root
  | none => some workingDirectory

/-- The manifest of the package of the interpreter. -/
def interpreterManifest? (settings : Settings) (workingDirectory : Path) : Option Path :=
  (settings.rootDirectory? workingDirectory).map fun root =>
    Path.join (Path.join (Path.join root (Path.ofText "node_modules".toList))
      (Path.ofText settings.interpreter.package)) (Path.ofText "package.json".toList)

/-- The version that a manifest gives. -/
def versionOf? (manifest : Json) : Option Text :=
  match manifest with
  | .object members =>
    if manifest.isSound && decide (manifest.depth ≤ Json.maxDepth) then
      (Json.lastMember? "version".toList members).bind Json.text?
    else none
  | _ => none

/-- The **version** of the installed interpreter; empty if it cannot be told. -/
def interpreterVersion (settings : Settings) (here : Surroundings) : Text :=
  (((settings.interpreterManifest? here.workingDirectory).bind here.readText?).bind
    Json.parse? |>.bind versionOf?).getD []

end Settings

end Lectern
