import Lectern.Command.Run

/-!
# The Program

The outermost layer: it takes a picture of the files that a command can look at, runs the command
on it, and brings the changes back to the disk. Everything else is decided by `Command.run`.
-/

namespace Lectern.Program

/-- How deep directories are followed. -/
def maxDepth : Nat := 64

/-- The name of a path for the system. -/
def systemName (p : Path) : String := String.ofList (Path.display p)

/-! ### Looking at the disk -/

/-- What is found at an absolute path and, down to the given depth, below it. -/
def entriesAt : Nat → Path → IO (List (Location × Entry))
  | depth, p => do
    match ← (IO.FS.realPath (systemName p)).toBaseIO with
    | .error _ => return []
    | .ok real =>
      let location := Path.normalizedNames p
      if ← real.isDir then
        match depth with
        | 0 => return [(location, .directory)]
        | depth + 1 =>
          let names := (← real.readDir).toList.map fun entry => Path.ofText entry.fileName.toList
          let below ← names.mapM fun name => entriesAt depth (Path.join p name)
          return (location, .directory) :: below.flatten
      else
        return [(location, .file (← IO.FS.readBinFile real).toList)]

/-- The directories on the way to an absolute path, with their settings and manifests. -/
def entriesAbove (p : Path) : IO (List (Location × Entry)) := do
  let looked ← (Path.ancestors p).mapM fun directory => do
    let files ← [Settings.fileName, Import.Manifest.fileName].mapM fun name =>
      entriesAt 0 (Path.join directory name)
    return (← entriesAt 0 directory) ++ files.flatten
  return looked.flatten

/-- The packages that are installed in the directories on the way to an absolute path. -/
def packagesAbove (p : Path) : IO (List (Location × Entry)) := do
  let looked ← (Path.ancestors p).mapM fun directory =>
    entriesAt maxDepth (Path.join directory (Path.ofText "node_modules".toList))
  return looked.flatten

/-- The paths that a command can look at. -/
def reach (here : Surroundings) (settings : Settings) : Command → List Path
  | .build _ _ =>
    [settings.directories.source, settings.directories.output] ++
      (settings.interpreterManifest? here.workingDirectory).toList
  | .render _ file _ _ => [file]
  | .resolve _ _ parentUrl _ =>
    (settings.rootDirectory? here.workingDirectory).toList ++
      ((parentUrl.bind FileUrl.toPath?).bind Path.parent?).toList
  | .load _ url _ => (FileUrl.toPath? url).toList

/-- Whether a command looks for packages. -/
def importsPackages : Command → Bool
  | .resolve _ _ _ _ => true
  | _ => false

/-- The picture of the files that a command can look at. -/
def picture (here : Surroundings) (settings : Settings) (command : Command) : IO FileTree := do
  let looked ← (reach here settings command).mapM fun p => do
    let place := here.place p
    let packages ← if importsPackages command then packagesAbove place else pure []
    return (← entriesAbove place) ++ packages ++ (← entriesAt maxDepth place)
  return ⟨here.tree.entries ++ looked.flatten⟩

/-- The values of the variables that the settings in a file refer to. -/
def environment (here : Surroundings) (file : Option Path) : IO Settings.Environment := do
  let draft := (file.bind here.readText?).bind Settings.Draft.parse?
  let names := (draft.map Settings.Draft.variableNames).getD []
  let values ← names.mapM fun name => do
    return (name, (← IO.getEnv (String.ofList name)).map String.toList)
  return fun name => (values.find? fun entry => entry.1 == name).bind (·.2)

/-! ### Changing the disk -/

/-- Writes what a command has changed. -/
def writeChanges (before after : FileTree) : IO Unit := do
  for (location, entry) in after.entries do
    if before.entry? location != some entry then
      match entry with
      | .directory => IO.FS.createDirAll (systemName (Path.ofNames true location))
      | .file content =>
        IO.FS.createDirAll (systemName (Path.ofNames true location.dropLast))
        IO.FS.writeBinFile (systemName (Path.ofNames true location)) ⟨content.toArray⟩

/-! ### Running -/

/-- What is said when a command line stands for no command. -/
def usage : String :=
  "Usage: lamdocs <build | render FILE | loader resolve SPECIFIER | loader load URL> [OPTIONS]"

/-- Runs a command and tells how it ended. -/
def runCommand (command : Command) : IO UInt32 := do
  let workingDirectory := Path.ofText (← IO.currentDir).toString.toList
  let named := command.settingsFile.map (Path.join workingDirectory)
  let entries := (← entriesAbove workingDirectory) ++
    (← named.toList.mapM fun p => do return (← entriesAbove p) ++ (← entriesAt 0 p)).flatten
  let blind : Surroundings := { tree := ⟨entries⟩, workingDirectory, environment := fun _ => none }
  let file := command.settingsFile.or (Settings.discover? blind)
  let seeing := { blind with environment := ← environment blind file }
  let tree ← match Settings.load seeing command.settingsFile command.overrides with
    | .ok settings => picture seeing settings command
    | .error _ => pure seeing.tree
  let outcome := command.run { seeing with tree }
  writeChanges tree outcome.tree
  for line in outcome.messages do
    IO.eprintln (String.ofList line)
  IO.print (String.ofList outcome.output)
  match outcome.result with
  | .ok _ => return 0
  | .error error =>
    IO.eprintln ("Error: " ++ String.ofList error.message)
    return 1

end Lectern.Program

/-- The **program**: runs the command that its arguments stand for. -/
def main (arguments : List String) : IO UInt32 :=
  match Lectern.Command.parse? (arguments.map String.toList) with
  | some command => Lectern.Program.runCommand command
  | none => do
    IO.eprintln Lectern.Program.usage
    return 2
