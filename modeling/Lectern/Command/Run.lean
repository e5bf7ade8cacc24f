import Lectern.Command.Basic
import Lectern.Command.Report
import Lectern.Import.Disk
import Lectern.Import.ReservedPackage
import Lectern.Site.Build

/-!
# Running Commands

What a command does, as a function of what it finds. Settings are loaded first; what is shown goes
to the output, and everything said about the way goes to the messages. Only building a site
changes files.

* `Command.run` — the outcome of a command.
-/

namespace Lectern

/-- Why a command **fails**. -/
inductive CommandError where
  | settings (error : SettingsError)
  | imports (error : Import.ImportError)
  | build (error : Site.BuildError)
deriving DecidableEq, Repr

/-- The text of an error. -/
def CommandError.message : CommandError → Text
  | .settings error => error.message
  | .imports error => error.message
  | .build error => error.message

/-- The **outcome** of a command: the files after it, what it shows, the lines it says, and how it
ends. -/
structure Outcome where
  tree : FileTree
  output : Text := []
  messages : List Text := []
  result : Except CommandError Unit

namespace Command

/-! ### Showing -/

/-- A document as it is shown: its last line has an end. -/
def finishLine (document : Text) : Text :=
  if document.getLast? = some '\n' then document else document ++ ['\n']

/-- The outcome of a command that shows a document. -/
def showing (here : Surroundings) : Except CommandError Text → Outcome
  | .ok document => { tree := here.tree, output := finishLine document, result := .ok () }
  | .error error => { tree := here.tree, result := .error error }

/-- A source in the form that is asked for. -/
def pageIn (settings : Settings) (form : PageForm) (source : Text) : Except CommandError Text :=
  let rendered := (settings.render source).mapError fun _ => .build .fault
  match form with
  | .html => rendered.map (·.html)
  | .json => rendered.map (·.toJson.pretty)
  | .markdown => .ok (settings.pipeline.preprocess source)
  | .directives =>
    let found := Directive.scan (settings.shorthands.apply source)
    .ok (Json.array (found.map Directive.toJson)).pretty

/-- The **page** of a file. -/
def page (here : Surroundings) (settings : Settings) (file : Path) (form : PageForm) :
    Except CommandError Text :=
  match here.readText? file with
  | some source => pageIn settings form source
  | none => .error (.build (.page file))

/-! ### Imports -/

/-- The **chain** that answers imports: the host on disk, with the hook of the interpreter in front
of it. Both see the directory where packages are installed. -/
def chain (here : Surroundings) (settings : Settings) :
    Except CommandError (Import.Chain (Except Import.ImportError)) :=
  match settings.rootDirectory? here.workingDirectory with
  | none => .error (.settings .unreadable)
  | some root =>
    let package : Import.ReservedPackage :=
      { root, name := settings.interpreter.package, entry := settings.interpreter.entry }
    let disk : Import.Disk :=
      { tree := here.tree, workingDirectory := here.workingDirectory, baseDirectory := root }
    .ok ((Import.Chain.mk disk.host []).register package.hook)

/-- The **resolved** specifier, as it is shown. -/
def resolved (here : Surroundings) (settings : Settings) (specifier : Text)
    (context : Import.ResolveContext) : Except CommandError Text := do
  let imports ← chain here settings
  let answer ← (imports.resolve specifier context).mapError .imports
  .ok answer.toJson.pretty

/-- The **loaded** module, as it is shown. -/
def loaded (here : Surroundings) (settings : Settings) (url : Text)
    (context : Import.LoadContext) : Except CommandError Text := do
  let imports ← chain here settings
  let answer ← (imports.load url context).mapError .imports
  .ok (answer.report url).pretty

/-! ### Building -/

/-- What is said before a site is built. -/
def announcement (settings : Settings) : List Text :=
  [settings.site.title,
    "Source: ".toList ++ Path.display settings.directories.source,
    "Output: ".toList ++ Path.display settings.directories.output]

/-- What is said about a source directory without lessons. -/
def warning (settings : Settings) (lessons : List Lesson) : List Text :=
  if lessons.isEmpty then
    ["No markdown files found in ".toList ++ Path.display settings.directories.source]
  else []

/-- What is said after a site has been built. -/
def farewell (settings : Settings) (count : Nat) : Text :=
  "Built ".toList ++ Text.decimal count ++ " pages to ".toList ++
    Path.display settings.directories.output

/-- The outcome of **building** a site. -/
def building (here : Surroundings) (settings : Settings) : Outcome :=
  match Site.lessons here settings with
  | .error error =>
    { tree := here.tree, messages := announcement settings, result := .error (.build error) }
  | .ok lessons =>
    let said := announcement settings ++ warning settings lessons
    match Site.build here settings lessons with
    | (tree, .ok count) => { tree, messages := said ++ [farewell settings count], result := .ok () }
    | (tree, .error error) => { tree, messages := said, result := .error (.build error) }

/-! ### Commands -/

/-- The outcome of a command with its settings. -/
def runWith (here : Surroundings) (settings : Settings) : Command → Outcome
  | .build _ _ => building here settings
  | .render _ file form _ => showing here (page here settings file form)
  | .resolve _ specifier parentUrl conditions =>
    showing here (resolved here settings specifier { parentUrl, conditions })
  | .load _ url format => showing here (loaded here settings url { format })

/-- The **outcome** of a command. -/
def run (here : Surroundings) (command : Command) : Outcome :=
  match Settings.load here command.settingsFile command.overrides with
  | .error error => { tree := here.tree, result := .error (.settings error) }
  | .ok settings => command.runWith here settings

end Command

end Lectern
