import Lectern.Command.Arguments
import Lectern.Import.Format
import Lectern.Settings.Load

/-!
# Commands

The commands of the program, and how a command line stands for one. Paths on the command line are
not empty; the switches that choose the form of a rendered page exclude each other.

* `Command.parse?` — the command that a command line stands for.
-/

namespace Lectern

/-- The form in which a page is **shown**: as HTML, as the Markdown that its source stands for, as
the list of its directives, or as a record with title and contents. -/
inductive PageForm where
  | html
  | markdown
  | directives
  | json
deriving DecidableEq, Repr

/-- A **command**. Each looks for its settings in a file that may be named. -/
inductive Command where
  /-- Builds the whole site. -/
  | build (settings : Option Path) (overrides : Settings.Overrides)
  /-- Shows the page of one file. -/
  | render (settings : Option Path) (file : Path) (form : PageForm) (docId : Option Text)
  /-- Shows to what a specifier resolves. -/
  | resolve (settings : Option Path) (specifier : Text) (parentUrl : Option Text)
      (conditions : List Text)
  /-- Shows the module at a URL. -/
  | load (settings : Option Path) (url : Text) (format : Option Import.Format)
deriving Repr

namespace Command

/-! ### Options -/

/-- The switch that asks for more messages. -/
def verbose : CommandOption := ⟨"verbose".toList, some 'v', false, false⟩

/-- The option for the file of the settings. -/
def config : CommandOption := ⟨"config".toList, some 'c', true, false⟩

/-- The option for the source directory. -/
def sourceDir : CommandOption := ⟨"source-dir".toList, some 's', true, false⟩

/-- The option for the output directory. -/
def outputDir : CommandOption := ⟨"output-dir".toList, some 'o', true, false⟩

/-- The option for the name of the document. -/
def docId : CommandOption := { name := "doc-id".toList }

/-- The switch for a page as Markdown. -/
def preprocess : CommandOption := { name := "preprocess".toList, takesValue := false }

/-- The switch for the directives of a page. -/
def directives : CommandOption := { name := "directives".toList, takesValue := false }

/-- The switch for a page as a record. -/
def json : CommandOption := { name := "json".toList, takesValue := false }

/-- The option for the URL of the importing module. -/
def parent : CommandOption := { name := "parent".toList }

/-- The option for a condition of exports. -/
def condition : CommandOption := { name := "condition".toList, repeats := true }

/-- The option for the format of a module. -/
def format : CommandOption := { name := "format".toList }

/-- The value of an option that is a path, if it is given. -/
def path? (arguments : Arguments) (option : CommandOption) : Option (Option Path) :=
  match arguments.value? option.name with
  | none => some none
  | some [] => none
  | some written => some (some (Path.ofText written))

/-- The form that the switches choose. -/
def form? (arguments : Arguments) : Option PageForm :=
  match arguments.has preprocess.name, arguments.has directives.name, arguments.has json.name with
  | false, false, false => some .html
  | true, false, false => some .markdown
  | false, true, false => some .directives
  | false, false, true => some .json
  | _, _, _ => none

/-! ### Command lines -/

/-- The command `build` with its arguments. -/
def build? (line : List Text) : Option Command := do
  let arguments ← Arguments.read? [verbose, config, sourceDir, outputDir, docId] line
  let [] := arguments.operands | none
  let settings ← path? arguments config
  let source ← path? arguments sourceDir
  let output ← path? arguments outputDir
  some (.build settings { source, output, docId := arguments.value? docId.name })

/-- The command `render` with its arguments. -/
def render? (line : List Text) : Option Command := do
  let arguments ← Arguments.read? [verbose, config, docId, preprocess, directives, json] line
  let [c :: file] := arguments.operands | none
  let settings ← path? arguments config
  let form ← form? arguments
  some (.render settings (Path.ofText (c :: file)) form (arguments.value? docId.name))

/-- The command `loader resolve` with its arguments. -/
def resolve? (line : List Text) : Option Command := do
  let arguments ← Arguments.read? [verbose, config, parent, condition] line
  let [specifier] := arguments.operands | none
  let settings ← path? arguments config
  some (.resolve settings specifier (arguments.value? parent.name)
    (arguments.values condition.name))

/-- The format that an option names, if it is given. -/
def format? (arguments : Arguments) : Option (Option Import.Format) :=
  match arguments.value? format.name with
  | none => some none
  | some name => (Import.Format.ofName? name).map some

/-- The command `loader load` with its arguments. -/
def load? (line : List Text) : Option Command := do
  let arguments ← Arguments.read? [verbose, config, format] line
  let [url] := arguments.operands | none
  let settings ← path? arguments config
  let named ← format? arguments
  some (.load settings url named)

/-- The rest of a command line after the switch for more messages. -/
def skipVerbose : List Text → List Text
  | [] => []
  | argument :: rest =>
    if argument = "-v".toList || argument = "--verbose".toList then rest else argument :: rest

/-- One of the commands `loader`, with its arguments. -/
def loader? (line : List Text) : Option Command :=
  match skipVerbose line with
  | [] => none
  | name :: rest =>
    if name = "resolve".toList then resolve? rest
    else if name = "load".toList then load? rest
    else none

/-- The **command** that a command line stands for. -/
def parse? (line : List Text) : Option Command :=
  match skipVerbose line with
  | [] => none
  | name :: rest =>
    if name = "build".toList then build? rest
    else if name = "render".toList then render? rest
    else if name = "loader".toList then loader? rest
    else none

/-- The file of the settings that a command names. -/
def settingsFile : Command → Option Path
  | .build settings _ => settings
  | .render settings _ _ _ => settings
  | .resolve settings _ _ _ => settings
  | .load settings _ _ => settings

/-- What a command asks for instead of the settings of the file. -/
def overrides : Command → Settings.Overrides
  | .build _ overrides => overrides
  | .render _ _ _ docId => { docId }
  | .resolve _ _ _ _ => {}
  | .load _ _ _ => {}

end Command

end Lectern
