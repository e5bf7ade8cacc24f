import Lectern.Directive
import Lectern.Path
import Lectern.Text.Dictionary
import Lectern.Text.Quoted

/-!
# Settings

What a site can set: its title, the directories of its pages, how its Markdown is read, the names
of its components, and the package of the interpreter. All settings have defaults, and settings
that make no sense are named by their problems.

* `Settings.problems` — everything that is wrong with settings, in a fixed order.
* `SettingsError.message` — the text of an error.
-/

namespace Lectern

/-- The **site**, as its manifest describes it. -/
structure Site where
  title : Text := "Road to λ-Calculus".toList
  description : Text := "Learn lambda calculus interactively!".toList
deriving DecidableEq, Repr

/-- The **directories** of the lessons and of the pages made from them. -/
structure Directories where
  source : Path
  output : Path
deriving DecidableEq, Repr

/-- The **interpreter** that runs expressions: the name of its package and its entry file, seen
from the directory where packages are installed; that is the working directory unless `root` is
set. -/
structure Interpreter where
  package : Text := "lamcalc".toList
  entry : Text := "node_modules/lamcalc/lamcalc.js".toList
  root : Option Path := none
deriving DecidableEq, Repr

/-- The **settings** of a site. `macros` are shorthands beyond the standard ones, and `file` is
where the settings were read. -/
structure Settings where
  site : Site := {}
  directories : Directories
  docId : Option Text := none
  macros : Dictionary := .empty
  components : ComponentNames := {}
  interpreter : Interpreter := {}
  file : Option Path := none
deriving DecidableEq, Repr

namespace Settings

/-! ### Fields -/

/-- A **field** of the settings that messages may name. -/
inductive Field where
  | title
  | description
  | source
  | output
  | reference
  | definition
  | listing
  | interactive
  | clientOnly
  | package
  | entry
  | root
deriving DecidableEq, Repr

/-- The name of a field, after that of its section. -/
def Field.name : Field → Text
  | .title => "site.title".toList
  | .description => "site.description".toList
  | .source => "docs.source_dir".toList
  | .output => "docs.out_dir".toList
  | .reference => "components.static".toList
  | .definition => "components.definition".toList
  | .listing => "components.listing".toList
  | .interactive => "components.interactive".toList
  | .clientOnly => "components.client_only".toList
  | .package => "loader.package".toList
  | .entry => "loader.entry".toList
  | .root => "loader.root".toList

/-! ### Problems -/

/-- A **problem** of settings. -/
inductive Problem where
  | empty (field : Field)
  | blankDocId
  | emptyPattern
  | notTagName (field : Field) (name : Text)
  | absoluteEntry
deriving DecidableEq, Repr

/-- The text of a problem. -/
def Problem.message : Problem → Text
  | .empty field => field.name ++ " cannot be empty".toList
  | .blankDocId => "markdown.doc_id must be non-empty and contain no whitespace".toList
  | .emptyPattern => "markdown.macros cannot have an empty pattern".toList
  | .notTagName field name =>
    field.name ++ " is not a valid tag name: ".toList ++ Text.quote name
  | .absoluteEntry => Field.entry.name ++ " must be relative to ".toList ++ Field.root.name

/-- Whether `c` can be part of a tag name. -/
def isTagChar (c : Char) : Bool := c.isAlphanum || c == '-' || c == '_' || c == '.'

/-- Whether `name` is a **tag name**: a letter, and after it letters, digits and three signs. -/
def isTagName : Text → Bool
  | [] => false
  | c :: rest => c.isAlpha && rest.all isTagChar

/-- The problem of a field that is empty. -/
def emptyProblem (field : Field) (value : Text) : List Problem :=
  if value = [] then [.empty field] else []

/-- The problem of a field that should be a tag name. -/
def tagProblem (field : Field) (name : Text) : List Problem :=
  if name = [] then [.empty field]
  else if isTagName name then []
  else [.notTagName field name]

/-- The problem of a name for the document. -/
def docIdProblem : Option Text → List Problem
  | some docId => if docId = [] || docId.any Unicode.isBlank then [.blankDocId] else []
  | none => []

/-- The problem of shorthands. -/
def macrosProblem (macros : Dictionary) : List Problem :=
  if macros.entries.any fun entry => entry.1 = [] then [.emptyPattern] else []

/-- The problems of component names. -/
def componentProblems (names : ComponentNames) : List Problem :=
  tagProblem .reference names.reference ++ tagProblem .definition names.definition ++
    tagProblem .listing names.listing ++ tagProblem .interactive names.interactive ++
    tagProblem .clientOnly names.clientOnly

/-- The problems of an interpreter. -/
def interpreterProblems (interpreter : Interpreter) : List Problem :=
  emptyProblem .package interpreter.package ++ emptyProblem .entry interpreter.entry ++
    if Path.isAbsolute (Path.ofText interpreter.entry) then [.absoluteEntry] else []

/-- The **problems** of settings, the most pressing first. -/
def problems (settings : Settings) : List Problem :=
  emptyProblem .title settings.site.title ++ docIdProblem settings.docId ++
    macrosProblem settings.macros ++ componentProblems settings.components ++
    interpreterProblems settings.interpreter

/-- Settings **make sense** if they have no problems. -/
def IsValid (settings : Settings) : Prop := settings.problems = []

instance (settings : Settings) : Decidable settings.IsValid :=
  inferInstanceAs (Decidable (_ = _))

/-! ### Defaults -/

/-- The settings of a site without any, whose directories lie in `base`. -/
def inDirectory (base : Path) : Settings :=
  { directories :=
      { source := Path.join base (Path.ofText "docs".toList)
        output := Path.join base (Path.ofText "dist".toList) } }

end Settings

/-! ### Errors -/

/-- Why there are **no settings**: the file is missing, cannot be read, or is no TOML of the right
shape; the settings have a problem; or they refer to a variable that is not set. -/
inductive SettingsError where
  | missing (file : Path)
  | unreadable
  | malformed
  | invalid (problem : Settings.Problem)
  | unset (field : Settings.Field) (variableName : Text)
deriving DecidableEq, Repr

/-- The text of an error. What the system says about a file is not part of it. -/
def SettingsError.message : SettingsError → Text
  | .missing file => "Configuration file not found: ".toList ++ Path.display file
  | .unreadable => "I/O error".toList
  | .malformed => "TOML parse error".toList
  | .invalid problem => "Configuration error: ".toList ++ problem.message
  | .unset field variableName =>
    "Environment variable error in ".toList ++ field.name ++ ": $\x7b".toList ++ variableName ++
      "\x7d not set".toList

end Lectern
