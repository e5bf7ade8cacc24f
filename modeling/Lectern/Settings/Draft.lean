import Lectern.Settings.Basic
import Lectern.Settings.Expansion
import Lectern.Toml.Parser

/-!
# Drafts of Settings

A draft holds settings as their file has them: references to variables are still there, and
directories are not yet seen from anywhere. It becomes settings in two steps.

* `Draft.ofToml?` — the draft in a document.
* `Draft.expand` — the draft with its references replaced.
* `Draft.resolve` — the settings of a draft whose file lies in a given directory.
-/

namespace Lectern.Settings

/-- A **draft** of settings. -/
structure Draft where
  site : Site := {}
  source : Option Text := none
  output : Option Text := none
  docId : Option Text := none
  macros : Dictionary := .empty
  components : ComponentNames := {}
  package : Option Text := none
  entry : Option Text := none
  root : Option Text := none
deriving DecidableEq, Repr

namespace Draft

/-! ### Reading -/

/-- The fields of a section of a document, each present or not. -/
def sectionFields? (document : Toml.Entries) (name : Text) (fields : List Text) :
    Option (List (Option Toml)) :=
  match Toml.lookup? name document with
  | none => some (fields.map fun _ => none)
  | some value => value.fields? fields

/-- A dictionary from a table of strings. -/
def dictionary? : Toml → Option Dictionary
  | .table _ entries => do
    let pairs ← entries.mapM fun (key, value) => do some (key, ← value.text?)
    some (.ofList pairs)
  | _ => none

/-- A string that may be missing. -/
def textOr? (default : Text) : Option Toml → Option Text := Toml.required? default Toml.text?

/-- A string without a default. -/
def text? : Option Toml → Option (Option Text) := Toml.optional? Toml.text?

/-- The site in a document. -/
def site? (document : Toml.Entries) : Option Site := do
  let [title, description] ←
    sectionFields? document "site".toList ["title".toList, "description".toList] | none
  let default : Site := {}
  some {
    title := ← textOr? default.title title
    description := ← textOr? default.description description }

/-- The component names in a document. -/
def components? (document : Toml.Entries) : Option ComponentNames := do
  let [reference, definition, listing, interactive, clientOnly] ←
    sectionFields? document "components".toList
      ["static".toList, "definition".toList, "listing".toList, "interactive".toList,
        "client_only".toList] | none
  let default : ComponentNames := {}
  some {
    reference := ← textOr? default.reference reference
    definition := ← textOr? default.definition definition
    listing := ← textOr? default.listing listing
    interactive := ← textOr? default.interactive interactive
    clientOnly := ← textOr? default.clientOnly clientOnly }

/-- The **draft** in a document, in which sections and fields of other names do not count. -/
def ofToml? (document : Toml.Entries) : Option Draft := do
  let [source, output] ←
    sectionFields? document "docs".toList ["source_dir".toList, "out_dir".toList] | none
  let [docId, macros] ←
    sectionFields? document "markdown".toList ["doc_id".toList, "macros".toList] | none
  let [package, entry, root] ←
    sectionFields? document "loader".toList ["package".toList, "entry".toList, "root".toList] | none
  some {
    site := ← site? document
    source := ← text? source
    output := ← text? output
    docId := ← text? docId
    macros := ← Toml.required? .empty dictionary? macros
    components := ← components? document
    package := ← text? package
    entry := ← text? entry
    root := ← text? root }

/-- The draft in the text of a document. -/
def parse? (s : Text) : Option Draft := (Toml.parse? s).bind ofToml?

/-! ### References -/

/-- The value of a field with its references replaced. -/
def expandField (environment : Environment) (field : Field) (value : Text) :
    Except SettingsError Text :=
  (Settings.expand environment value).mapError (.unset field)

/-- The value of a field that may be missing. -/
def expandOptional (environment : Environment) (field : Field) :
    Option Text → Except SettingsError (Option Text)
  | none => .ok none
  | some value => (expandField environment field value).map some

/-- The draft with the references **replaced** in its texts for readers and in its paths. The
error is that of the first field that has one. -/
def expand (environment : Environment) (draft : Draft) : Except SettingsError Draft := do
  let title ← expandField environment .title draft.site.title
  let description ← expandField environment .description draft.site.description
  let source ← expandOptional environment .source draft.source
  let output ← expandOptional environment .output draft.output
  let root ← expandOptional environment .root draft.root
  .ok { draft with site := { title, description }, source, output, root }

/-- The variables that the fields of a draft refer to. -/
def variableNames (draft : Draft) : List Text :=
  ([draft.site.title, draft.site.description] ++ draft.source.toList ++ draft.output.toList ++
    draft.root.toList).flatMap Settings.variableNames

/-! ### Directories -/

/-- The path that a setting means in a file in `directory`. -/
def pathIn (directory : Path) (written : Text) : Path :=
  if written = [] || written = ['.'] then directory
  else Path.join directory (Path.ofText written)

/-- The **settings** of a draft whose file lies in `directory`. -/
def resolve (directory : Path) (draft : Draft) : Settings where
  site := draft.site
  directories :=
    { source := pathIn directory (draft.source.getD "docs".toList)
      output := pathIn directory (draft.output.getD "dist".toList) }
  docId := draft.docId
  macros := draft.macros
  components := draft.components
  interpreter :=
    let default : Interpreter := {}
    { package := draft.package.getD default.package
      entry := draft.entry.getD default.entry
      root := draft.root.map (pathIn directory) }

end Draft

end Lectern.Settings
