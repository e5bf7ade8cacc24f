import Lectern.Import.Format
import Lectern.Json.Parser
import Lectern.Json.Printer
import Lectern.Text.Dictionary

/-!
# Requests and Answers

An import takes two requests: one that **resolves** a specifier to the URL of a module, and one
that **loads** the module from its URL. Each carries a context, which has a JSON form: a record
whose fields may all be missing. This module has the contexts, their JSON forms, the answers, and
the reasons for which there is none.

* `ResolveContext.parse?`, `ResolveContext.serialize` — the JSON form of a context, read and
  written; the same for `LoadContext`.
* `ImportError.message` — the text of an error.
-/

namespace Lectern.Import

/-! ### Contexts -/

/-- The context of a request to resolve. -/
structure ResolveContext where
  conditions : List Text := []
  attributes : Dictionary := .empty
  parentUrl : Option Text := none
  format : Option Format := none
deriving DecidableEq, Repr

/-- The context of a request to load. -/
structure LoadContext where
  conditions : List Text := []
  attributes : Dictionary := .empty
  format : Option Format := none
deriving DecidableEq, Repr

/-- The context with another format. -/
def LoadContext.withFormat (context : LoadContext) (format : Format) : LoadContext :=
  { context with format := some format }

/-! ### Contexts as JSON -/

/-- Attributes as an object of strings. -/
def attributesJson (attributes : Dictionary) : Json :=
  .ofMembers (attributes.entries.map fun (key, value) => (key, .ofText value))

/-- Attributes from an object of strings. -/
def readAttributes? : Json → Option Dictionary
  | .object members => do
    let entries ← members.mapM fun (key, value) => do some (← key, ← value.text?)
    some (.ofList entries)
  | _ => none

/-- A format as its name. -/
def Format.toJson (format : Format) : Json := .ofText format.name

/-- A format from its name, or from an object whose only member has the name and no value. -/
def Format.ofJson? : Json → Option Format
  | .string (some name) => Format.ofName? name
  | .object [(some name, .null)] => Format.ofName? name
  | _ => none

namespace ResolveContext

/-- The names of the fields, in order. -/
def fieldNames : List Text :=
  ["conditions".toList, "importAttributes".toList, "parentUrl".toList, "format".toList]

/-- A context as a record. -/
def toJson (context : ResolveContext) : Json :=
  .ofMembers [
    ("conditions".toList, .array (context.conditions.map .ofText)),
    ("importAttributes".toList, attributesJson context.attributes),
    ("parentUrl".toList, .ofOption .ofText context.parentUrl),
    ("format".toList, .ofOption Format.toJson context.format)]

/-- A context from a record. -/
def ofJson? (document : Json) : Option ResolveContext := do
  let [conditions, attributes, parentUrl, format] ← document.fields? fieldNames | none
  some {
    conditions := ← Json.required? [] Json.texts? conditions
    attributes := ← Json.required? .empty readAttributes? attributes
    parentUrl := ← Json.optional? Json.text? parentUrl
    format := ← Json.optional? Format.ofJson? format }

/-- A context from the text of its JSON form. -/
def parse? (s : Text) : Option ResolveContext := (Json.parse? s).bind ofJson?

/-- The text of the JSON form of a context. -/
def serialize (context : ResolveContext) : Text := context.toJson.compact

end ResolveContext

namespace LoadContext

/-- The names of the fields, in order. -/
def fieldNames : List Text :=
  ["conditions".toList, "importAttributes".toList, "format".toList]

/-- A context as a record. -/
def toJson (context : LoadContext) : Json :=
  .ofMembers [
    ("conditions".toList, .array (context.conditions.map .ofText)),
    ("importAttributes".toList, attributesJson context.attributes),
    ("format".toList, .ofOption Format.toJson context.format)]

/-- A context from a record. -/
def ofJson? (document : Json) : Option LoadContext := do
  let [conditions, attributes, format] ← document.fields? fieldNames | none
  some {
    conditions := ← Json.required? [] Json.texts? conditions
    attributes := ← Json.required? .empty readAttributes? attributes
    format := ← Json.optional? Format.ofJson? format }

/-- A context from the text of its JSON form. -/
def parse? (s : Text) : Option LoadContext := (Json.parse? s).bind ofJson?

/-- The text of the JSON form of a context. -/
def serialize (context : LoadContext) : Text := context.toJson.compact

end LoadContext

/-! ### Answers -/

/-- A **resolved** specifier. A hook that answers without asking further marks its answer. -/
structure Resolved where
  url : Text
  format : Option Format
  shortCircuit : Bool := false
deriving DecidableEq, Repr

/-- A **loaded** module. Built-in modules have no source. -/
structure Loaded where
  format : Format
  source : Option Bytes
  shortCircuit : Bool := false
deriving DecidableEq, Repr

/-- The source as text, if there is one and it is text. -/
def Loaded.sourceText? (loaded : Loaded) : Option Text := loaded.source.bind Text.decode?

/-- Why a request has **no answer**: nothing fits the specifier, it cannot be understood, a file
cannot be read, or the manifest of a package is malformed. -/
inductive ImportError where
  | moduleNotFound (specifier origin : Text)
  | invalidSpecifier (specifier reason : Text)
  | unreadable (path : Path)
  | malformedManifest (path : Path)
deriving DecidableEq, Repr

/-- The text of an error. What the system says about a file is not part of it. -/
def ImportError.message : ImportError → Text
  | .moduleNotFound specifier origin =>
    "Cannot find module '".toList ++ specifier ++ "' imported from ".toList ++ origin
  | .invalidSpecifier specifier reason =>
    "Invalid module specifier '".toList ++ specifier ++ "': ".toList ++ reason
  | .unreadable path => "Failed to read ".toList ++ Path.display path
  | .malformedManifest path => "Invalid package.json at ".toList ++ Path.display path

end Lectern.Import
