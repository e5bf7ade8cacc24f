import Lectern.Directive
import Lectern.Import.Request
import Lectern.Json.Printer
import Lectern.Page.Writer

/-!
# Reports

What commands show, as JSON: the directives of a page, a page with its title and contents, a
resolved specifier, and a loaded module.
-/

namespace Lectern

/-- A directive as a record. -/
def Directive.toJson : Directive → Json
  | .reference expression =>
    .ofMembers [
      ("kind".toList, .ofText "static_ref".toList),
      ("exp".toList, .ofText expression)]
  | .definition expression alone =>
    .ofMembers [
      ("kind".toList, .ofText "definable_block".toList),
      ("exp".toList, .ofText expression),
      ("block".toList, .bool alone)]
  | .listing file =>
    .ofMembers [
      ("kind".toList, .ofText "definitions_listing".toList),
      ("file".toList, .ofText file)]
  | .interactive context title expression =>
    .ofMembers [
      ("kind".toList, .ofText "interactive_block".toList),
      ("context".toList, .ofText context),
      ("title".toList, .ofText title),
      ("exp".toList, .ofText expression)]

/-- An entry of the contents of a page as a record. -/
def Page.TocEntry.toJson (entry : Page.TocEntry) : Json :=
  .ofMembers [
    ("level".toList, .ofNat entry.level),
    ("title".toList, .ofText entry.title),
    ("id".toList, .ofText entry.id)]

/-- A page as a record. -/
def Page.toJson (page : Page) : Json :=
  .ofMembers [
    ("html".toList, .ofText page.html),
    ("title".toList, .ofOption .ofText page.title),
    ("toc".toList, .array (page.toc.map Page.TocEntry.toJson))]

/-- A resolved specifier as a record. -/
def Import.Resolved.toJson (resolved : Import.Resolved) : Json :=
  .ofMembers [
    ("url".toList, .ofText resolved.url),
    ("format".toList, .ofOption Import.Format.toJson resolved.format),
    ("shortCircuit".toList, .bool resolved.shortCircuit)]

/-- A module that was loaded from a URL, as a record with its fields in the order of their names.
A source that is no text is known by its size. -/
def Import.Loaded.report (url : Text) (loaded : Import.Loaded) : Json :=
  .ofMembers [
    ("bytes".toList, .ofNat ((loaded.source.map List.length).getD 0)),
    ("format".toList, loaded.format.toJson),
    ("shortCircuit".toList, .bool loaded.shortCircuit),
    ("source".toList, .ofOption .ofText loaded.sourceText?),
    ("url".toList, .ofText url)]

end Lectern
