import Lectern.Pipeline
import Lectern.Settings.Basic

/-!
# Pages under Settings

How the settings of a site decide the way from a source to a page: the shorthands of the settings
come after the standard ones, and directives expand into the components of the settings.
-/

namespace Lectern.Settings

/-- The **shorthands** of a site. -/
def shorthands (settings : Settings) : ShorthandSet :=
  settings.macros.entries.foldl
    (fun set (token, replacement) => set.withLiteral token replacement) .standard

/-- The **pipeline** of a site. -/
def pipeline (settings : Settings) : Pipeline :=
  .ofParts settings.shorthands settings.components

/-- The context of all pages of a site. -/
def pageContext (settings : Settings) : Page.PageContext := { docId := settings.docId }

/-- The **page** of a source. -/
def render (settings : Settings) (source : Text) : Except Page.Fault Page :=
  settings.pipeline.render settings.pageContext source

end Lectern.Settings
