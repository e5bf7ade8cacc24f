import Lectern.Directive.Scan
import Lectern.Markdown.Document
import Lectern.Page.Writer
import Lectern.Shorthand

/-!
# The Page Pipeline

A page goes from its source to HTML in three stages: source rules rewrite the text, in the order
in which they were added; line ends and null characters are unified; and the result is read as
Markdown and written as a page. The standard pipeline has the shorthands first and the directives
second, so a directive may contain a shorthand.
-/

namespace Lectern

/-- A **source rule**: a named rewrite of the whole text. -/
structure SourceRule where
  name : Text
  apply : Text → Text

/-- The rule of a set of shorthands. -/
def ShorthandSet.rule (set : ShorthandSet) : SourceRule :=
  ⟨"lambda_macros".toList, set.apply⟩

/-- The rule that expands directives. -/
def Directive.rule (names : ComponentNames) : SourceRule :=
  ⟨"lambda_directives".toList, Directive.expand names⟩

/-- A **pipeline**: what is the same for all pages of a site. -/
structure Pipeline where
  rules : List SourceRule := []
  naming : Page.FootnoteNaming := Page.standardNaming
  anchor : Page.FootnoteAnchor := Page.backrefAnchor

namespace Pipeline

/-- The pipeline of the given shorthands and component names. -/
def ofParts (shorthands : ShorthandSet) (names : ComponentNames) : Pipeline :=
  { rules := [shorthands.rule, Directive.rule names] }

/-- The **standard pipeline**. -/
def standard : Pipeline := ofParts .standard {}

/-- The names of the source rules in order. -/
def ruleNames (pipeline : Pipeline) : List Text := pipeline.rules.map (·.name)

/-- A text whose line ends are all line feeds and which has no null character. -/
def normalize (s : Text) : Text :=
  (Markdown.Document.unifyLineEnds s).map fun c => if c == '\x00' then '\uFFFD' else c

/-- The Markdown that the source rules make of a source. -/
def preprocess (pipeline : Pipeline) (source : Text) : Text :=
  normalize (pipeline.rules.foldl (fun s rule => rule.apply s) source)

/-- The style of the pages of a pipeline. -/
def style (pipeline : Pipeline) (context : Page.PageContext) : Page.PageStyle :=
  { context, naming := pipeline.naming, anchor := pipeline.anchor, extractTitle := true }

/-- The **page** of a source. -/
def render (pipeline : Pipeline) (context : Page.PageContext) (source : Text) :
    Except Page.Fault Page :=
  Page.renderEvents (pipeline.style context)
    (Markdown.Document.parse (pipeline.preprocess source))

end Pipeline

end Lectern
