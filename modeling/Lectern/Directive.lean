import Lectern.Markup.Escape
import Lectern.Text.Scan

/-!
# Directives

A directive asks for a component in the middle of a lesson. Four shapes are known: an expression
to display, a definition, a listing of a definitions file, and an interactive block with its
context, title and first expression. `toMarkup` writes the component tag of a directive.

An interactive block needs a live evaluator, which is not there while pages are built, so its tag
stands inside the client-only boundary. The boundary's tags have lines of their own, and the
whole is then one HTML block to a Markdown parser.
-/

namespace Lectern

open Markup (escapeAttribute)

/-- A **directive** with its payload. -/
inductive Directive where
  /-- An expression to display. -/
  | reference (expression : Text)
  /-- A definition to display; `alone` when nothing else stands on its line. -/
  | definition (expression : Text) (alone : Bool)
  /-- The listing of a definitions file. -/
  | listing (file : Text)
  /-- An evaluator for the reader to work with. -/
  | interactive (context title expression : Text)
deriving Repr, DecidableEq

/-- The **component names** that directives expand into. -/
structure ComponentNames where
  reference : Text := "LambdaStatic".toList
  definition : Text := "LambdaDef".toList
  listing : Text := "LambdaRaw".toList
  interactive : Text := "LambdaInteractive".toList
  clientOnly : Text := "ClientOnly".toList
deriving Repr, DecidableEq

namespace Directive

/-- The short name of a directive's shape. -/
def name : Directive → Text
  | .reference _ => "static".toList
  | .definition _ _ => "definition".toList
  | .listing _ => "listing".toList
  | .interactive _ _ _ => "interactive".toList

/-- A property of a tag with its value quoted, after the space that separates it. -/
def property (key value : Text) : Text :=
  ' ' :: key ++ "=\"".toList ++ escapeAttribute value ++ ['"']

/-- A **component tag** that has no content. -/
def tag (component properties : Text) : Text :=
  '<' :: component ++ properties ++ " />".toList

/-- The **markup** of a directive. A title that is empty is left out. -/
def toMarkup (names : ComponentNames) : Directive → Text
  | .reference expression => tag names.reference (property "exp".toList expression)
  | .definition expression alone =>
    tag names.definition (property "exp".toList expression ++
      property ":block".toList (if alone then "true".toList else "false".toList))
  | .listing file => tag names.listing (property "file".toList file)
  | .interactive context title expression =>
    '<' :: names.clientOnly ++ ">\n".toList ++
      tag names.interactive (property "file".toList context ++
        property "exp".toList expression ++
        (if title.isEmpty then [] else property "title".toList title)) ++
      "\n</".toList ++ names.clientOnly ++ ['>']

end Directive

end Lectern
