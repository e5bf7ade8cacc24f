import Lectern.Text

/-!
# Footnotes

References, definitions, and the anchors that lead from a note back to its references.

A note has a number, in the order of first references, and each of its references has a
sub-number: the first has 0 and keeps the plain anchor name, a later one has its sub-number after
a colon, so each reference has a back-link of its own. Names and anchors are made by replaceable
rules; `standardNaming` and `backrefAnchor` are those of a site.

The `FootnoteLedger` collects the references and definitions of one document, and
`FootnoteLedger.renderSection` writes the list of notes at its end.
-/

namespace Lectern.Page

/-- What the rules know about the document. -/
structure PageContext where
  /-- The id that keeps the anchors of several documents on one page apart. -/
  docId : Option Text := none
deriving Repr, DecidableEq

/-- One reference to a footnote. -/
structure FootnoteToken where
  /-- The number of the note, from zero, in the order of first references. -/
  number : Nat
  /-- How many references to the same note come before this one. -/
  subNumber : Nat
  /-- The label as it is written. -/
  label : Text
deriving Repr, DecidableEq

namespace FootnoteToken

/-- A name with the sub-number of a repeated reference after a colon. -/
def withSubNumber (token : FootnoteToken) (name : Text) : Text :=
  if token.subNumber = 0 then name else name ++ ':' :: Text.decimal token.subNumber

/-- The visible number of a reference, in square brackets. -/
def caption (token : FootnoteToken) : Text :=
  '[' :: token.withSubNumber (Text.decimal (token.number + 1)) ++ [']']

end FootnoteToken

/-- The caption of the token at a place; empty where there is none. -/
def captionAt (tokens : List FootnoteToken) (index : Nat) : Text :=
  (tokens[index]?.map (·.caption)).getD []

/-- A **naming**: how the anchor and the caption of the token at a place are called. -/
structure FootnoteNaming where
  anchorName : List FootnoteToken → Nat → PageContext → Text
  caption : List FootnoteToken → Nat → PageContext → Text := fun tokens index _ =>
    captionAt tokens index

/-- The **standard naming**: the number of the note from one, after the document's id between
hyphens if there is one. -/
def standardNaming : FootnoteNaming where
  anchorName tokens index context :=
    match tokens[index]? with
    | none => []
    | some token =>
      let number := Text.decimal (token.number + 1)
      match context.docId with
      | some docId => '-' :: docId ++ '-' :: number
      | none => number

/-- The name of the rule that writes the anchors at the end of a note. -/
def footnoteAnchorRule : Text := "footnote_anchor".toList

/-- An **anchor rule** writes the back-link of the token at a place. -/
abbrev FootnoteAnchor := List FootnoteToken → Nat → PageContext → FootnoteNaming → Text

/-- The anchor name of the token at a place, told apart from those of the same note. -/
def referenceName? (tokens : List FootnoteToken) (index : Nat) (context : PageContext)
    (naming : FootnoteNaming) : Option Text :=
  tokens[index]?.map (·.withSubNumber (naming.anchorName tokens index context))

/-- The link back to the reference of the given name: an arrow in its text form. -/
def backLink (name : Text) : Text :=
  "<a href=\"#fnref".toList ++ name ++ "\" class=\"footnote-backref\">↩\uFE0E</a>".toList

/-- The **site's anchor**: the link alone. -/
def backrefAnchor : FootnoteAnchor := fun tokens index context naming =>
  ((referenceName? tokens index context naming).map backLink).getD []

/-- The **stock anchor**: the link after a space. -/
def stockAnchor : FootnoteAnchor := fun tokens index context naming =>
  ((referenceName? tokens index context naming).map fun name => ' ' :: backLink name).getD []

/-- The markup of a reference: a raised link to the note. -/
def referenceMarkup (token : FootnoteToken) (context : PageContext) (naming : FootnoteNaming) :
    Text :=
  "<sup class=\"footnote-ref\"><a href=\"#fn".toList ++ naming.anchorName [token] 0 context ++
    "\" id=\"fnref".toList ++ (referenceName? [token] 0 context naming).getD [] ++
    "\">".toList ++ naming.caption [token] 0 context ++ "</a></sup>".toList

/-- The footnotes of a document so far. -/
structure FootnoteLedger where
  /-- The labels in the order of their first references, each with its number of references. -/
  references : List (Text × Nat) := []
  /-- The notes, the latest first. -/
  definitions : List (Text × Text) := []
deriving Repr, DecidableEq

namespace FootnoteLedger

/-- The token of a further **reference** to `label`, and the ledger after it. -/
def reference (ledger : FootnoteLedger) (label : Text) : FootnoteToken × FootnoteLedger :=
  match ledger.references.findIdx? (·.1 = label) with
  | some number =>
    let count := ((ledger.references[number]?).map (·.2)).getD 0
    (⟨number, count, label⟩,
      { ledger with references := ledger.references.modify number fun (l, n) => (l, n + 1) })
  | none =>
    (⟨ledger.references.length, 0, label⟩,
      { ledger with references := ledger.references ++ [(label, 1)] })

/-- The ledger after a **definition**; it takes the place of an earlier one of that label. -/
def define (ledger : FootnoteLedger) (label html : Text) : FootnoteLedger :=
  { ledger with definitions := (label, html) :: ledger.definitions }

/-- The tokens of all references to one note. -/
def tokens (number : Nat) (label : Text) (count : Nat) : List FootnoteToken :=
  (List.range count).map fun subNumber => ⟨number, subNumber, label⟩

/-- The body of a note with its anchors, which go into its last paragraph if it ends with one. -/
def closeBody (body anchors : Text) : Text :=
  match Text.before? "</p>".toList body with
  | some head => head ++ anchors ++ "</p>".toList
  | none => body ++ anchors

/-- The list item of one note. -/
def item (ledger : FootnoteLedger) (context : PageContext) (naming : FootnoteNaming)
    (anchor : FootnoteAnchor) (number : Nat) (label : Text) (count : Nat) : Text :=
  let tokens := tokens number label count
  let anchors := (List.range tokens.length).flatMap fun index =>
    anchor tokens index context naming
  "<li id=\"fn".toList ++ naming.anchorName tokens 0 context ++
    "\" class=\"footnote-item\">".toList ++
    closeBody ((ledger.definitions.lookup label).getD []) anchors ++ "</li>\n".toList

/-- The **footnote section**: one item for each note that is referred to, in order; empty when
there is none. -/
def renderSection (ledger : FootnoteLedger) (context : PageContext) (naming : FootnoteNaming)
    (anchor : FootnoteAnchor) : Text :=
  if ledger.references.isEmpty then []
  else
    "<hr class=\"footnotes-sep\">\n<section class=\"footnotes\">\n".toList ++
      "<ol class=\"footnotes-list\">\n".toList ++
      (ledger.references.zipIdx.flatMap fun ((label, count), number) =>
        ledger.item context naming anchor number label count) ++
      "</ol>\n</section>\n".toList

end FootnoteLedger

end Lectern.Page
