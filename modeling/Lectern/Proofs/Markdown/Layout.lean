import Lectern.Proofs.Markdown.Note

/-!
# The Layout of Documents

Which elements of a well-nested stream stand in which, as far as it matters for the page: a heading
holds a line, and so does an image; a line holds neither headings nor footnote definitions. Anything
else may stand anywhere, and footnote definitions may stand in each other.

* `Event.fills`, `Event.isImageEdge` — the events that have no part in headings, images and
  footnotes, and the edges of images.
* `StandsInLine`, `StandsInText` — the parts of a line and of a document.
-/

namespace Lectern.Markdown

/-- Whether an event is **raw** markup. -/
def Event.isRaw : Event → Bool
  | .html _ | .inlineHtml _ => true
  | _ => false

/-- Whether an event **fills** the page between headings, images, footnotes and raw markup. -/
def Event.fills : Event → Bool
  | .start (.heading _) | .start (.image _ _) | .start (.footnote _) => false
  | .finish (.heading _) | .finish .image | .finish .footnote => false
  | .footnoteReference _ | .html _ | .inlineHtml _ => false
  | _ => true

/-- Whether an event is an **edge of an image**. -/
def Event.isImageEdge : Event → Bool
  | .start (.image _ _) | .finish .image => true
  | _ => false

/-- What fills the page is no edge of an image. -/
theorem Event.isImageEdge_of_fills {event : Event} (h : event.fills = true) :
    event.isImageEdge = false := by
  unfold Event.isImageEdge
  split <;> first | rfl | cases h

/-- What is no edge at all is none of an image. -/
theorem Event.isImageEdge_of_isEdge {event : Event} (h : event.isEdge = false) :
    event.isImageEdge = false := by
  unfold Event.isImageEdge
  split <;> first | rfl | cases h

/-- The end of an element fills the page if its start does. -/
theorem Event.fills_toEnd (tag : Tag) :
    (Event.finish tag.toEnd).fills = (Event.start tag).fills := by
  cases tag <;> rfl

/-- A part of a **line**, whose images hold only certain events. -/
inductive StandsInLine (inImage : Event → Prop) : Tree → Prop
  | leaf {event : Event} : event.isEdge = false → StandsInLine inImage (.leaf event)
  | image {url title : Text} {children : List Tree} :
      (∀ event ∈ Tree.eventsOfList children, inImage event) →
      (∀ child ∈ children, StandsInLine inImage child) →
      StandsInLine inImage (.node (.image url title) children)
  | node {tag : Tag} {children : List Tree} : (Event.start tag).fills = true →
      (∀ child ∈ children, StandsInLine inImage child) → StandsInLine inImage (.node tag children)

/-- A part of a **document**, whose images hold only certain events. -/
inductive StandsInText (inImage : Event → Prop) : Tree → Prop
  | line {tree : Tree} : StandsInLine inImage tree → StandsInText inImage tree
  | heading {level : Nat} {children : List Tree} :
      (∀ child ∈ children, StandsInLine inImage child) →
      StandsInText inImage (.node (.heading level) children)
  | footnote {label : Text} {children : List Tree} :
      (∀ child ∈ children, StandsInText inImage child) →
      StandsInText inImage (.node (.footnote label) children)
  | node {tag : Tag} {children : List Tree} : (Event.start tag).fills = true →
      (∀ child ∈ children, StandsInText inImage child) → StandsInText inImage (.node tag children)

end Lectern.Markdown
