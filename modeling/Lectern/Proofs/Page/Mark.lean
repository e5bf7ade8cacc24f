import Lectern.Page.Footnote
import Lectern.Proofs.Markup.Reading

/-!
# The Marks of Footnotes

Footnotes leave three kinds of anchors on a page: links back, which are told by their class, and
references and items, which have an id and are told from headings by having more than the id.
`Reads` says which of them a piece of well-formed markup has; its rules follow the grammar of
markup.

## Main results

* `Reads.append`, `Reads.enclose`, `reads_void`: how marks are put together.
* `Reads.trim`, `Reads.trimEnd`: trimming takes no marks.
* `Reads.splice`: markup that goes in before a final close tag.
-/

namespace Lectern.Page

open Markup

/-- The class of a link back to a reference. -/
def backrefKind : Text := "footnote-backref".toList

/-- The class of a note. -/
def itemKind : Text := "footnote-item".toList

/-- Whether an anchor is a **mark** of a footnote: a back-link, or an element with more than an
id. -/
def isMark (anchor : Anchor) : Bool :=
  anchor.kind = some backrefKind || anchor.id.isSome && (anchor.href.isSome || anchor.kind.isSome)

/-- The **marks** of a markup. -/
def marks (s : Text) : List Anchor := (anchors s).filter isMark

/-- Whether `s` is well-formed markup that has the given marks. -/
structure Reads (found : List Anchor) (s : Text) : Prop where
  wellFormed : WellFormed s
  marks_eq : marks s = found

variable {found more : List Anchor} {s t : Text}

/-- The marks of markup behind closed markup. -/
theorem marks_append (h : IsClosed s) (t : Text) : marks (s ++ t) = marks s ++ marks t := by
  rw [marks, h.anchors_append, List.filter_append]
  rfl

/-- Marks after marks. -/
theorem Reads.append (hs : Reads found s) (ht : Reads more t) : Reads (found ++ more) (s ++ t) where
  wellFormed := hs.wellFormed.append ht.wellFormed
  marks_eq := by rw [marks_append hs.wellFormed.isClosed, hs.marks_eq, ht.marks_eq]

/-- Text has no marks. -/
theorem reads_of_isPlainText (h : IsPlainText s) : Reads [] s where
  wellFormed := wellFormed_of_plain h
  marks_eq := by
    have hs := anchors_append_of_isPlainText h []
    rw [List.append_nil] at hs
    rw [marks, hs]
    rfl

/-- No markup has no marks. -/
theorem reads_nil : Reads [] [] := ⟨.nil, rfl⟩

/-- The end of a line has no marks. -/
theorem reads_newline : Reads [] ['\n'] := reads_of_isPlainText (by decide)

/-- An escaped text has no marks. -/
theorem reads_escapeHtml (s : Text) : Reads [] (escapeHtml s) :=
  reads_of_isPlainText (isValue_escapeHtml s).isPlainText

/-- The marks of parts. -/
theorem reads_flatMap {α : Type} (parts : List α) {f : α → Text} {found : α → List Anchor}
    (h : ∀ part ∈ parts, Reads (found part) (f part)) :
    Reads (parts.flatMap found) (parts.flatMap f) := by
  induction parts with
  | nil => exact reads_nil
  | cons part parts ih =>
    obtain ⟨hpart, hrest⟩ := List.forall_mem_cons.1 h
    exact hpart.append (ih hrest)

/-- The mark of a tag with the given properties, if it is one. -/
def tagMarks (properties : List Property) : List Anchor :=
  [readProperties properties].filter isMark

/-- A tag before other markup. -/
theorem marks_openTag_append {name : Text} {properties : List Property} (hname : IsName name)
    (hproperties : AreSafe properties) (t : Text) :
    marks (openTag name properties ++ t) = tagMarks properties ++ marks t := by
  rw [marks, anchors_openTag_append hname hproperties, ← List.singleton_append,
    List.filter_append]
  rfl

/-- A close tag is no mark. -/
theorem marks_closeTag_append {name : Text} (hname : IsName name) (t : Text) :
    marks (closeTag name ++ t) = marks t := by
  rw [marks, anchors_closeTag_append hname]
  rfl

/-- Markup before a close tag. -/
theorem marks_append_closeTag {name : Text} (hname : IsName name) (hs : IsClosed s) :
    marks (s ++ closeTag name) = marks s := by
  have hclose := marks_closeTag_append hname []
  rw [List.append_nil] at hclose
  rw [marks_append hs, hclose]
  exact List.append_nil _

/-- **An element** has the marks of its content behind its own. -/
theorem Reads.enclose (h : Reads found s) (name : Text) (properties : List Property)
    (hname : IsName name ∧ name ∉ voidElements) (hproperties : AreSafe properties) :
    Reads (tagMarks properties ++ found) (openTag name properties ++ s ++ closeTag name) where
  wellFormed := h.wellFormed.enclose name properties hname hproperties
  marks_eq := by
    rw [List.append_assoc, marks_openTag_append hname.1 hproperties,
      marks_append_closeTag hname.1 h.wellFormed.isClosed, h.marks_eq]

/-- A void tag. -/
theorem reads_void (name : Text) (properties : List Property) (hname : name ∈ voidElements)
    (hproperties : AreSafe properties) (hmark : tagMarks properties = []) :
    Reads [] (openTag name properties) where
  wellFormed := wellFormed_void name properties hname hproperties
  marks_eq := by
    have htag := marks_openTag_append (isName_of_mem_voidElements hname) hproperties []
    rw [List.append_nil, hmark] at htag
    exact htag

/-- Trimming at the end takes no marks. -/
theorem Reads.trimEnd (h : Reads found s) : Reads found (Text.trimEnd s) where
  wellFormed := h.wellFormed.trimEnd
  marks_eq := by rw [marks, h.wellFormed.anchors_trimEnd, ← h.marks_eq, marks]

/-- Trimming takes no marks. -/
theorem Reads.trim (h : Reads found s) : Reads found (Text.trim s) where
  wellFormed := h.wellFormed.trim
  marks_eq := by rw [marks, h.wellFormed.anchors_trim, ← h.marks_eq, marks]

/-- **Markup goes in before a final close tag**: its marks come last. -/
theorem Reads.splice (name : Text) (h : Reads found (s ++ closeTag name)) (hname : IsName name)
    (ht : Reads more t) : Reads (found ++ more) (s ++ t ++ closeTag name) where
  wellFormed := h.wellFormed.splice name hname ht.wellFormed
  marks_eq := by
    have hs : IsClosed s := h.wellFormed.isClosed_before_tag
    have hfound := h.marks_eq
    rw [marks_append_closeTag hname hs] at hfound
    rw [marks_append_closeTag hname (hs.append ht.wellFormed.isClosed), marks_append hs, hfound,
      ht.marks_eq]

end Lectern.Page
