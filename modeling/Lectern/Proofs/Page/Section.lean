import Lectern.Proofs.Page.Footnote
import Lectern.Proofs.Page.Mark

/-!
# The Marks of the Footnote Section

A reference, a note and the section of all notes as markup, with the standard names. A reference is
one mark and links to its item; an item is one mark, before those of its body and the links back to
its references, wherever these have gone in the body.

## Main results

* `reads_referenceMarkup`: the mark of a reference.
* `reads_noteItem`: the marks of a note.
* `reads_noteSection`: the marks of the section.
-/

namespace Lectern.Page

open Markup

variable {context : PageContext} {anchor : FootnoteAnchor} {found more : List Anchor}

/-- The mark of a reference. -/
def referenceAnchor (context : PageContext) (token : FootnoteToken) : Anchor where
  id := some (referenceId context token)
  href := some ('#' :: itemId context [token])
  kind := none

/-- The mark of the item of a note. -/
def itemAnchor (context : PageContext) (tokens : List FootnoteToken) : Anchor where
  id := some (itemId context tokens)
  href := none
  kind := some itemKind

/-- The mark of a link back to a reference. -/
def backAnchor (context : PageContext) (token : FootnoteToken) : Anchor where
  id := none
  href := some ('#' :: referenceId context token)
  kind := some backrefKind

/-! ### Names -/

/-- A name with a sub-number has the characters of the name, a colon and digits. -/
theorem isValue_withSubNumber (token : FootnoteToken) {name : Text} (hname : IsValue name) :
    IsValue (token.withSubNumber name) := by
  unfold FootnoteToken.withSubNumber
  split
  · exact hname
  · have hcolon : IsValue [':'] := by decide
    exact hname.append (hcolon.append (isValue_decimal token.subNumber))

/-- The visible number of a reference has neither quotes nor brackets of tags. -/
theorem isValue_captionAt (tokens : List FootnoteToken) (index : Nat) :
    IsValue (captionAt tokens index) := by
  unfold captionAt
  cases tokens[index]? with
  | none => exact (by decide : IsValue [])
  | some token =>
    have hnumber := isValue_withSubNumber token (isValue_decimal (token.number + 1))
    have hbracket : IsValue [']'] := by decide
    exact List.forall_mem_cons.2 ⟨by decide, List.forall_mem_append.2 ⟨hnumber, hbracket⟩⟩

/-- The visible number of a reference is plain text. -/
theorem isPlainText_captionAt (tokens : List FootnoteToken) (index : Nat) :
    IsPlainText (captionAt tokens index) :=
  (isValue_captionAt tokens index).isPlainText

section Notes

variable (hdocId : ∀ docId ∈ context.docId, ∀ c ∈ docId, isHtmlSpecial c = false)

include hdocId

/-- The anchor name of a note, as the standard rule makes it, can be part of a property. -/
theorem isValue_anchorName (tokens : List FootnoteToken) (index : Nat) :
    IsValue (standardNaming.anchorName tokens index context) := by
  have hhyphen : IsValue ['-'] := by decide
  simp only [standardNaming]
  split
  · exact (by decide : IsValue [])
  · next token _ =>
    have hnumber := isValue_decimal (token.number + 1)
    split
    · next docId hcontext =>
      have hid : IsValue docId := fun c hc =>
        isValueChar_of_isHtmlSpecial_eq_false (hdocId docId hcontext c hc)
      exact (hhyphen.append hid).append (hhyphen.append hnumber)
    · exact hnumber

/-- The id of an item can be the value of a property. -/
theorem isValue_itemId (tokens : List FootnoteToken) : IsValue (itemId context tokens) := by
  have hprefix : IsValue "fn".toList := by decide
  exact hprefix.append (isValue_anchorName hdocId tokens 0)

/-- The id of a reference can be the value of a property. -/
theorem isValue_referenceId (token : FootnoteToken) : IsValue (referenceId context token) := by
  have hprefix : IsValue "fnref".toList := by decide
  exact hprefix.append (isValue_withSubNumber token (isValue_anchorName hdocId [token] 0))

/-! ### Markup -/

/-- **A reference** is one mark: it has an id, and links to its note. -/
theorem reads_referenceMarkup (token : FootnoteToken) :
    Reads [referenceAnchor context token] (referenceMarkup token context standardNaming) := by
  have hsharp : IsValue ['#'] := by decide
  have hclass : IsValue "footnote-ref".toList := by decide
  have htarget := hsharp.append (isValue_itemId hdocId [token])
  have hlink := (reads_of_isPlainText (isPlainText_captionAt [token] 0)).enclose "a".toList _
    (by decide) ((areSafe_nil.cons "id".toList (by decide) (isValue_referenceId hdocId token)).cons
      "href".toList (by decide) htarget)
  have hsup := hlink.enclose "sup".toList _ (by decide)
    (areSafe_nil.cons "class".toList (by decide) hclass)
  have hcaption : standardNaming.caption [token] 0 context = captionAt [token] 0 := rfl
  have hmarks : tagMarks [⟨"class".toList, some "footnote-ref".toList⟩] ++ (tagMarks
      [⟨"href".toList, some (['#'] ++ itemId context [token])⟩,
        ⟨"id".toList, some (referenceId context token)⟩] ++ []) =
      [referenceAnchor context token] := rfl
  rw [hmarks] at hsup
  unfold referenceMarkup
  rw [hcaption]
  simpa [openTag, closeTag, Property.text, itemId, referenceId] using hsup

/-- A link back is one mark. -/
theorem reads_linkBack (token : FootnoteToken) :
    Reads [backAnchor context token] (linkBack (referenceId context token)) := by
  have hsharp : IsValue ['#'] := by decide
  have hclass : IsValue "footnote-backref".toList := by decide
  have htarget := hsharp.append (isValue_referenceId hdocId token)
  have hlink := (reads_of_isPlainText (s := "↩\uFE0E".toList) (by decide)).enclose "a".toList _
    (by decide) ((areSafe_nil.cons "class".toList (by decide) hclass).cons "href".toList (by decide)
      htarget)
  have hmarks : tagMarks [⟨"href".toList, some (['#'] ++ referenceId context token)⟩,
      ⟨"class".toList, some "footnote-backref".toList⟩] ++ [] = [backAnchor context token] := rfl
  rw [hmarks] at hlink
  unfold linkBack
  simpa [openTag, closeTag, Property.text] using hlink

/-- **The anchors of a note** link back to its references. -/
theorem reads_anchors (hanchor : anchor = stockAnchor ∨ anchor = backrefAnchor)
    (tokens : List FootnoteToken) :
    Reads (tokens.map (backAnchor context)) ((List.range tokens.length).flatMap fun index =>
      anchor tokens index context standardNaming) := by
  have hlinks : ∀ token ∈ tokens,
      Reads [backAnchor context token] (linkBack (referenceId context token)) :=
    fun token _ => reads_linkBack hdocId token
  rw [← List.flatMap_singleton' (tokens.map _), List.flatMap_map]
  rcases hanchor with rfl | rfl
  · rw [flatMap_stockAnchor]
    refine reads_flatMap tokens fun token htoken => ?_
    exact (reads_of_isPlainText (s := [' ']) (by decide)).append (hlinks token htoken)
  · rw [flatMap_backrefAnchor]
    exact reads_flatMap tokens hlinks

omit hdocId in
/-- The body of a note with its anchors, within its last paragraph or behind it. -/
theorem reads_closeBody {body anchors : Text} (hbody : Reads found body)
    (hanchors : Reads more anchors) :
    Reads (found ++ more) (FootnoteLedger.closeBody body anchors) := by
  unfold FootnoteLedger.closeBody
  split
  · next head hhead =>
    obtain rfl := Text.before?_eq_some_iff.1 hhead
    exact Reads.splice "p".toList hbody (by decide) hanchors
  · exact hbody.append hanchors

/-- **A note** has its own mark, those of its body and those of its anchors. -/
theorem reads_noteItem (hanchor : anchor = stockAnchor ∨ anchor = backrefAnchor)
    (tokens : List FootnoteToken) {body : Text} (hbody : Reads found body) :
    Reads (itemAnchor context tokens :: found ++ tokens.map (backAnchor context))
      (noteItem context standardNaming anchor tokens body) := by
  have hclass : IsValue "footnote-item".toList := by decide
  have hclosed := reads_closeBody hbody (reads_anchors hdocId hanchor tokens)
  have hitem := hclosed.enclose "li".toList _ (by decide)
    ((areSafe_nil.cons "class".toList (by decide) hclass).cons "id".toList (by decide)
      (isValue_itemId hdocId tokens))
  have hmarks : tagMarks [⟨"id".toList, some (itemId context tokens)⟩,
      ⟨"class".toList, some "footnote-item".toList⟩] = [itemAnchor context tokens] := rfl
  rw [hmarks] at hitem
  unfold noteItem
  simpa [openTag, closeTag, Property.text, itemId] using
    hitem.append reads_newline

end Notes

/-- The frame of the section has no marks. -/
theorem reads_sectionFrame {items : Text} (h : Reads found items) :
    Reads found ("<hr class=\"footnotes-sep\">\n<section class=\"footnotes\">\n".toList ++
      "<ol class=\"footnotes-list\">\n".toList ++ items ++ "</ol>\n</section>\n".toList) := by
  have hclass : ∀ value : Text, IsValue value → AreSafe [⟨"class".toList, some value⟩] :=
    fun value => areSafe_nil.cons _ (by decide)
  have hrule := reads_void "hr".toList _ (by decide)
    (hclass "footnotes-sep".toList (by decide)) rfl
  have hlist := (reads_newline.append h).enclose "ol".toList _ (by decide)
    (hclass "footnotes-list".toList (by decide))
  have hsection := ((reads_newline.append hlist).append reads_newline).enclose "section".toList _
    (by decide) (hclass "footnotes".toList (by decide))
  have hmarks : tagMarks [⟨"class".toList, some "footnotes".toList⟩] ++ ([] ++ (tagMarks
      [⟨"class".toList, some "footnotes-list".toList⟩] ++ ([] ++ found)) ++ []) = found :=
    List.append_nil found
  rw [hmarks] at hsection
  simpa [openTag, closeTag, Property.text] using
    ((hrule.append reads_newline).append hsection).append reads_newline

/-- **The section** has the marks of its notes. -/
theorem reads_noteSection (labels : List Text) {item : Text → Text} {found : Text → List Anchor}
    (h : ∀ label ∈ labels, Reads (found label) (item label)) :
    Reads (labels.flatMap found) (noteSection labels item) := by
  unfold noteSection
  split
  · next hempty =>
    rw [List.isEmpty_iff.1 hempty]
    exact ⟨.nil, rfl⟩
  · exact reads_sectionFrame (reads_flatMap labels h)

end Lectern.Page
