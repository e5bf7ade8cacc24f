import Lectern.Proofs.Page.Flow
import Lectern.Proofs.Page.Section

/-!
# Pages are Well Formed

The page of every document is well-formed markup: the writer grows over every part of a document,
what it has put away for the footnote section is well formed as well, and so is the section.

## Main results

* `wellFormed_renderSection`: the footnote section is well formed if the notes are.
* `renderEvents_wellFormed`: the page of a document is well formed.
-/

namespace Lectern.Page

open Markdown Markup

/-- The writer grows over every part of a document. -/
theorem Writer.yields_flow {style : PageStyle} {w : Writer} {inNote : Bool} {tree : Markdown.Tree}
    (h : IsFlow inNote tree)
    (hreference : ∀ token, WellFormed (referenceMarkup token style.context style.naming))
    (hready : Writer.IsReady inNote w) : Yields style w tree.events (Grows w) :=
  (yields_part h (fun token => ⟨hreference token, rfl⟩) hready).imp fun _ => Records.grows

/-! ### The footnote section -/

/-- The body of the latest note with a label is well formed if all notes are. -/
theorem wellFormed_lookup {notes : List (Text × Text)} (hnotes : ∀ note ∈ notes, WellFormed note.2)
    (label : Text) : WellFormed ((notes.lookup label).getD []) := by
  cases hlookup : notes.lookup label with
  | none => exact .nil
  | some body =>
    obtain ⟨left, right, hsplit, -⟩ := List.lookup_eq_some_iff.1 hlookup
    exact hnotes (label, body) (by simp [hsplit])

section Notes

variable {context : PageContext}
  (hdocId : ∀ docId ∈ context.docId, ∀ c ∈ docId, isHtmlSpecial c = false)

include hdocId

/-- A reference is well formed. -/
theorem wellFormed_referenceMarkup (token : FootnoteToken) :
    WellFormed (referenceMarkup token context standardNaming) :=
  (reads_referenceMarkup hdocId token).wellFormed

/-- **The footnote section** is well formed if the notes are. -/
theorem wellFormed_renderSection {anchor : FootnoteAnchor} {ledger : FootnoteLedger}
    (hanchor : anchor = stockAnchor ∨ anchor = backrefAnchor)
    (hnotes : ∀ note ∈ ledger.definitions, WellFormed note.2) :
    WellFormed (ledger.renderSection context standardNaming anchor) := by
  have hitems : WellFormed (ledger.references.zipIdx.flatMap
      (ledger.entryItem context standardNaming anchor)) := by
    refine wellFormed_flatMap _ fun entry _ => ?_
    exact (reads_noteItem hdocId hanchor _ ⟨wellFormed_lookup hnotes _, rfl⟩).wellFormed
  rw [FootnoteLedger.renderSection_eq]
  split
  · exact .nil
  · exact (reads_sectionFrame ⟨hitems, rfl⟩).wellFormed

end Notes

/-! ### Pages -/

/-- **The page of a document is well formed**, with the naming of a site and either of its anchor
rules, if no character of the document's id would have to be escaped. -/
theorem renderEvents_wellFormed {style : PageStyle} {events : List Event}
    (hdocument : IsDocument events) (hnaming : style.naming = standardNaming)
    (hanchor : style.anchor = stockAnchor ∨ style.anchor = backrefAnchor)
    (hdocId : ∀ docId ∈ style.context.docId, ∀ c ∈ docId, isHtmlSpecial c = false) :
    ∃ page, renderEvents style events = .ok page ∧ WellFormed page.html := by
  obtain ⟨trees, rfl, hflow⟩ := hdocument
  have hreference : ∀ token, WellFormed (referenceMarkup token style.context style.naming) := by
    rw [hnaming]
    exact wellFormed_referenceMarkup hdocId
  have hready : Writer.IsReady false {} := ⟨rfl, rfl, rfl, fun _ => rfl⟩
  obtain ⟨w, hrun, hgrows⟩ : Writer.Yields style {} _ (Writer.Grows {}) :=
    Writer.yields_list Writer.Grows.refl Writer.Grows.trans Writer.IsReady.of_grows
      (fun tree htree _ => Writer.yields_flow (hflow tree htree) hreference) hready
  obtain ⟨markup, happends, hwf⟩ := hgrows.appends
  refine ⟨w.page style, by rw [renderEvents, hrun]; rfl, ?_⟩
  have houtput : WellFormed w.output := by
    rw [happends.output]
    exact hwf
  have hnotes : WellFormed
      (w.footnotes.renderSection style.context style.naming style.anchor) := by
    rw [hnaming]
    exact wellFormed_renderSection hdocId hanchor (happends.notes (by
      intro note hnote
      simp at hnote))
  rw [Writer.page]
  split
  · exact houtput
  · exact houtput.append (.text (by decide) hnotes)

/-- A page with an id: a heading with a repeated note, a table, and a note that ends with an
image. -/
theorem renderEvents_wellFormed_lesson : ∃ page,
    renderEvents { context := { docId := some "pairs".toList }, anchor := backrefAnchor }
      (Markdown.Tree.eventsOfList
        [.node (.heading 2) [.text "Pairs & <lists>".toList, .leaf (.footnoteReference ['a'])],
          .node (.table [.center]) [.node .tableHead [.node .tableCell [.text ['x']]],
            .node .tableRow [.node .tableCell [.leaf (.code "<>".toList)]]],
          .node (.footnote ['a']) [.node .paragraph
            [.leaf (.footnoteReference ['a']),
              .node (.image "p.png".toList [])
                (["\"".toList, "p".toList].map Markdown.Tree.text)]]]) =
      .ok page ∧ WellFormed page.html := by
  have htext : ∀ s : Text, IsInline (.text s) := fun s => .leaf (.text s)
  have hnote : IsInline (.leaf (.footnoteReference ['a'])) := .leaf (.footnoteReference _)
  refine renderEvents_wellFormed ⟨_, rfl, ?_⟩ rfl (.inr rfl) (by simp [isHtmlSpecial])
  simp only [List.forall_mem_cons, List.not_mem_nil, false_imp_iff, implies_true, and_true]
  refine ⟨.heading ?_, .table ?_ ?_, .footnote ?_⟩
  · simpa using ⟨htext _, hnote⟩
  · simpa using .cell (by simpa using htext _)
  · simpa using .row (by simpa using .cell (by simpa using .leaf (.code _)))
  · refine List.forall_mem_singleton.2 (.container .paragraph ?_)
    exact List.forall_mem_cons.2 ⟨.inline hnote, List.forall_mem_singleton.2 (.inline .image)⟩

end Lectern.Page
