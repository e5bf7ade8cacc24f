import Lectern.Proofs.Page.Image

/-!
# One Document in Two Styles

What the rules for footnotes can change on a page: the anchors and captions of notes, and nothing
else. A writer reads its context, its naming and its anchor rule only where it writes a reference
and where it writes the section of the notes. Headings and images cut the output at places that
differ between two styles, since references are of different lengths; but what is recorded of a
heading is its plain text, and the markup that is cut off has no part in it. So two styles that
agree on whether a title is extracted give one title and one table of contents, and one page where
no footnote is referred to.

## Main results

* `Writer.step_congr`, `Writer.run_congr`: events that read nothing but `extractTitle`.
* `renderSection_of_no_references`: no references, no section.
* `title_toc_of_run`: two runs over one stream have one outline.
* `restyle_renderEvents`: the pages of a document in two styles.
-/

namespace Lectern.Page

open Markdown

variable {style style' : PageStyle} {events : List Event} {event : Event} {w w' : Writer}

namespace Writer

/-! ### Where a style is read -/

/-- Apart from a reference, an event reads no more of a style than **whether a title is
extracted**. -/
theorem step_congr (hextract : style.extractTitle = style'.extractTitle) (w : Writer)
    (hreference : event.reference? = none) : step style w event = step style' w event := by
  cases event with
  | footnoteReference label => cases hreference
  | finish tag =>
    cases tag with
    | heading level => simp only [step, finish, finishHeading, hextract]
    | _ => rfl
  | _ => rfl

/-- A **stream without references** is written alike in both styles. -/
theorem run_congr (hextract : style.extractTitle = style'.extractTitle) (w : Writer)
    (hreferences : ∀ event ∈ events, event.reference? = none) :
    run style w events = run style' w events := by
  induction events generalizing w with
  | nil => rfl
  | cons event events ih =>
    obtain ⟨hevent, hevents⟩ := List.forall_mem_cons.1 hreferences
    unfold run
    rw [List.foldlM_cons, List.foldlM_cons, step_congr hextract w hevent]
    exact bind_congr fun next => ih next hevents

end Writer

/-- Without references there is **no section** of notes, by whatever rules. -/
theorem renderSection_of_no_references (hrun : Writer.run style {} events = .ok w)
    (hreferences : referenceLabels events = []) (context : PageContext) (naming : FootnoteNaming)
    (anchor : FootnoteAnchor) : w.footnotes.renderSection context naming anchor = [] := by
  have htally := (KnowsNotes.of_run hrun).references
  rw [hreferences] at htally
  rw [FootnoteLedger.renderSection, htally]
  rfl

/-! ### Two runs -/

/-- **Two runs over one stream have one outline**, wherever their headings stand in the output. -/
theorem title_toc_of_run (hextract : style.extractTitle = style'.extractTitle)
    (hrun : Writer.run style {} events = .ok w) (hrun' : Writer.run style' {} events = .ok w') :
    w.title = w'.title ∧ w.toc = w'.toc := by
  have hknows := KnowsOutline.of_run hrun
  have hknows' := KnowsOutline.of_run hrun'
  rw [hknows.title, hknows.toc, hknows'.title, hknows'.toc, hextract]
  exact ⟨rfl, rfl⟩

/-- Two runs over a stream without references make **one page**. -/
theorem page_eq_of_run (hextract : style.extractTitle = style'.extractTitle)
    (hreferences : referenceLabels events = []) (hrun : Writer.run style {} events = .ok w)
    (hrun' : Writer.run style' {} events = .ok w') : w.page style = w'.page style' := by
  have hnone : ∀ event ∈ events, event.reference? = none :=
    List.filterMap_eq_nil_iff.1 hreferences
  rw [Writer.run_congr hextract {} hnone] at hrun
  obtain rfl := Except.ok.inj (hrun.symm.trans hrun')
  rw [Writer.page, Writer.page, renderSection_of_no_references hrun' hreferences,
    renderSection_of_no_references hrun' hreferences]

/-- **The rules for footnotes stay out of everything else**, for a well-nested stream in which
headings and images hold lines. Whatever the contexts, the namings and the anchor rules of two
styles are, both give a page, with the same title and the same table of contents; and without
references the pages have the same markup. -/
theorem restyle_renderEvents {inImage : Event → Prop} {trees : List Markdown.Tree}
    (htrees : ∀ tree ∈ trees, StandsInText inImage tree)
    (hextract : style.extractTitle = style'.extractTitle) :
    let events := Markdown.Tree.eventsOfList trees
    ∃ page page', renderEvents style events = .ok page ∧ renderEvents style' events = .ok page' ∧
      page.title = page'.title ∧ page.toc = page'.toc ∧
      ((∀ label, .footnoteReference label ∉ events) → page.html = page'.html) := by
  intro events
  obtain ⟨w, hrun⟩ := exists_run_of_standsInText style htrees
  obtain ⟨w', hrun'⟩ := exists_run_of_standsInText style' htrees
  obtain ⟨htitle, htoc⟩ := title_toc_of_run hextract hrun hrun'
  refine ⟨w.page style, w'.page style', by rw [renderEvents, hrun]; rfl,
    by rw [renderEvents, hrun']; rfl, htitle, htoc, fun hnone => ?_⟩
  have hreferences : referenceLabels events = [] :=
    List.filterMap_eq_nil_iff.2 fun event hevent => by
      cases event with
      | footnoteReference label => exact absurd hevent (hnone label)
      | _ => rfl
  rw [page_eq_of_run hextract hreferences hrun hrun']

/-- A reference in a heading and one in an image in it: with the id of the document before each
anchor, the image ends further behind the start of the heading. -/
theorem restyle_longerAnchors :
    let trees : List Markdown.Tree :=
      [.node (.heading 1) [.leaf (.text "A ".toList), .leaf (.footnoteReference ['n']),
          .node (.image ['u'] []) [.leaf (.text ['B']), .leaf (.footnoteReference ['n'])]],
        .node (.heading 2) [.leaf (.text ['C'])],
        .node (.footnote ['n']) [.node (.heading 2) [.leaf (.text ['C'])]]]
    let events := Markdown.Tree.eventsOfList trees
    let style : PageStyle := { extractTitle := true }
    let style' : PageStyle :=
      { context := { docId := some "lesson".toList }, anchor := backrefAnchor
        extractTitle := true }
    (∀ tree ∈ trees, StandsInText (fun _ => True) tree) ∧
      ∃ page page', renderEvents style events = .ok page ∧
        renderEvents style' events = .ok page' ∧
        page'.title = some "A B".toList ∧
        page'.toc = [⟨2, ['C'], ['c']⟩, ⟨2, ['C'], "c-1".toList⟩] ∧
        page.title = page'.title ∧ page.toc = page'.toc ∧ page.html ≠ page'.html := by
  intro trees events style style'
  have hleaf : ∀ event : Event, event.isEdge = false →
      StandsInLine (fun _ => True) (.leaf event) := fun _ => .leaf
  have hsection : StandsInText (fun _ => True) (.node (.heading 2) [.leaf (.text ['C'])]) :=
    .heading (List.forall_mem_singleton.2 (hleaf _ rfl))
  have htrees : ∀ tree ∈ trees, StandsInText (fun _ => True) tree := by
    refine List.forall_mem_cons.2 ⟨.heading ?_, List.forall_mem_cons.2 ⟨hsection,
      List.forall_mem_singleton.2 (.footnote (List.forall_mem_singleton.2 hsection))⟩⟩
    exact List.forall_mem_cons.2 ⟨hleaf _ rfl, List.forall_mem_cons.2 ⟨hleaf _ rfl,
      List.forall_mem_singleton.2 (.image (fun _ _ => trivial) (List.forall_mem_cons.2
        ⟨hleaf _ rfl, List.forall_mem_singleton.2 (hleaf _ rfl)⟩))⟩⟩
  obtain ⟨page, page', hpage, hpage', htitle, htoc, -⟩ :=
    restyle_renderEvents htrees (show style.extractTitle = style'.extractTitle from rfl)
  have hknown : (renderEvents style' events).map (fun page => (page.title, page.toc)) =
      .ok (some "A B".toList, [⟨2, ['C'], ['c']⟩, ⟨2, ['C'], "c-1".toList⟩]) := by decide +kernel
  have hdiffer : (renderEvents style events).map (·.html) ≠
      (renderEvents style' events).map (·.html) := by decide +kernel
  rw [hpage'] at hknown
  rw [hpage, hpage'] at hdiffer
  obtain ⟨hknownTitle, hknownToc⟩ := Prod.mk.inj (Except.ok.inj hknown)
  exact ⟨htrees, page, page', hpage, hpage', hknownTitle, hknownToc, htitle, htoc,
    fun hsame => hdiffer (congrArg Except.ok hsame)⟩

end Lectern.Page
