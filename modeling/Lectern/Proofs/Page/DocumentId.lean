import Lectern.Proofs.Page.Finding
import Lectern.Proofs.Page.Following
import Lectern.Settings.Basic

/-!
# Document Ids in Footnotes

The names of footnotes have the id of the document in them, and are written into the tags of
references, items and links back as they are. A reader who knows quotes finds each of these tags
with the names that were meant, whatever brackets the id has, as long as it has no double quotes: a
quote ends the value that it stands in. The settings let ids with quotes through.

## Main results

* `quotedReading`: how the marks of footnotes are read by a reader who knows quotes.
* `quotedMarks_renderEvents`: with which ids the footnotes of a page are read as they were meant.
* `quotedMarks_quotedId`: an id with which they are not.
-/

namespace Lectern.Markup

/-- What is between separators has none. -/
theorem not_mem_of_mem_splitOnChar {sep : Char} {s piece : Text}
    (h : piece ∈ Text.splitOnChar sep s) : sep ∉ piece := by
  induction s generalizing piece with
  | nil =>
    obtain rfl : piece = [] := by simpa [Text.splitOnChar] using h
    simp
  | cons c s ih =>
    rw [Text.splitOnChar] at h
    split at h
    · rcases List.mem_cons.1 h with rfl | h
      · simp
      · exact ih h
    next hc =>
      split at h
      next first more hs =>
        rcases List.mem_cons.1 h with rfl | h
        · exact List.not_mem_cons_of_ne_of_not_mem (Ne.symm hc) (ih (by simp [hs]))
        · exact ih (by simp [hs, h])
      next =>
        obtain rfl := List.mem_singleton.1 h
        simpa using Ne.symm hc

/-- Quoted pieces are pieces. -/
theorem mem_of_mem_quotedPieces {pieces : List Text} {piece : Text × Text}
    (h : piece ∈ quotedPieces pieces) : piece.2 ∈ pieces := by
  fun_induction quotedPieces pieces with
  | case1 lead value pieces ih =>
    rcases List.mem_cons.1 h with rfl | h
    · simp
    · simp [ih h]
  | case2 => simp at h

/-- **A value that is read** has no quotes. -/
theorem quote_not_mem_of_value? {key tag value : Text} (h : value? key tag = some value) :
    '"' ∉ value := by
  obtain ⟨piece, hpiece, rfl⟩ := Option.map_eq_some_iff.1 h
  exact not_mem_of_mem_splitOnChar (mem_of_mem_quotedPieces (List.mem_of_find?_eq_some hpiece))

end Lectern.Markup

namespace Lectern.Page

open Markdown Markup

/-! ### Marks -/

/-- The mark that a tag is: a link or an item of a list with the properties of a footnote. -/
def quotedMark? (tag : Text) : Option Anchor :=
  if ("a ".toList.isPrefixOf tag || "li ".toList.isPrefixOf tag) && isMark (readTag tag) then
    some (readTag tag)
  else none

variable {context : PageContext} {style : PageStyle} {found : List Anchor} {s name : Text}
  {properties : List Property}

/-- **A tag** is a mark if its properties are, and its name is that of a link or of an item. -/
theorem quotedMark?_tagText (hname : IsName name) (hproperties : AreQuoted properties)
    (h : name = "a".toList ∨ name = "li".toList ∨ tagMarks properties = []) :
    (quotedMark? (tagText name properties)).toList = tagMarks properties := by
  have hread := readTag_properties hname hproperties
  unfold tagText
  cases hmark : isMark (readProperties properties) with
  | false => simp [quotedMark?, hread, hmark, tagMarks]
  | true =>
    have hself : tagMarks properties = [readProperties properties] := by simp [tagMarks, hmark]
    cases properties with
    | nil => exact absurd hmark (by decide)
    | cons property properties =>
      have hprefix : ("a ".toList.isPrefixOf
            (name ++ (property :: properties).flatMap Property.text) ||
          "li ".toList.isPrefixOf
            (name ++ (property :: properties).flatMap Property.text)) = true := by
        rw [hself] at h
        rcases h with rfl | rfl | h
        · simp [Property.text]
        · simp [Property.text]
        · cases h
      simp only [quotedMark?, hread, hprefix, hmark, hself]
      rfl

/-- There are no marks in filler. -/
theorem passesOver_quotedMark? : PassesOver quotedMark? where
  closeTag name := by simp [quotedMark?]
  image rest := by simp [quotedMark?]
  openTag hname _ hproperties hmark := by
    have htag := quotedMark?_tagText hname hproperties.areQuoted (.inr (.inr hmark))
    rwa [hmark, Option.toList_eq_nil_iff] at htag

/-- The element of a heading has the marks of its content. -/
theorem finds_quotedMark_headingElement {level : Nat} {id content : Text} (hid : IsValue id)
    (hcontent : Finds quotedMark? found content) :
    Finds quotedMark? found (Writer.headingElement level id content) := by
  have helement := finds_headingElement passesOver_quotedMark? level hid hcontent
  rwa [quotedMark?_tagText (Writer.isName_headingName level)
    (areQuoted_nil.cons "id".toList (by decide) hid.quote_not_mem) (.inr (.inr rfl))] at helement

section Quotes

variable (hdocId : ∀ docId ∈ context.docId, '"' ∉ docId)

include hdocId

/-- **A reference** is read as one mark, with the names that were meant. -/
theorem finds_quotedMark_referenceMarkup (token : FootnoteToken) :
    Finds quotedMark? [referenceAnchor context token]
      (referenceMarkup token context standardNaming) := by
  have htarget : '"' ∉ ['#'] ++ itemId context [token] :=
    List.not_mem_append (by decide) (quote_not_mem_itemId hdocId [token])
  have hmark : (quotedMark? (tagText "a".toList (referenceProperties context token))).toList =
      [referenceAnchor context token] :=
    quotedMark?_tagText (by decide) ((areQuoted_nil.cons "id".toList (by decide)
      (quote_not_mem_referenceId hdocId token)).cons "href".toList (by decide) htarget) (.inl rfl)
  exact hmark ▸ finds_referenceMarkup passesOver_quotedMark? hdocId token

/-- **A note** is read as its own mark, those of its body and the links back. -/
theorem finds_quotedMark_noteItem {anchor : FootnoteAnchor}
    (hanchor : anchor = stockAnchor ∨ anchor = backrefAnchor) (tokens : List FootnoteToken)
    {body : Text} (hbody : Finds quotedMark? found body) :
    Finds quotedMark? (itemAnchor context tokens :: found ++ tokens.map (backAnchor context))
      (noteItem context standardNaming anchor tokens body) := by
  have hback : ∀ token, (quotedMark? (tagText "a".toList (backProperties context token))).toList =
      [backAnchor context token] := fun token =>
    have htarget : '"' ∉ ['#'] ++ referenceId context token :=
      List.not_mem_append (by decide) (quote_not_mem_referenceId hdocId token)
    quotedMark?_tagText (by decide) ((areQuoted_nil.cons "class".toList (by decide)
      (by decide)).cons "href".toList (by decide) htarget) (.inl rfl)
  have hself : (quotedMark? (tagText "li".toList (itemProperties context tokens))).toList =
      [itemAnchor context tokens] :=
    quotedMark?_tagText (by decide) ((areQuoted_nil.cons "class".toList (by decide)
      (by decide)).cons "id".toList (by decide) (quote_not_mem_itemId hdocId tokens))
      (.inr (.inl rfl))
  have hitem := finds_noteItem passesOver_quotedMark? hdocId hanchor tokens hbody
  simp only [hself, hback, ← List.map_eq_flatMap] at hitem
  simpa using hitem

end Quotes

/-! ### Pages -/

/-- The mark that an event leaves: that of a reference, with its token. -/
def markLeft (context : PageContext) (before : List Event) : Event → List Anchor
  | .footnoteReference label =>
    [referenceAnchor context (nextToken (referenceLabels before) label)]
  | _ => []

/-- The **marks of the footnotes** of a stream, as they are meant: the references in the output, and
for each label that is referred to its item, the references in its note and the links back. -/
def footnoteMarks (context : PageContext) (events : List Event) : List Anchor :=
  (course (markLeft context) events).here ++
    (referenceLabels events).eraseDups.flatMap fun label =>
      let tokens := tokensOf (numbered [] (referenceLabels events)) label
      itemAnchor context tokens ::
        (((course (markLeft context) events).notes.lookup label).getD []) ++
        tokens.map (backAnchor context)

/-- How a page is read by a reader who knows **quotes**: the marks that were written are there, if
there are none or the id of the document has no quotes. Raw markup is not read. -/
def quotedReading (hnaming : style.naming = standardNaming)
    (hanchor : style.anchor = stockAnchor ∨ style.anchor = backrefAnchor) :
    Reading style Anchor where
  leaves := markLeft style.context
  Reads found s :=
    found = [] ∨ (∀ docId ∈ style.context.docId, '"' ∉ docId) → Finds quotedMark? found s
  Inside := StandsQuoted
  readsRaw := False
  ofItem tokens found :=
    itemAnchor style.context tokens :: found ++ tokens.map (backAnchor style.context)
  filler h :=
    ⟨fun _ => (finds_filler passesOver_quotedMark? h).1, (finds_filler passesOver_quotedMark? h).2⟩
  raw h := h.elim
  append hs ht h :=
    (hs (h.imp_left fun h => (List.append_eq_nil_iff.1 h).1)).append
      (ht (h.imp_left fun h => (List.append_eq_nil_iff.1 h).2))
  inside_append := StandsQuoted.append
  trimEnd hs h := (hs h).trimEnd
  leaves_eq_nil _ event hreference _ _ := by
    cases event with
    | footnoteReference label => exact absurd rfl (hreference label)
    | _ => rfl
  reference label hrun h := by
    rw [FootnoteLedger.reference_eq (KnowsNotes.of_run hrun).references label, hnaming]
    exact finds_quotedMark_referenceMarkup (h.resolve_left nofun) _
  inside_reference h _ := nomatch h []
  heading _ _ hcontent _ h := by
    have hfound := h.imp_left fun h => (List.append_eq_nil_iff.1 h).1
    exact (List.append_nil _).symm ▸
      finds_quotedMark_headingElement (isValue_next _ _) (hcontent hfound)
  apart := .inr fun _ _ => rfl
  image _ _ _ _ h _ := finds_imageTag passesOver_quotedMark? _ _ h
  image_closed _ _ := rfl
  item tokens hbody h := by
    have hdocId := h.resolve_left nofun
    rw [hnaming]
    exact finds_quotedMark_noteItem hdocId hanchor tokens (hbody (.inr hdocId))

/-- A stream without references has no marks. -/
theorem footnoteMarks_eq_nil {events : List Event} (h : referenceLabels events = []) :
    footnoteMarks context events = [] := by
  have hevents : ∀ event ∈ events, ∀ before, markLeft context before event = [] := by
    intro event hevent before
    cases event with
    | footnoteReference label =>
      have hmem : label ∈ referenceLabels events :=
        List.mem_filterMap.2 ⟨.footnoteReference label, hevent, rfl⟩
      simp [h] at hmem
    | _ => rfl
  have hedges : ∀ (before : List Event) (event : Event), event.isNoteEdge = true →
      markLeft context before event = [] := by
    intro before event hedge
    rcases Event.eq_of_isNoteEdge hedge with ⟨label, rfl⟩ | rfl <;> rfl
  have hthings := @Course.perm_things _ (markLeft context) events hedges
  rw [leftBehind_eq_nil hevents] at hthings
  have hhere : (course (markLeft context) events).here = [] := by
    have hnothing := hthings.eq_nil
    simp only [Course.things, List.append_eq_nil_iff] at hnothing
    exact hnothing.1.1.1
  simp [footnoteMarks, hhere, h]

/-- A mark that is read has an id without quotes. -/
theorem quote_not_mem_of_finds {anchor : Anchor} {id : Text} (h : Finds quotedMark? found s)
    (hmem : anchor ∈ found) (hid : anchor.id = some id) : '"' ∉ id := by
  obtain ⟨-, rfl⟩ := h
  obtain ⟨tag, -, hmark⟩ := List.mem_filterMap.1 hmem
  unfold quotedMark? at hmark
  split at hmark
  · obtain rfl := Option.some.inj hmark
    exact quote_not_mem_of_value? hid
  · cases hmark

/-- **With which ids footnotes are read as they were meant**, on the page of any well-nested stream
without raw markup whose headings and images hold lines, and whose images hold no references. By the
standard names and either of the anchor rules of a site, each reference, item and link back is one
tag, and the id and the target in it are the names that were meant, if and only if the id of the
document has no double quote, or there are no footnotes at all. -/
theorem quotedMarks_renderEvents {trees : List Markdown.Tree} {docId : Text}
    (htrees : ∀ tree ∈ trees, StandsInText (·.reference? = none) tree)
    (hraw : ∀ event ∈ Markdown.Tree.eventsOfList trees, event.isRaw = false)
    (hnaming : style.naming = standardNaming)
    (hanchor : style.anchor = stockAnchor ∨ style.anchor = backrefAnchor)
    (hdocId : style.context.docId = some docId) :
    ∃ page, renderEvents style (Markdown.Tree.eventsOfList trees) = .ok page ∧
      (Finds quotedMark? (footnoteMarks style.context (Markdown.Tree.eventsOfList trees))
          page.html ↔
        referenceLabels (Markdown.Tree.eventsOfList trees) = [] ∨ '"' ∉ docId) := by
  have hquiet : ∀ event : Event, event.reference? = none →
      (quotedReading hnaming hanchor).IsQuiet event := by
    intro event hevent before
    cases event with
    | footnoteReference label => cases hevent
    | _ => rfl
  obtain ⟨w, hrun, hreads⟩ := exists_page_reads (quotedReading hnaming hanchor) htrees hquiet
    fun event hevent h => by simp [hraw event hevent] at h
  refine ⟨w.page style, by rw [renderEvents, hrun]; rfl, fun h => ?_, fun h => hreads ?_⟩
  · refine Classical.or_iff_not_imp_left.2 fun hlabels => ?_
    obtain ⟨label, hlabel⟩ := List.exists_mem_of_ne_nil _ hlabels
    have hitem : itemAnchor style.context (tokensOf (numbered []
          (referenceLabels (Markdown.Tree.eventsOfList trees))) label) ∈
        footnoteMarks style.context (Markdown.Tree.eventsOfList trees) :=
      List.mem_append_right _ (List.mem_flatMap.2
        ⟨label, List.mem_eraseDups.2 hlabel, List.mem_append_left _ List.mem_cons_self⟩)
    have hquote := quote_not_mem_of_finds h hitem rfl
    rw [itemId_eq (head?_tokensOf hlabel), noteName, docPrefix, hdocId] at hquote
    exact fun hmem => hquote (by simp [hmem])
  · refine h.imp footnoteMarks_eq_nil fun hquote other hother => ?_
    rw [hdocId] at hother
    exact Option.some.inj hother ▸ hquote

/-- Brackets in an id do no harm: a tag ends behind its values. -/
theorem quotedMarks_bracketedId :
    let trees : List Markdown.Tree := [.node .paragraph [.leaf (.footnoteReference ['n'])],
      .node (.footnote ['n']) [.node .paragraph [.leaf (.text "note".toList)]]]
    let style : PageStyle := { anchor := backrefAnchor, context := { docId := some "a<b>".toList } }
    (∀ tree ∈ trees, StandsInText (·.reference? = none) tree) ∧
      (∀ event ∈ Markdown.Tree.eventsOfList trees, event.isRaw = false) ∧
      ∃ page, renderEvents style (Markdown.Tree.eventsOfList trees) = .ok page ∧
        (Finds quotedMark? (footnoteMarks style.context (Markdown.Tree.eventsOfList trees))
            page.html ↔
          referenceLabels (Markdown.Tree.eventsOfList trees) = [] ∨ '"' ∉ "a<b>".toList) := by
  intro trees style
  have hparagraph : ∀ event : Event, event.isEdge = false →
      StandsInText (·.reference? = none) (.node .paragraph [.leaf event]) := fun event hevent =>
    .node rfl (List.forall_mem_singleton.2 (.line (.leaf hevent)))
  have htrees : ∀ tree ∈ trees, StandsInText (·.reference? = none) tree :=
    List.forall_mem_cons.2 ⟨hparagraph _ rfl, List.forall_mem_singleton.2
      (.footnote (List.forall_mem_singleton.2 (hparagraph _ rfl)))⟩
  have hraw : ∀ event ∈ Markdown.Tree.eventsOfList trees, event.isRaw = false := by decide
  exact ⟨htrees, hraw, quotedMarks_renderEvents htrees hraw rfl (.inr rfl) rfl⟩

/-- **The settings let an id with a quote through**, and the names that have it in them end
early. -/
theorem quotedMarks_quotedId :
    let style : PageStyle := { context := { docId := some "a\"b".toList } }
    let events := Document.parse "x[^n]\n\n[^n]: note\n".toList
    Settings.docIdProblem style.context.docId = [] ∧
      (renderEvents style events).toOption.map
        (fun page => decide (Finds quotedMark? (footnoteMarks style.context events) page.html)) =
          some false := by
  decide +kernel

end Lectern.Page
