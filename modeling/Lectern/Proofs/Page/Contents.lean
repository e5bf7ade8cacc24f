import Lectern.Proofs.Page.Finding
import Lectern.Proofs.Page.Following
import Lectern.Proofs.Page.Outline
import Lectern.Proofs.Page.Pieces

/-!
# The Table of Contents and the Page

The table of contents is written while the stream goes by, and the page is put together at its end.
So the two have the same headings only if the notes with headings in them are shown: a heading in a
definition that nothing refers to, or that a later one takes the place of, has an entry and no
element.

A page is looked through in two ways. The elements of the headings that are shown stand in it one
behind the other, whatever else there is; and without raw markup, a reader who knows quotes finds no
other heading.

## Main results

* `elementReading`: the elements of headings, on any page.
* `tagReading`: the tags of headings, on pages without raw markup.
* `headings_renderEvents`: the headings of a page, and when they are those of its table of contents.
-/

namespace Lectern.Page

open Markdown Markup

variable {style : PageStyle} {context : PageContext} {entry : TocEntry}
  {entries more : List TocEntry} {s t : Text} {before events : List Event} {w : Writer}

/-! ### What a heading leaves -/

/-- Only the end of a heading leaves one. -/
theorem headingLeft_eq_nil {event : Event} (h : ∀ level, event ≠ .finish (.heading level)) :
    headingLeft before event = [] := by
  rw [headingLeft, Outline.closed_eq_none h]
  rfl

/-- **The end of an open heading** leaves it, with the id that the writer gives it. -/
theorem headingLeft_of_run {heading : OpenHeading} (hrun : Writer.run style {} before = .ok w)
    (hopen : w.heading = some heading) (level : Nat) :
    headingLeft before (.finish (.heading level)) = [⟨heading.level, Text.collapse heading.text,
      (w.slugs.next (Text.collapse heading.text)).1⟩] := by
  have hknows := KnowsOutline.of_run hrun
  rw [headingLeft, Outline.closed, ← hknows.current, ← hknows.slugs, hopen]
  rfl

/-! ### Elements -/

/-- The properties of the tag of a heading. -/
def headingProperties (entry : TocEntry) : List Property := [⟨"id".toList, some entry.id⟩]

/-- The **element** of a heading. -/
def headingMarkup (entry : TocEntry) (content : Text) : Text :=
  openTag ('h' :: Text.decimal entry.level) (headingProperties entry) ++ content ++
    closeTag ('h' :: Text.decimal entry.level)

/-- Whether elements of the given headings **stand in** a markup, one behind the other. -/
inductive StandIn : List TocEntry → Text → Prop
  | nil (s : Text) : StandIn [] s
  | cons {entry : TocEntry} {entries : List TocEntry} {rest : Text} (lead content : Text) :
      StandIn entries rest →
      StandIn (entry :: entries) (lead ++ headingMarkup entry content ++ rest)

/-- An element ends with a digit and a bracket. -/
theorem exists_headingMarkup_eq (entry : TocEntry) (content : Text) :
    ∃ front digit, digit.isDigit = true ∧ headingMarkup entry content = front ++ [digit, '>'] := by
  have hlevel := List.dropLast_append_getLast (Text.decimal_ne_nil entry.level)
  refine ⟨openTag ('h' :: Text.decimal entry.level) (headingProperties entry) ++ content ++
    ("</h".toList ++ (Text.decimal entry.level).dropLast), _,
    Text.isDigit_of_mem_decimal (List.getLast_mem (Text.decimal_ne_nil entry.level)), ?_⟩
  have hclose : closeTag ('h' :: Text.decimal entry.level) = "</h".toList ++
      ((Text.decimal entry.level).dropLast ++ [(Text.decimal entry.level).getLast
        (Text.decimal_ne_nil entry.level)]) ++ ['>'] := by
    rw [hlevel]
    simp [closeTag]
  rw [headingMarkup, hclose]
  simp

/-- Elements are delimited like tags. -/
theorem likeTags_headingMarkup :
    LikeTags fun entry piece => ∃ content, piece = headingMarkup entry content where
  begins := by
    rintro entry piece ⟨content, rfl⟩
    rfl
  ends := by
    rintro entry piece ⟨content, rfl⟩
    obtain ⟨front, digit, hdigit, hmarkup⟩ := exists_headingMarkup_eq entry content
    refine ⟨front, digit, ?_, hmarkup⟩
    rintro rfl
    cases hdigit

/-- The elements that stand in a markup are pieces of it. -/
theorem standIn_iff : StandIn entries s ↔
    HasPieces (fun entry piece => ∃ content, piece = headingMarkup entry content) entries s := by
  constructor
  · intro h
    induction h with
    | nil s => exact .nil s
    | cons lead content _ ih => exact .cons lead ⟨content, rfl⟩ ih
  · intro h
    induction h with
    | nil s => exact .nil s
    | cons lead hpiece _ ih =>
      obtain ⟨content, rfl⟩ := hpiece
      exact .cons lead content ih

/-- Elements behind elements. -/
theorem StandIn.append (hs : StandIn entries s) (ht : StandIn more t) :
    StandIn (entries ++ more) (s ++ t) :=
  standIn_iff.2 ((standIn_iff.1 hs).append (standIn_iff.1 ht))

/-- Trimming at the end takes no elements. -/
theorem StandIn.trimEnd (h : StandIn entries s) : StandIn entries (Text.trimEnd s) :=
  standIn_iff.2 ((standIn_iff.1 h).trimEnd likeTags_headingMarkup)

/-- An item has the elements of its body. -/
theorem StandIn.noteItem (h : StandIn entries s) (context : PageContext) (naming : FootnoteNaming)
    (anchor : FootnoteAnchor) (tokens : List FootnoteToken) :
    StandIn entries (noteItem context naming anchor tokens s) :=
  standIn_iff.2 ((standIn_iff.1 h).noteItem likeTags_headingMarkup context naming anchor tokens)

/-- The writer's element of a heading. -/
theorem headingElement_eq (level : Nat) (title id content : Text) :
    Writer.headingElement level id content =
      headingMarkup ⟨level, title, id⟩ (Text.trim content) ++ ['\n'] := by
  unfold Writer.headingElement headingMarkup headingProperties
  simp [openTag, closeTag, Property.text]

/-- How the **elements** of headings are found, on any page. -/
def elementReading (style : PageStyle) : Reading style TocEntry where
  leaves := headingLeft
  Reads := StandIn
  Inside _ := True
  readsRaw := True
  ofItem _ found := found
  filler _ := ⟨.nil _, trivial⟩
  raw _ s := ⟨.nil s, trivial⟩
  append := StandIn.append
  inside_append _ _ := trivial
  trimEnd := StandIn.trimEnd
  leaves_eq_nil _ _ _ h _ := headingLeft_eq_nil h
  reference _ _ := .nil _
  inside_reference _ _ := trivial
  heading hrun hopen _ hor := by
    have hleft := headingLeft_of_run hrun hopen
    rw [hleft] at hor ⊢
    obtain rfl := hor.resolve_right (List.cons_ne_nil _ _)
    rw [headingElement_eq]
    exact .cons [] _ (.nil _)
  apart := .inl fun _ => ⟨fun _ => rfl, rfl⟩
  image _ _ _ _ _ := .nil _
  image_closed _ _ := rfl
  item tokens h := h.noteItem _ _ _ tokens

/-! ### Tags -/

/-- The tag of a heading, as the text between its brackets. -/
def headingTag (entry : TocEntry) : Text :=
  tagText ('h' :: Text.decimal entry.level) (headingProperties entry)

/-- A tag is one of a heading if its name says so. -/
theorem isHeadingName_tagText (name : Text) (properties : List Property) :
    isHeadingName (tagText name properties) = isHeadingName name := by
  -- behind a name comes a blank, if anything
  have hproperties : ∀ lead : Text, lead = [] ∨ lead = ['h'] →
      isHeadingName (lead ++ properties.flatMap Property.text) = false := by
    rintro lead (rfl | rfl) <;> cases properties <;> rfl
  unfold tagText
  match name with
  | [] => exact hproperties [] (.inl rfl)
  | [c] =>
    by_cases hc : c = 'h'
    · subst hc
      exact hproperties ['h'] (.inr rfl)
    · unfold isHeadingName
      split <;> simp_all
  | first :: second :: name => unfold isHeadingName; split <;> simp_all

/-- The tag of a heading is one. -/
theorem isHeadingName_headingTag (entry : TocEntry) : isHeadingName (headingTag entry) = true := by
  rw [headingTag, isHeadingName_tagText]
  have hdigits := @Text.isDigit_of_mem_decimal entry.level
  cases hlevel : Text.decimal entry.level with
  | nil => exact absurd hlevel (Text.decimal_ne_nil _)
  | cons c rest => exact hdigits (hlevel ▸ List.mem_cons_self)

/-- The tags of headings are not among filler. -/
theorem passesOver_isHeadingName : PassesOver (Option.guard isHeadingName) where
  closeTag name := rfl
  image rest := rfl
  openTag _ hheading _ _ := by simp [Option.guard, isHeadingName_tagText, hheading]

section Ids

variable (hdocId : ∀ docId ∈ context.docId, ∀ c ∈ docId, isHtmlSpecial c = false)

include hdocId

/-- An id without special characters has no quotes. -/
theorem quote_not_mem_docId : ∀ docId ∈ context.docId, '"' ∉ docId := by
  intro docId hmem hquote
  exact absurd (hdocId docId hmem '"' hquote) (by decide)

/-- A reference can stand in a value. -/
theorem standsQuoted_referenceMarkup (token : FootnoteToken) :
    StandsQuoted (referenceMarkup token context standardNaming) := by
  have hsharp : IsValue ['#'] := by decide
  have hclass : IsValue "footnote-ref".toList := by decide
  have hcaption := standsQuoted_of_not_mem (isValue_captionAt [token] 0).quote_not_mem
  have hlink : StandsQuoted (openTag "a".toList (referenceProperties context token)) :=
    standsQuoted_openTag (by decide) ((areSafe_nil.cons "id".toList (by decide)
      (isValue_referenceId hdocId token)).cons "href".toList (by decide)
        (hsharp.append (isValue_itemId hdocId [token])))
  have hsup : StandsQuoted (openTag "sup".toList [⟨"class".toList, some "footnote-ref".toList⟩]) :=
    standsQuoted_openTag (by decide) (areSafe_nil.cons "class".toList (by decide) hclass)
  have hclose : ∀ name : Text, '"' ∉ closeTag name → StandsQuoted (closeTag name) :=
    fun _ => standsQuoted_of_not_mem
  rw [referenceMarkup_eq]
  exact (hsup.append ((hlink.append hcaption).append (hclose _ (by decide)))).append
    (hclose _ (by decide))

end Ids

/-- How the **tags** of headings are found, on pages without raw markup. -/
def tagReading (hnaming : style.naming = standardNaming)
    (hanchor : style.anchor = stockAnchor ∨ style.anchor = backrefAnchor)
    (hdocId : ∀ docId ∈ style.context.docId, ∀ c ∈ docId, isHtmlSpecial c = false) :
    Reading style TocEntry where
  leaves := headingLeft
  Reads found s := Finds (Option.guard isHeadingName) (found.map headingTag) s
  Inside := StandsQuoted
  readsRaw := False
  ofItem _ found := found
  filler h := finds_filler passesOver_isHeadingName h
  raw h := h.elim
  append hs ht := by
    rw [List.map_append]
    exact hs.append ht
  inside_append := StandsQuoted.append
  trimEnd := Finds.trimEnd
  leaves_eq_nil _ _ _ h _ := headingLeft_eq_nil h
  reference _ _ := by
    rw [hnaming]
    exact finds_referenceMarkup passesOver_isHeadingName (quote_not_mem_docId hdocId) _
  inside_reference _ token := by
    rw [hnaming]
    exact standsQuoted_referenceMarkup hdocId token
  heading {before w heading found content} hrun hopen hcontent hor := by
    have hleft := headingLeft_of_run hrun hopen
    rw [hleft] at hor ⊢
    obtain rfl := hor.resolve_right (List.cons_ne_nil _ _)
    have helement := finds_headingElement passesOver_isHeadingName heading.level
      (isValue_next w.slugs (Text.collapse heading.text)) hcontent
    have hkept := isHeadingName_headingTag ⟨heading.level, Text.collapse heading.text,
      (w.slugs.next (Text.collapse heading.text)).1⟩
    rw [headingTag, headingProperties] at hkept
    rw [Option.guard, if_pos hkept] at helement
    exact helement
  apart := .inl fun _ => ⟨fun _ => rfl, rfl⟩
  image _ _ _ _ h := finds_imageTag passesOver_isHeadingName _ _ h
  image_closed _ _ := rfl
  item tokens h := by
    rw [hnaming]
    have hnone : ∀ name properties, isHeadingName name = false →
        Option.guard isHeadingName (tagText name properties) = none := fun name properties hname =>
      by simp [Option.guard, isHeadingName_tagText, hname]
    have hitem := finds_noteItem passesOver_isHeadingName (quote_not_mem_docId hdocId) hanchor
      tokens h
    simp only [hnone "li".toList _ (by decide), hnone "a".toList _ (by decide)] at hitem
    have hall : (tokens.flatMap fun _ => (none : Option Text).toList) = [] := by simp
    rw [hall] at hitem
    simpa using hitem

/-! ### Pages -/

/-- **The headings of a page, and those of its title and its table of contents**, for any document.
The title and the table of contents have all headings of the document, in its order. The headings
that are shown have elements on the page, one behind the other, and these are all its headings if
there is no raw markup. So there is one element for each entry and for the title, and one of these
for each element, if and only if no heading is hidden: none has been put away by a definition with
another one in it, and none stands in a definition that nothing refers to or that a later one takes
the place of. -/
theorem headings_renderEvents (style : PageStyle) (source : Text) :
    let events := Document.parse source
    let headings := (outline events).entries
    let labels := (referenceLabels events).eraseDups
    let shown := (course headingLeft events).shown labels
    ∃ page, renderEvents style events = .ok page ∧
      page.title = Outline.titleOf style.extractTitle headings ∧
      page.toc = Outline.tocOf style.extractTitle headings ∧
      StandIn shown page.html ∧
      (shown.Perm headings ↔ (course headingLeft events).hidden labels = []) ∧
      (style.naming = standardNaming →
        (style.anchor = stockAnchor ∨ style.anchor = backrefAnchor) →
        (∀ docId ∈ style.context.docId, ∀ c ∈ docId, isHtmlSpecial c = false) →
        (∀ event ∈ events, event.isRaw = false) →
        Finds (Option.guard isHeadingName) (shown.map headingTag) page.html) := by
  intro events headings labels shown
  have htrees : ∀ tree ∈ Document.trees source,
      StandsInText (fun event => ∀ level, event ≠ .finish (.heading level)) tree :=
    fun tree htree => (Document.isPart_of_mem_trees htree).standsInText
  have hquiet : ∀ event : Event, (∀ level, event ≠ .finish (.heading level)) →
      ∀ before, headingLeft before event = [] := fun event h before => headingLeft_eq_nil h
  have hedges : ∀ (before : List Event) (event : Event), event.isNoteEdge = true →
      headingLeft before event = [] := by
    intro before event hedge
    rcases Event.eq_of_isNoteEdge hedge with ⟨label, rfl⟩ | rfl <;> rfl
  obtain ⟨w, hrun, hstand⟩ := exists_page_reads (elementReading style) htrees hquiet
    fun _ _ _ => trivial
  have hparse : Writer.run style {} events = .ok w := hrun
  have hknows := KnowsOutline.of_run hparse
  refine ⟨w.page style, by rw [renderEvents, hparse]; rfl, hknows.title, hknows.toc,
    hstand, ?_, fun hnaming hanchor hdocId hraw => ?_⟩
  · have hall := @Course.shown_perm_iff _ headingLeft events hedges labels (nodup_eraseDups _)
    rwa [← Outline.entries_outline] at hall
  · obtain ⟨w', hrun', hfinds⟩ := exists_page_reads (tagReading hnaming hanchor hdocId) htrees
      hquiet fun event hevent h => by simp [hraw event hevent] at h
    obtain rfl := Except.ok.inj (hrun.symm.trans hrun')
    exact hfinds

/-- A heading in a note comes back with it. -/
theorem headings_shownNote :
    let style : PageStyle := { extractTitle := true, anchor := backrefAnchor }
    let events := Document.parse "# T\n\nx[^a]\n\n[^a]: ## h\n".toList
    (∀ docId ∈ style.context.docId, ∀ c ∈ docId, isHtmlSpecial c = false) ∧
      (∀ event ∈ events, event.isRaw = false) ∧
      ∃ page, renderEvents style events = .ok page ∧ page.title = some "T".toList ∧
        page.toc = [⟨2, "h".toList, "h".toList⟩] ∧
        Finds (Option.guard isHeadingName) ["h1 id=\"t\"".toList, "h2 id=\"h\"".toList]
          page.html := by
  intro style events
  have hdocId : ∀ docId ∈ style.context.docId, ∀ c ∈ docId, isHtmlSpecial c = false := nofun
  have hraw : ∀ event ∈ events, event.isRaw = false := by decide +kernel
  have hheadings : (outline events).entries =
      [⟨1, "T".toList, "t".toList⟩, ⟨2, "h".toList, "h".toList⟩] := by
    decide +kernel
  have hshown : (course headingLeft events).shown (referenceLabels events).eraseDups =
      (outline events).entries := by
    decide +kernel
  obtain ⟨page, hpage, htitle, htoc, -, -, hfinds⟩ :=
    headings_renderEvents style "# T\n\nx[^a]\n\n[^a]: ## h\n".toList
  have htags := hfinds rfl (.inr rfl) hdocId hraw
  rw [hheadings] at htitle htoc
  rw [hshown, hheadings] at htags
  exact ⟨hdocId, hraw, page, hpage, htitle, htoc, htags⟩

/-- **A heading in a note that nothing refers to** has an entry, and is not on the page. -/
theorem headings_unreferencedNote :
    (renderEvents {} (Document.parse "[^a]: # h\n".toList)).toOption =
      some ⟨[], none, [⟨1, "h".toList, "h".toList⟩]⟩ := by
  decide +kernel

end Lectern.Page
