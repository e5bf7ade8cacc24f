import Lectern.Proofs.Page.Body
import Lectern.Proofs.Page.Course
import Lectern.Proofs.Page.Filler

/-!
# Following the Writer

Where the things of a document are found on its page. What is followed is up to a `Reading` of the
page: the things that single events leave, and how they are found in a markup. The laws of a reading
speak of pieces of markup alone; that the writer puts these pieces where the course of the stream
says is shown here, once for all readings.

## Main results

* `Writer.writes_line`: the parts of a line leave their things where they stand.
* `Writer.Follows.part`: the parts of a document.
* `Reading.reads_page`: where a page has the things of its stream.
* `exists_page_reads_images`, `exists_page_reads`: each document has a page, which has its things.
-/

namespace Lectern.Page

open Markdown Markup

variable {α : Type}

/-! ### Readings -/

/-- A **reading** of pages: which things the events of a stream leave, and how they are found. -/
structure Reading (style : PageStyle) (α : Type) where
  /-- What an event leaves behind others. -/
  leaves : List Event → Event → List α
  /-- Whether a markup has the given things, and can be read to its end. -/
  Reads : List α → Text → Prop
  /-- Whether a markup can be the alternative text of an image. -/
  Inside : Text → Prop
  /-- Whether raw markup can be read. -/
  readsRaw : Prop
  /-- The things of an item, from those of the body of its note. -/
  ofItem : List FootnoteToken → List α → List α
  filler : ∀ {s}, IsFiller s → Reads [] s ∧ Inside s
  raw : readsRaw → ∀ s, Reads [] s ∧ Inside s
  append : ∀ {found more s t}, Reads found s → Reads more t → Reads (found ++ more) (s ++ t)
  inside_append : ∀ {s t}, Inside s → Inside t → Inside (s ++ t)
  trimEnd : ∀ {found s}, Reads found s → Reads found (Text.trimEnd s)
  leaves_eq_nil : ∀ before {event}, (∀ label, event ≠ .footnoteReference label) →
    (∀ level, event ≠ .finish (.heading level)) → event ≠ .finish .image → leaves before event = []
  reference : ∀ {before w} label, Writer.run style {} before = .ok w →
    Reads (leaves before (.footnoteReference label))
      (referenceMarkup (w.footnotes.reference label).1 style.context style.naming)
  inside_reference : ∀ {label}, (∀ before, leaves before (.footnoteReference label) = []) →
    ∀ token, Inside (referenceMarkup token style.context style.naming)
  heading : ∀ {before w heading found content}, Writer.run style {} before = .ok w →
    w.heading = some heading → Reads found content →
    found = [] ∨ leaves before (.finish (.heading heading.level)) = [] →
    Reads (found ++ leaves before (.finish (.heading heading.level)))
      (Writer.headingElement heading.level (w.slugs.next (Text.collapse heading.text)).1 content)
  /-- Headings do not leave things if references or images do. -/
  apart : (∀ before, (∀ label, leaves before (.footnoteReference label) = []) ∧
      leaves before (.finish .image) = []) ∨
    ∀ before level, leaves before (.finish (.heading level)) = []
  image : ∀ {before w written alternative url title}, Writer.run style {} before = .ok w →
    w.image = some (url, title) → w.imageStart = some (Text.byteLength written) →
    w.output = written ++ alternative → Inside alternative →
    Reads (leaves before (.finish .image)) (Writer.imageTag url title alternative)
  /-- The end of an image leaves nothing if another one has come before it. -/
  image_closed : ∀ {before w}, Writer.run style {} before = .ok w → w.image = none →
    leaves before (.finish .image) = []
  item : ∀ {found body} tokens, Reads found body →
    Reads (ofItem tokens found)
      (noteItem style.context style.naming style.anchor tokens body)

/-- The kinds of events that leave nothing, so that they can stand in the description of an
image. -/
def Reading.IsQuiet {style : PageStyle} (R : Reading style α) (event : Event) : Prop :=
  ∀ before, R.leaves before event = []

/-- Whether a note has the things that are known of it. -/
def Reading.IsNote {style : PageStyle} (R : Reading style α) (known : Text × List α)
    (note : Text × Text) : Prop :=
  known.1 = note.1 ∧ R.Reads known.2 note.2

namespace Writer

variable {style : PageStyle} {R : Reading style α} {before events more : List Event}
  {u v w w' : Writer} {event : Event} {tree : Markdown.Tree} {trees : List Markdown.Tree}
  {markup s t : Text} {inImage : Event → Prop}

/-! ### Lines -/

/-- Whether the writer `w'` is `w` after `events` behind others, which have appended `markup` with
the things that they leave. -/
structure Writes (R : Reading style α) (before events : List Event) (markup : Text)
    (w w' : Writer) : Prop where
  run : Writer.run style w events = .ok w'
  output : w'.output = w.output ++ markup
  reads : R.Reads (leftBehind R.leaves before events) markup
  outer : w'.outer = w.outer
  definitions : w'.footnotes.definitions = w.footnotes.definitions

/-- Whether `events` have been written **within a line**. An open heading may have more plain text.
An open image is open still, or one of the same line has taken its place and ended. -/
structure WritesLine (R : Reading style α) (before events : List Event) (markup : Text)
    (w w' : Writer) : Prop extends Writes R before events markup w w' where
  heading : ∃ text, w'.heading = w.heading.map fun h => { h with text := h.text ++ text }
  image : (w'.imageStart = none ∧ w'.image = none ∧ ∃ event ∈ events, event.isImageEdge = true) ∨
    w'.imageStart = w.imageStart ∧ w'.image = w.image ∧
      (∀ event ∈ events, event.isImageEdge = false) ∧
      ((∀ event ∈ events, R.IsQuiet event) → R.Inside markup)

/-- No events. -/
theorem writesLine_nil (R : Reading style α) (before : List Event) (w : Writer) :
    WritesLine R before [] [] w w where
  run := rfl
  output := (List.append_nil _).symm
  reads := (R.filler .nil).1
  outer := rfl
  definitions := rfl
  heading := ⟨[], by cases w.heading <;> simp⟩
  image := .inr ⟨rfl, rfl, by simp, fun _ => (R.filler .nil).2⟩

/-- Events after events. -/
theorem Writes.trans (huv : Writes R before events s u v)
    (hvw : Writes R (before ++ events) more t v w) :
    Writes R before (events ++ more) (s ++ t) u w where
  run := by
    rw [run_append, huv.run]
    exact hvw.run
  output := by rw [hvw.output, huv.output, List.append_assoc]
  reads := by
    rw [leftBehind_append]
    exact R.append huv.reads hvw.reads
  outer := hvw.outer.trans huv.outer
  definitions := hvw.definitions.trans huv.definitions

/-- Parts of a line after each other. -/
theorem WritesLine.trans (huv : WritesLine R before events s u v)
    (hvw : WritesLine R (before ++ events) more t v w) :
    WritesLine R before (events ++ more) (s ++ t) u w where
  toWrites := huv.toWrites.trans hvw.toWrites
  heading := by
    obtain ⟨s, hs⟩ := huv.heading
    obtain ⟨t, ht⟩ := hvw.heading
    exact ⟨s ++ t, by rw [ht, hs]; cases u.heading <;> simp⟩
  image := by
    rcases hvw.image with ⟨hstart, himage, event, hmem, hedge⟩ | ⟨hstart, himage, hedges, hinside⟩
    · exact .inl ⟨hstart, himage, event, List.mem_append_right _ hmem, hedge⟩
    rcases huv.image with ⟨hstart', himage', event, hmem, hedge⟩ |
      ⟨hstart', himage', hedges', hinside'⟩
    · exact .inl ⟨hstart.trans hstart', himage.trans himage', event, List.mem_append_left _ hmem,
        hedge⟩
    · refine .inr ⟨hstart.trans hstart', himage.trans himage',
        List.forall_mem_append.2 ⟨hedges', hedges⟩, fun hquiet => ?_⟩
      obtain ⟨hfirst, hsecond⟩ := List.forall_mem_append.1 hquiet
      exact R.inside_append (hinside' hfirst) (hinside hsecond)

/-- What one event adds, as it is read. -/
theorem Adds.writesLine (h : Adds markup w w') (hstep : step style w event = .ok w')
    (hedge : event.isImageEdge = false) (hreads : R.Reads (R.leaves before event) markup)
    (hinside : R.IsQuiet event → R.Inside markup) :
    WritesLine R before [event] markup w w' where
  run := (run_singleton w event).trans hstep
  output := h.output
  reads := by simpa [leftBehind] using hreads
  outer := h.outer
  definitions := h.definitions
  heading := h.heading
  image := .inr ⟨h.imageStart, h.image, List.forall_mem_singleton.2 hedge,
    fun hquiet => hinside (hquiet event List.mem_cons_self)⟩

/-- An event that fills the page leaves nothing. -/
theorem leaves_of_fills (R : Reading style α) (before : List Event) (h : event.fills = true) :
    R.leaves before event = [] := by
  refine R.leaves_eq_nil before ?_ ?_ ?_
  · rintro _ rfl
    cases h
  · rintro _ rfl
    cases h
  · rintro rfl
    cases h

/-- **An event that fills the page.** -/
theorem writesLine_fills (R : Reading style α) (before : List Event) (w : Writer)
    (h : event.fills = true) : ∃ markup w', WritesLine R before [event] markup w w' := by
  obtain ⟨markup, w', hstep, hfiller, hadds⟩ := exists_adds_fills style w h
  refine ⟨markup, w', hadds.writesLine hstep (Event.isImageEdge_of_fills h) ?_
    fun _ => (R.filler hfiller).2⟩
  rw [leaves_of_fills R before h]
  exact (R.filler hfiller).1

/-- **An event within a line.** -/
theorem writesLine_leaf (hedge : event.isEdge = false)
    (hraw : event.isRaw = true → R.readsRaw) (hrun : Writer.run style {} before = .ok w) :
    ∃ markup w', WritesLine R before [event] markup w w' := by
  have hinside : event.isImageEdge = false := Event.isImageEdge_of_isEdge hedge
  have hraws : event.isRaw = true → R.leaves before event = [] →
      ∃ markup w', WritesLine R before [event] markup w w' := by
    intro hevent hleaves
    obtain ⟨markup, w', hstep, hadds⟩ := exists_adds_raw style w hevent
    have hreads := R.raw (hraw hevent) markup
    exact ⟨markup, w', hadds.writesLine hstep hinside (hleaves ▸ hreads.1) fun _ => hreads.2⟩
  cases event with
  | start tag | finish tag => cases hedge
  | footnoteReference label =>
    obtain ⟨w', hstep, hadds⟩ := exists_adds_reference style w label
    exact ⟨_, w', hadds.writesLine hstep hinside (R.reference label hrun)
      fun hquiet => R.inside_reference hquiet _⟩
  | html content | inlineHtml content => exact hraws rfl (R.leaves_eq_nil before nofun nofun nofun)
  | _ => exact writesLine_fills R before w rfl

/-- Trees that are each written within a line are written so together. -/
theorem writesLine_list
    (htrees : ∀ tree ∈ trees, ∀ before w, Writer.run style {} before = .ok w →
      ∃ markup w', WritesLine R before tree.events markup w w')
    (hrun : Writer.run style {} before = .ok w) :
    ∃ markup w', WritesLine R before (Markdown.Tree.eventsOfList trees) markup w w' := by
  induction trees generalizing before w with
  | nil => exact ⟨[], w, writesLine_nil R before w⟩
  | cons tree trees ih =>
    obtain ⟨htree, hrest⟩ := List.forall_mem_cons.1 htrees
    obtain ⟨s, v, hs⟩ := htree before w hrun
    have hnext : Writer.run style {} (before ++ tree.events) = .ok v := by
      rw [run_append, hrun]
      exact hs.run
    obtain ⟨t, w', ht⟩ := ih hrest hnext
    exact ⟨_, w', hs.trans ht⟩

/-- The events of an element: its start, its content and its end. -/
theorem events_node (tag : Tag) (children : List Markdown.Tree) :
    (Markdown.Tree.node tag children).events =
      [.start tag] ++ (Markdown.Tree.eventsOfList children ++ [.finish tag.toEnd]) := rfl

/-- What an element leaves: what its start leaves, its content and its end. -/
theorem leftBehind_node (leaves : List Event → Event → List α) (before : List Event) (tag : Tag)
    (children : List Markdown.Tree) :
    leftBehind leaves before (Markdown.Tree.node tag children).events =
      leaves before (.start tag) ++ (leftBehind leaves (before ++ [.start tag])
        (Markdown.Tree.eventsOfList children) ++
          leaves (before ++ [.start tag] ++ Markdown.Tree.eventsOfList children)
            (.finish tag.toEnd)) := by
  rw [events_node, leftBehind_append, leftBehind_append]
  simp [leftBehind]

/-- **An element that fills the page** around parts of a line. -/
theorem writesLine_node {tag : Tag} (htag : (Event.start tag).fills = true)
    (hchildren : ∀ w, Writer.run style {} (before ++ [.start tag]) = .ok w →
      ∃ markup w', WritesLine R (before ++ [.start tag]) (Markdown.Tree.eventsOfList trees) markup
        w w')
    (hrun : Writer.run style {} before = .ok w) :
    ∃ markup w', WritesLine R before (Markdown.Tree.node tag trees).events markup w w' := by
  obtain ⟨s, w₁, hstart⟩ := writesLine_fills R before w htag
  have hnext : Writer.run style {} (before ++ [.start tag]) = .ok w₁ := by
    rw [run_append, hrun]
    exact hstart.run
  obtain ⟨t, w₂, hinner⟩ := hchildren w₁ hnext
  obtain ⟨u, w₃, hfinish⟩ := writesLine_fills R
    (before ++ [.start tag] ++ Markdown.Tree.eventsOfList trees) w₂
    ((Event.fills_toEnd tag).trans htag)
  exact ⟨_, w₃, events_node tag trees ▸ hstart.trans (hinner.trans hfinish)⟩

/-- **An image** makes an attribute of its content, unless an image within it has come before it. -/
theorem writesLine_image {url title : Text}
    (hquiet : ∀ event ∈ Markdown.Tree.eventsOfList trees, event.isImageEdge = false →
      R.IsQuiet event)
    (hchildren : ∀ w, Writer.run style {} (before ++ [.start (.image url title)]) = .ok w →
      ∃ markup w', WritesLine R (before ++ [.start (.image url title)])
        (Markdown.Tree.eventsOfList trees) markup w w')
    (hrun : Writer.run style {} before = .ok w) :
    ∃ markup w', WritesLine R before (Markdown.Tree.node (.image url title) trees).events markup
      w w' := by
  have hnext : Writer.run style {} (before ++ [.start (.image url title)]) =
      .ok (w.start (.image url title)) := run_concat hrun rfl
  obtain ⟨content, w₁, hinner⟩ := hchildren _ hnext
  have hhistory : Writer.run style {} (before ++ [.start (.image url title)] ++
      Markdown.Tree.eventsOfList trees) = .ok w₁ := by
    rw [run_append, hnext]
    exact hinner.run
  have hstart : R.leaves before (.start (.image url title)) = [] :=
    R.leaves_eq_nil before nofun nofun nofun
  have hedge : ∃ event ∈ (Markdown.Tree.node (.image url title) trees).events,
      event.isImageEdge = true := ⟨_, List.mem_cons_self, rfl⟩
  -- the end of the image, given what it makes of the content
  have hend : ∀ markup, w₁.finishImage = .ok { w₁ with
        output := w.output ++ markup, imageStart := none, image := none } →
      R.Reads (leftBehind R.leaves before
        (Markdown.Tree.node (.image url title) trees).events) markup →
      ∃ markup w', WritesLine R before (Markdown.Tree.node (.image url title) trees).events markup
        w w' := by
    intro markup hfinish hmarkup
    let w₂ : Writer := { w₁ with output := w.output ++ markup, imageStart := none, image := none }
    have hrun₂ : Writer.run style w (Markdown.Tree.node (.image url title) trees).events =
        .ok w₂ := by
      rw [run_node, hinner.run]
      exact hfinish
    exact ⟨markup, w₂, ⟨hrun₂, rfl, hmarkup, hinner.outer, hinner.definitions⟩,
      hinner.heading, .inl ⟨rfl, rfl, hedge⟩⟩
  rcases hinner.image with ⟨hplace, himage, -⟩ | ⟨hplace, himage, hedges, hinside⟩
  · refine hend content ?_ ?_
    · rw [finishImage, hplace, himage]
      simp [hinner.output, start, Bind.bind, Except.bind, pure, Except.pure]
    · rw [leftBehind_node, hstart, List.nil_append, Tag.toEnd, R.image_closed hhistory himage,
        List.append_nil]
      exact hinner.reads
  · have hall : ∀ event ∈ Markdown.Tree.eventsOfList trees, R.IsQuiet event :=
      fun event hevent => hquiet event hevent (hedges event hevent)
    refine hend _ (finishImage_eq hplace himage hinner.output) ?_
    rw [leftBehind_node, hstart, leftBehind_eq_nil hall]
    exact R.image hhistory himage hplace hinner.output (hinside hall)

/-- **A part of a line** is written, and leaves its things where it stands. -/
theorem writes_line (hline : StandsInLine inImage tree)
    (himage : ∀ event, inImage event → event.isImageEdge = false → R.IsQuiet event)
    (hraw : ∀ event ∈ tree.events, event.isRaw = true → R.readsRaw)
    (hrun : Writer.run style {} before = .ok w) :
    ∃ markup w', WritesLine R before tree.events markup w w' := by
  induction hline generalizing before w with
  | leaf hedge => exact writesLine_leaf hedge (hraw _ (List.mem_singleton_self _)) hrun
  | image hinside _ ih =>
    refine writesLine_image (fun event hevent => himage event (hinside event hevent)) ?_ hrun
    refine fun w => writesLine_list fun child hchild before w => ih child hchild ?_
    exact fun event hevent => hraw event (Markdown.Tree.mem_events_node.2
      (.inr (.inl ⟨child, hchild, hevent⟩)))
  | node htag _ ih =>
    refine writesLine_node htag ?_ hrun
    refine fun w => writesLine_list fun child hchild before w => ih child hchild ?_
    exact fun event hevent => hraw event (Markdown.Tree.mem_events_node.2
      (.inr (.inl ⟨child, hchild, hevent⟩)))

/-! ### Documents -/

/-- What is within a line is no edge of a definition, and no end of a heading. -/
theorem not_edge_of_mem_line (hline : StandsInLine inImage tree) (hmem : event ∈ tree.events) :
    event.isNoteEdge = false ∧ ∀ level, event ≠ .finish (.heading level) := by
  have hnode : ∀ {tag : Tag},
      (Event.start tag).fills = true ∨ (∃ url title, tag = .image url title) →
      (Event.start tag).isNoteEdge = false ∧ (Event.finish tag.toEnd).isNoteEdge = false ∧
        ∀ level, Event.finish tag.toEnd ≠ .finish (.heading level) := by
    rintro tag (htag | ⟨url, title, rfl⟩)
    · cases tag with
      | heading | image | footnote => cases htag
      | _ => exact ⟨rfl, rfl, by simp [Tag.toEnd]⟩
    · exact ⟨rfl, rfl, by simp [Tag.toEnd]⟩
  induction hline with
  | @leaf leaf hedge =>
    obtain rfl := List.mem_singleton.1 hmem
    cases event with
    | start tag | finish tag => cases hedge
    | _ => exact ⟨rfl, by simp⟩
  | @image url title children _ _ ih =>
    obtain ⟨hstart, hend, hheading⟩ := @hnode (.image url title) (.inr ⟨url, title, rfl⟩)
    rcases Markdown.Tree.mem_events_node.1 hmem with rfl | ⟨child, hchild, hevent⟩ | rfl
    · exact ⟨hstart, by simp⟩
    · exact ih child hchild hevent
    · exact ⟨hend, hheading⟩
  | node htag _ ih =>
    obtain ⟨hstart, hend, hheading⟩ := hnode (.inl htag)
    rcases Markdown.Tree.mem_events_node.1 hmem with rfl | ⟨child, hchild, hevent⟩ | rfl
    · exact ⟨hstart, by simp⟩
    · exact ih child hchild hevent
    · exact ⟨hend, hheading⟩

/-- **A heading** cuts its content off and wraps it; its own things come behind those of its
content, if it does not leave the only ones. -/
theorem writes_heading {level : Nat} (hlines : ∀ tree ∈ trees, StandsInLine inImage tree)
    (himage : ∀ event, inImage event → event.isImageEdge = false → R.IsQuiet event)
    (hraw : ∀ tree ∈ trees, ∀ event ∈ tree.events, event.isRaw = true → R.readsRaw)
    (hrun : Writer.run style {} before = .ok w) :
    ∃ markup w',
      Writes R before (Markdown.Tree.node (.heading level) trees).events markup w w' := by
  have hnext : Writer.run style {} (before ++ [.start (.heading level)]) =
      .ok (w.start (.heading level)) := run_concat hrun rfl
  obtain ⟨content, w₁, hinner⟩ := writesLine_list (R := R) (fun tree htree _ _ =>
    writes_line (hlines tree htree) himage (hraw tree htree)) hnext
  obtain ⟨text, hopen⟩ := hinner.heading
  obtain ⟨title, toc, hfinish⟩ := finishHeading_eq style hopen rfl hinner.output
  have hhistory : Writer.run style {} (before ++ [.start (.heading level)] ++
      Markdown.Tree.eventsOfList trees) = .ok w₁ := by
    rw [run_append, hnext]
    exact hinner.run
  have hleft : ∀ before', leftBehind R.leaves before'
      (Markdown.Tree.eventsOfList trees) = [] ∨
        ∀ before, R.leaves before (.finish (.heading level)) = [] := by
    intro before'
    rcases R.apart with hnone | hnone
    · refine .inl (leftBehind_eq_nil fun event hevent before => ?_)
      rw [Markdown.Tree.eventsOfList_eq] at hevent
      obtain ⟨tree, htree, hmem⟩ := List.mem_flatMap.1 hevent
      have hother := (not_edge_of_mem_line (hlines tree htree) hmem).2
      by_cases hend : event = .finish .image
      · exact hend ▸ (hnone before).2
      · cases event with
        | footnoteReference label => exact (hnone before).1 label
        | _ => exact R.leaves_eq_nil before nofun hother hend
    · exact .inr fun before => hnone before level
  have hrun₁ : Writer.run style w (Markdown.Tree.node (.heading level) trees).events =
      w₁.finishHeading style := by
    rw [run_node, hinner.run]
    rfl
  have hstart : R.leaves before (.start (.heading level)) = [] :=
    R.leaves_eq_nil before nofun nofun nofun
  have hreads := R.heading hhistory hopen hinner.reads ((hleft _).imp id (· _))
  refine ⟨_, _, hrun₁.trans hfinish, rfl, ?_, hinner.outer, hinner.definitions⟩
  rw [leftBehind_node, hstart]
  exact hreads

/-- Whether the course of a stream **follows** the writer: what it takes to be in the output, in the
one that waits and in the notes is there. -/
structure Follows (R : Reading style α) (events : List Event) (w : Writer) : Prop where
  run : Writer.run style {} events = .ok w
  output : R.Reads (course R.leaves events).here w.output
  outer : Option.Rel R.IsNote (course R.leaves events).waiting w.outer
  definitions : List.Forall₂ R.IsNote (course R.leaves events).notes w.footnotes.definitions

namespace Follows

/-- Nothing is followed at the start. -/
theorem start (R : Reading style α) : Follows R [] {} :=
  ⟨rfl, (R.filler .nil).1, .none, .nil⟩

/-- What is written between the edges of definitions goes into the output. -/
theorem writes (h : Follows R before w) (hwrites : Writes R before events markup w w')
    (hedges : ∀ event ∈ events, event.isNoteEdge = false) : Follows R (before ++ events) w' := by
  have hcourse := @course_append _ R.leaves before events
  rw [Course.run_of_not_isNoteEdge _ hedges] at hcourse
  refine ⟨?_, ?_, ?_, ?_⟩
  · rw [run_append, h.run]
    exact hwrites.run
  · rw [hcourse, hwrites.output]
    exact R.append h.output hwrites.reads
  · rw [hcourse, hwrites.outer]
    exact h.outer
  · rw [hcourse, hwrites.definitions]
    exact h.definitions

/-- An event that fills the page. -/
theorem fills (h : Follows R before w) (hfills : event.fills = true) :
    ∃ w', step style w event = .ok w' ∧ Follows R (before ++ [event]) w' := by
  obtain ⟨markup, w', hwrites⟩ := writesLine_fills R before w hfills
  refine ⟨w', (run_singleton w event).symm.trans hwrites.run, h.writes hwrites.toWrites ?_⟩
  refine List.forall_mem_singleton.2 ?_
  cases event with
  | start tag => cases tag <;> first | rfl | cases hfills
  | finish tag => cases tag <;> first | rfl | cases hfills
  | _ => rfl

/-- **A definition that starts** takes the output away. -/
theorem open_note (h : Follows R before w) (label : Text) :
    Follows R (before ++ [.start (.footnote label)]) (w.start (.footnote label)) := by
  have hcourse := @course_append _ R.leaves before [.start (.footnote label)]
  refine ⟨run_concat h.run rfl, ?_, ?_, ?_⟩
  · rw [hcourse]
    exact (R.filler .nil).1
  · rw [hcourse]
    exact .some ⟨rfl, h.output⟩
  · rw [hcourse]
    exact h.definitions

/-- **A definition that ends** brings back the output that waits, and becomes a note. -/
theorem close_note (h : Follows R before w) : ∃ w', step style w (.finish .footnote) = .ok w' ∧
    Follows R (before ++ [.finish .footnote]) w' := by
  have hcourse := @course_append _ R.leaves before [.finish .footnote]
  have houter := h.outer
  unfold Course.run Course.run Course.step at hcourse
  cases hopen : w.outer with
  | none =>
    rw [hopen] at houter
    have hwaiting : (course R.leaves before).waiting = none := by
      cases hwaiting : (course R.leaves before).waiting with
      | none => rfl
      | some waiting => rw [hwaiting] at houter; cases houter
    have hstep : step style w (.finish .footnote) = .ok w := by
      simp only [step, finish, hopen]
    rw [hwaiting] at hcourse
    refine ⟨w, hstep, run_concat h.run hstep, ?_, ?_, ?_⟩ <;> rw [hcourse]
    · exact h.output
    · exact h.outer
    · exact h.definitions
  | some note =>
    obtain ⟨label, output⟩ := note
    rw [hopen] at houter
    cases hwaiting : (course R.leaves before).waiting with
    | none => rw [hwaiting] at houter; cases houter
    | some waiting =>
      obtain ⟨label', found⟩ := waiting
      rw [hwaiting] at houter hcourse
      obtain ⟨rfl, hread⟩ : label' = label ∧ R.Reads found output := by
        cases houter with
        | some hnote => exact hnote
      have hstep : step style w (.finish .footnote) = .ok { w with
          output := output
          outer := none
          footnotes := w.footnotes.define label' (Text.trimEnd w.output) } := by
        simp only [step, finish, hopen]
      refine ⟨_, hstep, run_concat h.run hstep, ?_, ?_, ?_⟩ <;> rw [hcourse]
      · exact hread
      · exact .none
      · exact .cons ⟨rfl, R.trimEnd h.output⟩ h.definitions

/-- Trees that are each followed are followed together. -/
theorem list (htrees : ∀ tree ∈ trees, ∀ before w, Follows R before w →
      ∃ w', Writer.run style w tree.events = .ok w' ∧ Follows R (before ++ tree.events) w')
    (h : Follows R before w) :
    ∃ w', Writer.run style w (Markdown.Tree.eventsOfList trees) = .ok w' ∧
      Follows R (before ++ Markdown.Tree.eventsOfList trees) w' := by
  induction trees generalizing before w with
  | nil => exact ⟨w, rfl, by simpa [Markdown.Tree.eventsOfList] using h⟩
  | cons tree trees ih =>
    obtain ⟨htree, hrest⟩ := List.forall_mem_cons.1 htrees
    obtain ⟨v, hv, hfollows⟩ := htree before w h
    obtain ⟨w', hw', hend⟩ := ih hrest hfollows
    refine ⟨w', ?_, ?_⟩
    · rw [Markdown.Tree.eventsOfList, run_append, hv]
      exact hw'
    · rwa [Markdown.Tree.eventsOfList, ← List.append_assoc]

/-- The start, the content and the end of an element are followed. -/
theorem node {tag : Tag} (hstart : Follows R (before ++ [.start tag]) (w.start tag))
    (hchildren : ∀ before w, Follows R before w →
      ∃ w', Writer.run style w (Markdown.Tree.eventsOfList trees) = .ok w' ∧
        Follows R (before ++ Markdown.Tree.eventsOfList trees) w')
    (hfinish : ∀ before w, Follows R before w → ∃ w', step style w (.finish tag.toEnd) = .ok w' ∧
      Follows R (before ++ [.finish tag.toEnd]) w') :
    ∃ w', Writer.run style w (Markdown.Tree.node tag trees).events = .ok w' ∧
      Follows R (before ++ (Markdown.Tree.node tag trees).events) w' := by
  obtain ⟨w₁, hrun, hinner⟩ := hchildren _ _ hstart
  obtain ⟨w₂, hstep, hend⟩ := hfinish _ _ hinner
  refine ⟨w₂, ?_, by simpa [events_node] using hend⟩
  rw [run_node, hrun]
  exact hstep

/-- **A part of a document** is written and followed. -/
theorem part (h : Follows R before w) (htree : StandsInText inImage tree)
    (himage : ∀ event, inImage event → event.isImageEdge = false → R.IsQuiet event)
    (hraw : ∀ event ∈ tree.events, event.isRaw = true → R.readsRaw) :
    ∃ w', Writer.run style w tree.events = .ok w' ∧ Follows R (before ++ tree.events) w' := by
  have hinside : ∀ {tag : Tag} {children : List Markdown.Tree} {child : Markdown.Tree},
      (∀ event ∈ (Markdown.Tree.node tag children).events, event.isRaw = true → R.readsRaw) →
      child ∈ children → ∀ event ∈ child.events, event.isRaw = true → R.readsRaw :=
    fun hraw hchild event hevent => hraw event
      (Markdown.Tree.mem_events_node.2 (.inr (.inl ⟨_, hchild, hevent⟩)))
  induction htree generalizing before w with
  | line hline =>
    obtain ⟨markup, w', hwrites⟩ := writes_line hline himage hraw h.run
    exact ⟨w', hwrites.run, h.writes hwrites.toWrites
      fun event hevent => (not_edge_of_mem_line hline hevent).1⟩
  | @heading level children hlines =>
    obtain ⟨markup, w', hwrites⟩ := writes_heading (R := R) hlines himage
      (fun tree htree => hinside hraw htree) h.run
    refine ⟨w', hwrites.run, h.writes hwrites fun event hevent => ?_⟩
    rcases Markdown.Tree.mem_events_node.1 hevent with rfl | ⟨child, hchild, hmem⟩ | rfl
    · rfl
    · exact (not_edge_of_mem_line (hlines child hchild) hmem).1
    · rfl
  | footnote _ ih =>
    exact node (h.open_note _)
      (fun before w => list fun child hchild _ _ hfollows =>
        ih child hchild hfollows (hinside hraw hchild))
      (fun before w hfollows => hfollows.close_note)
  | @node tag children htag _ ih =>
    obtain ⟨w₁, hstep, hstart⟩ := h.fills htag
    obtain rfl : w.start tag = w₁ := Except.ok.inj hstep
    exact node hstart
      (fun before w => list fun child hchild _ _ hfollows =>
        ih child hchild hfollows (hinside hraw hchild))
      (fun before w hfollows => hfollows.fills ((Event.fills_toEnd tag).trans htag))

end Follows

end Writer

/-! ### Pages -/

namespace Reading

variable {style : PageStyle} {events : List Event} {w : Writer}

/-- What the page of a stream has: the things in the output, and for each label that is referred to
those of its item. -/
def onPage (R : Reading style α) (events : List Event) : List α :=
  (course R.leaves events).here ++ (referenceLabels events).eraseDups.flatMap fun label =>
    R.ofItem (tokensOf (numbered [] (referenceLabels events)) label)
      (((course R.leaves events).notes.lookup label).getD [])

/-- The things of parts. -/
theorem reads_flatMap (R : Reading style α) {β : Type} (parts : List β) {text : β → Text}
    {found : β → List α} (h : ∀ part ∈ parts, R.Reads (found part) (text part)) :
    R.Reads (parts.flatMap found) (parts.flatMap text) := by
  induction parts with
  | nil => exact (R.filler .nil).1
  | cons part parts ih =>
    obtain ⟨hpart, hrest⟩ := List.forall_mem_cons.1 h
    exact R.append hpart (ih hrest)

/-- The latest note with a label has the things that are known of it. -/
theorem reads_lookup (R : Reading style α) {known : List (Text × List α)}
    {notes : List (Text × Text)} (h : List.Forall₂ R.IsNote known notes) (label : Text) :
    R.Reads ((known.lookup label).getD []) ((notes.lookup label).getD []) := by
  induction h with
  | nil => exact (R.filler .nil).1
  | @cons part note known notes hnote _ ih =>
    obtain ⟨key, found⟩ := part
    obtain ⟨key', body⟩ := note
    obtain ⟨rfl, hbody⟩ : key = key' ∧ R.Reads found body := hnote
    rw [List.lookup_cons, List.lookup_cons]
    split
    · exact hbody
    · exact ih

/-- The frame of the footnote section is filler. -/
theorem isFiller_sectionFrame :
    IsFiller ("<hr class=\"footnotes-sep\">\n<section class=\"footnotes\">\n".toList ++
      "<ol class=\"footnotes-list\">\n".toList) ∧ IsFiller "</ol>\n</section>\n".toList := by
  have hopen : ∀ name value : String, (IsName name.toList ∧ isHeadingName name.toList = false ∧
      IsValue value.toList) ∧ tagMarks [⟨"class".toList, some value.toList⟩] = [] →
      IsFiller (openTag name.toList [⟨"class".toList, some value.toList⟩] ++ ['\n']) := by
    rintro name value ⟨⟨hname, hheading, hvalue⟩, hmark⟩
    exact isFiller_open _ ['\n'] _ ⟨hname, hheading, by decide⟩
      (areSafe_nil.cons _ (by decide) hvalue) hmark
  exact ⟨((hopen "hr" "footnotes-sep" (by decide)).append
      (hopen "section" "footnotes" (by decide))).append (hopen "ol" "footnotes-list" (by decide)),
    (isFiller_close "ol" "\n" (by decide)).append (isFiller_close "section" "\n" (by decide))⟩

/-- **Where a page has the things of its stream.** -/
theorem reads_page {R : Reading style α} (h : Writer.Follows R events w) :
    R.Reads (R.onPage events) (w.page style).html := by
  have htally := (KnowsNotes.of_run h.run).references
  have hitems := R.reads_flatMap (referenceLabels events).eraseDups fun label _ =>
    R.item (tokensOf (numbered [] (referenceLabels events)) label)
      (R.reads_lookup h.definitions label)
  unfold Writer.page
  rw [renderSection_of_tally htally, noteSection]
  dsimp only
  split
  · next hempty =>
    rw [List.isEmpty_iff.1 hempty, List.flatMap_nil] at hitems
    unfold onPage
    rw [List.isEmpty_iff.1 hempty, List.flatMap_nil, List.append_nil]
    exact h.output
  · have hnewline : IsFiller ['\n'] := isFiller_of_isValue (by decide)
    have hopen := (R.filler (hnewline.append isFiller_sectionFrame.1)).1
    have hclose := (R.filler isFiller_sectionFrame.2).1
    have hsection := R.append (R.append hopen hitems) hclose
    simpa [onPage] using R.append h.output hsection

end Reading

/-- **A document** is written, and its page has its things, also those that images leave in
images. -/
theorem exists_page_reads_images {style : PageStyle} (R : Reading style α)
    {trees : List Markdown.Tree} {inImage : Event → Prop}
    (htrees : ∀ tree ∈ trees, StandsInText inImage tree)
    (himage : ∀ event, inImage event → event.isImageEdge = false → R.IsQuiet event)
    (hraw : ∀ event ∈ Markdown.Tree.eventsOfList trees, event.isRaw = true → R.readsRaw) :
    ∃ w, Writer.run style {} (Markdown.Tree.eventsOfList trees) = .ok w ∧
      R.Reads (R.onPage (Markdown.Tree.eventsOfList trees)) (w.page style).html := by
  obtain ⟨w, hrun, hfollows⟩ := Writer.Follows.list (fun tree htree before w hfollows =>
    hfollows.part (htrees tree htree) himage fun event hevent => hraw event (by
      rw [Markdown.Tree.eventsOfList_eq]
      exact List.mem_flatMap.2 ⟨tree, htree, hevent⟩)) (Writer.Follows.start R)
  exact ⟨w, hrun, R.reads_page hfollows⟩

/-- **A document** is written, and its page has its things, if what images hold leaves none. -/
theorem exists_page_reads {style : PageStyle} (R : Reading style α) {trees : List Markdown.Tree}
    {inImage : Event → Prop} (htrees : ∀ tree ∈ trees, StandsInText inImage tree)
    (himage : ∀ event, inImage event → R.IsQuiet event)
    (hraw : ∀ event ∈ Markdown.Tree.eventsOfList trees, event.isRaw = true → R.readsRaw) :
    ∃ w, Writer.run style {} (Markdown.Tree.eventsOfList trees) = .ok w ∧
      R.Reads (R.onPage (Markdown.Tree.eventsOfList trees)) (w.page style).html :=
  exists_page_reads_images R htrees (fun event h _ => himage event h) hraw

end Lectern.Page
