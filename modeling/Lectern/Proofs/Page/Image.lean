import Lectern.Proofs.Page.Following
import Lectern.Proofs.Page.Outline
import Lectern.Proofs.Page.Pieces

/-!
# Images on the Page

Which tags the images of a document have on its page. The end of an image makes a tag of what was
written since its start, with the markup of that as the alternative text. There is one place for the
start of an open image: an image in another one takes the place of the outer one, which then has no
tag and shows its content instead. So an image has a tag of its own if and only if it holds no other
image; and its alternative text can stand between quotes if and only if nothing in it writes tags.

## Main results

* `imageReading`: how the tags of images are found on a page.
* `exists_output_run`: the alternative text that the content of an image makes.
* `leftBehind_image`, `leftBehind_outerImage`: the tags of an image without and with images in it.
* `images_renderEvents`: the image tags of a page.
-/

namespace Lectern.Page

open Markdown Markup

variable {style : PageStyle} {before content : List Event} {event : Event} {w w' : Writer}
  {url title written alternative : Text} {children : List Markdown.Tree}

/-! ### Tags -/

/-- The **tag of an image**, with the markup of its alternative text. -/
structure ImageTag where
  url : Text
  title : Text
  alternative : Text
deriving DecidableEq, Repr

/-- The tag of an image as it is written. -/
def ImageTag.markup (image : ImageTag) : Text :=
  Writer.imageTag image.url image.title image.alternative

/-- The tag that the end of an image makes of the open one. -/
def Writer.openImage? (w : Writer) : Option ImageTag :=
  w.image.bind fun (url, title) =>
    match w.imageStart with
    | some place =>
      (Text.cutAtByte? place w.output).map fun (_, alternative) => ⟨url, title, alternative⟩
    | none => some ⟨url, title, []⟩

/-- The tag that an event writes behind others. -/
def imageLeft (style : PageStyle) (before : List Event) : Event → List ImageTag
  | .finish .image => match Writer.run style {} before with
    | .ok w => w.openImage?.toList
    | .error _ => []
  | _ => []

/-- Only the end of an image writes a tag. -/
theorem imageLeft_eq_nil (h : event ≠ .finish .image) : imageLeft style before event = [] := by
  unfold imageLeft
  split
  · exact absurd rfl h
  · rfl

/-- What the end of an image writes behind a stream. -/
theorem imageLeft_finish (hrun : Writer.run style {} before = .ok w) :
    imageLeft style before (.finish .image) = w.openImage?.toList := by
  rw [imageLeft, hrun]

/-- The end of an open image, whose content is written. -/
theorem imageLeft_of_open (hrun : Writer.run style {} before = .ok w)
    (himage : w.image = some (url, title)) (hplace : w.imageStart = some (Text.byteLength written))
    (houtput : w.output = written ++ alternative) :
    imageLeft style before (.finish .image) = [⟨url, title, alternative⟩] := by
  rw [imageLeft_finish hrun]
  simp [Writer.openImage?, himage, hplace, houtput, Text.cutAtByte?_append]

/-- The end of an image whose place another one has taken. -/
theorem imageLeft_of_closed (hrun : Writer.run style {} before = .ok w) (himage : w.image = none) :
    imageLeft style before (.finish .image) = [] := by
  rw [imageLeft_finish hrun, Writer.openImage?, himage]
  rfl

/-- The tag of an image ends with a quote and a bracket: its last value is the title, or the one
before it. -/
theorem ImageTag.exists_markup_eq (image : ImageTag) :
    ∃ front, image.markup = front ++ ['"', '>'] := by
  unfold markup Writer.imageTag Writer.titleProperty
  split
  · refine ⟨"<img src=\"".toList ++ escapeHtml image.url ++ "\" alt=\"".toList ++
      image.alternative, ?_⟩
    simp only [List.append_assoc, List.cons_append, List.nil_append]
  · refine ⟨"<img src=\"".toList ++ escapeHtml image.url ++ "\" alt=\"".toList ++
      image.alternative ++ ['"'] ++ (" title=\"".toList ++ escapeHtml image.title), ?_⟩
    simp only [List.append_assoc, List.cons_append, List.nil_append]

/-- Tags of images are delimited like tags. -/
theorem likeTags_markup : LikeTags fun (image : ImageTag) piece => piece = image.markup where
  begins := by
    rintro image piece rfl
    rfl
  ends := by
    rintro image piece rfl
    obtain ⟨front, hmarkup⟩ := image.exists_markup_eq
    exact ⟨front, '"', by decide, hmarkup⟩

/-- How the **tags of images** are found, on any page. -/
def imageReading (style : PageStyle) : Reading style ImageTag where
  leaves := imageLeft style
  Reads := HasPieces fun image piece => piece = image.markup
  Inside _ := True
  readsRaw := True
  ofItem _ found := found
  filler _ := ⟨.nil _, trivial⟩
  raw _ s := ⟨.nil s, trivial⟩
  append := HasPieces.append
  inside_append _ _ := trivial
  trimEnd h := h.trimEnd likeTags_markup
  leaves_eq_nil _ _ _ _ h := imageLeft_eq_nil h
  reference _ _ := .nil _
  inside_reference _ _ := trivial
  heading _ _ hcontent _ := by
    refine (List.append_nil _).symm ▸ ?_
    exact hcontent.headingElement likeTags_markup _ _
  apart := .inr fun _ _ => rfl
  image hrun himage hplace houtput _ := by
    rw [imageLeft_of_open hrun himage hplace houtput]
    exact .single rfl
  image_closed := imageLeft_of_closed
  item tokens h := h.noteItem likeTags_markup _ _ _ tokens

/-- What is no edge of an image writes no tag of one. -/
theorem isQuiet_imageReading (h : event.isImageEdge = false) :
    (imageReading style).IsQuiet event := by
  rintro before
  refine imageLeft_eq_nil ?_
  rintro rfl
  cases h

/-- **A document is written** to its end, in whatever style. -/
theorem exists_run_of_standsInText (style : PageStyle) {trees : List Markdown.Tree}
    {inImage : Event → Prop} (htrees : ∀ tree ∈ trees, StandsInText inImage tree) :
    ∃ w, Writer.run style {} (Markdown.Tree.eventsOfList trees) = .ok w := by
  obtain ⟨w, hrun, -⟩ := exists_page_reads_images (imageReading style) htrees
    (fun event _ => isQuiet_imageReading) fun _ _ _ => trivial
  exact ⟨w, hrun⟩

/-! ### Alternative texts -/

/-- Whether an event can stand in the **description** of an image: it belongs to a line, and is
neither raw markup nor an edge of a code block or of another image. -/
def staysInImage : Event → Bool
  | .start (.fencedCode _) | .start .indentedCode | .finish .codeBlock => false
  | .footnoteReference _ => true
  | event => event.fills

/-- The edges of images are not in descriptions. -/
theorem isImageEdge_of_staysInImage (h : staysInImage event = true) :
    event.isImageEdge = false := by
  unfold Event.isImageEdge
  split
  · cases h
  · cases h
  · rfl

/-- The **text that an event writes**, escaped; nothing for an event that writes a tag. -/
def writtenText? : Event → Option Text
  | .text s | .inlineMath s | .displayMath s => some s
  | .softBreak => some ['\n']
  | .start .htmlBlock | .finish .htmlBlock | .start .metadata | .finish .metadata => some []
  | _ => none

/-- Whether the writer `w'` is `w` after the text of an event, or after a tag. -/
def WritesTextOrTag (event : Event) (w w' : Writer) : Prop :=
  w'.code = w.code ∧ ∃ markup, w'.output = w.output ++ markup ∧
    match writtenText? event with
    | some s => markup = escapeHtml s
    | none => '<' ∈ markup

/-- The start of an element. -/
theorem writesTextOrTag_start {tag : Tag} (h : staysInImage (.start tag) = true) :
    WritesTextOrTag (.start tag) w (w.start tag) := by
  cases tag with
  | heading | image | footnote | fencedCode | indentedCode => cases h
  | htmlBlock | metadata => exact ⟨rfl, [], (List.append_nil _).symm, rfl⟩
  | list start =>
    rcases start with _ | _ | _ | n <;> exact ⟨rfl, _, rfl, List.mem_cons_self⟩
  | _ => exact ⟨rfl, _, rfl, List.mem_cons_self⟩

/-- The end of an element. -/
theorem writesTextOrTag_finish {tag : TagEnd} (h : staysInImage (.finish tag) = true)
    (hfinish : w.finish style tag = .ok w') : WritesTextOrTag (.finish tag) w w' := by
  cases tag with
  | heading | image | footnote | codeBlock => cases h
  | htmlBlock | metadata =>
    obtain rfl := Except.ok.inj hfinish
    exact ⟨rfl, [], (List.append_nil _).symm, rfl⟩
  | list ordered =>
    obtain rfl := Except.ok.inj hfinish
    cases ordered <;> exact ⟨rfl, _, rfl, List.mem_cons_self⟩
  | _ =>
    obtain rfl := Except.ok.inj hfinish
    exact ⟨rfl, _, rfl, List.mem_cons_self⟩

/-- **One event** of a description writes its text, or a tag. -/
theorem writesTextOrTag_step (h : staysInImage event = true) (hcode : w.code = none)
    (hstep : Writer.step style w event = .ok w') : WritesTextOrTag event w w' := by
  cases event with
  | start tag =>
    obtain rfl := Except.ok.inj hstep
    exact writesTextOrTag_start h
  | finish tag => exact writesTextOrTag_finish h hstep
  | text content =>
    obtain rfl := Except.ok.inj hstep
    rw [Writer.text, hcode]
    exact ⟨rfl, _, rfl, rfl⟩
  | html content | inlineHtml content => cases h
  | inlineMath content | displayMath content | softBreak =>
    obtain rfl := Except.ok.inj hstep
    exact ⟨rfl, _, rfl, rfl⟩
  | _ =>
    obtain rfl := Except.ok.inj hstep
    exact ⟨rfl, _, rfl, List.mem_cons_self⟩

/-- Whether a markup is the **alternative text** that the writer makes of the content of an image:
it can stand between quotes if and only if nothing in the content writes tags, and then it is the
text of the content, escaped. -/
structure IsAlternativeOf (content : List Event) (alternative : Text) : Prop where
  isValue_iff : IsValue alternative ↔ ∀ event ∈ content, (writtenText? event).isSome = true
  eq_escapeHtml : (∀ event ∈ content, (writtenText? event).isSome = true) →
    alternative = escapeHtml (content.flatMap fun event => (writtenText? event).getD [])

/-- Nothing is written for no content. -/
theorem isAlternativeOf_nil : IsAlternativeOf [] [] where
  isValue_iff := by simp [IsValue]
  eq_escapeHtml _ := rfl

/-- What an event writes comes before what the others write. -/
theorem IsAlternativeOf.cons {markup rest : Text} (h : IsAlternativeOf content rest)
    (hmarkup : match writtenText? event with
      | some s => markup = escapeHtml s
      | none => '<' ∈ markup) : IsAlternativeOf (event :: content) (markup ++ rest) := by
  cases hwritten : writtenText? event with
  | some s =>
    rw [hwritten] at hmarkup
    subst hmarkup
    have hvalue : IsValue (escapeHtml s ++ rest) ↔ IsValue rest := by
      rw [IsValue, List.forall_mem_append]
      exact and_iff_right (isValue_escapeHtml s)
    refine ⟨by rw [hvalue, h.isValue_iff, List.forall_mem_cons, hwritten]; simp, fun hall => ?_⟩
    rw [h.eq_escapeHtml (List.forall_mem_cons.1 hall).2, List.flatMap_cons, hwritten]
    exact (List.flatMap_append ..).symm
  | none =>
    rw [hwritten] at hmarkup
    have hbracket : ¬ IsValue (markup ++ rest) := fun hvalue =>
      absurd (hvalue '<' (List.mem_append_left _ hmarkup)) (by decide)
    have hnone : ¬ ∀ other ∈ event :: content, (writtenText? other).isSome = true := fun hall =>
      absurd (List.forall_mem_cons.1 hall).1 (by simp [hwritten])
    exact ⟨iff_of_false hbracket hnone, fun hall => absurd hall hnone⟩

/-- **The content of an image** writes its alternative text. -/
theorem exists_output_run (h : ∀ event ∈ content, staysInImage event = true)
    (hcode : w.code = none) (hrun : Writer.run style w content = .ok w') :
    ∃ alternative, w'.output = w.output ++ alternative ∧ IsAlternativeOf content alternative := by
  induction content generalizing w with
  | nil =>
    obtain rfl := Except.ok.inj hrun
    exact ⟨[], (List.append_nil _).symm, isAlternativeOf_nil⟩
  | cons event content ih =>
    obtain ⟨hevent, hcontent⟩ := List.forall_mem_cons.1 h
    obtain ⟨w₁, hstep, hrest⟩ := Writer.exists_of_bind_eq_ok hrun
    obtain ⟨hcode₁, markup, houtput₁, hmarkup⟩ := writesTextOrTag_step hevent hcode hstep
    obtain ⟨rest, houtput, hothers⟩ := ih hcontent (hcode₁.trans hcode) hrest
    exact ⟨markup ++ rest, by rw [houtput, houtput₁, List.append_assoc], hothers.cons hmarkup⟩

/-! ### Single images -/

/-- The content of an image is written within a line. -/
theorem exists_writesLine_content (url title : Text)
    (hlines : ∀ child ∈ children, StandsInLine (fun _ => True) child)
    (hrun : Writer.run style {} before = .ok w) :
    ∃ markup w', Writer.WritesLine (imageReading style) (before ++ [.start (.image url title)])
        (Markdown.Tree.eventsOfList children) markup (w.start (.image url title)) w' ∧
      Writer.run style {} (before ++ [.start (.image url title)] ++
        Markdown.Tree.eventsOfList children) = .ok w' := by
  have hnext : Writer.run style {} (before ++ [.start (.image url title)]) =
      .ok (w.start (.image url title)) := Writer.run_concat hrun rfl
  obtain ⟨markup, w', hwrites⟩ := Writer.writesLine_list (R := imageReading style)
    (fun child hchild before w => Writer.writes_line (hlines child hchild)
      (fun event _ => isQuiet_imageReading) fun _ _ _ => trivial) hnext
  refine ⟨markup, w', hwrites, ?_⟩
  rw [Writer.run_append, hnext]
  exact hwrites.run

/-- **An image that holds another one** has no tag of its own. -/
theorem leftBehind_outerImage
    (hlines : ∀ child ∈ children, StandsInLine (fun _ => True) child)
    (hrun : Writer.run style {} before = .ok w)
    (hedge : ∃ event ∈ Markdown.Tree.eventsOfList children, event.isImageEdge = true) :
    leftBehind (imageLeft style) before (Markdown.Tree.node (.image url title) children).events =
      leftBehind (imageLeft style) (before ++ [.start (.image url title)])
        (Markdown.Tree.eventsOfList children) := by
  obtain ⟨markup, w', hwrites, hhistory⟩ := exists_writesLine_content url title hlines hrun
  have hclosed : w'.image = none := by
    rcases hwrites.image with ⟨-, himage, -⟩ | ⟨-, -, hedges, -⟩
    · exact himage
    · obtain ⟨event, hmem, hevent⟩ := hedge
      rw [hedges event hmem] at hevent
      cases hevent
  rw [Writer.leftBehind_node, Tag.toEnd, imageLeft_of_closed hhistory hclosed, List.append_nil]
  rfl

/-- **An image that holds no other one** has one tag, with its URL and its title, and with what it
holds as the alternative text. -/
theorem leftBehind_image
    (hlines : ∀ child ∈ children, StandsInLine (fun _ => True) child)
    (hrun : Writer.run style {} before = .ok w) (hcode : w.code = none)
    (hcontent : ∀ event ∈ Markdown.Tree.eventsOfList children, staysInImage event = true) :
    ∃ alternative,
      leftBehind (imageLeft style) before (Markdown.Tree.node (.image url title) children).events =
        [⟨url, title, alternative⟩] ∧
      IsAlternativeOf (Markdown.Tree.eventsOfList children) alternative := by
  obtain ⟨markup, w', hwrites, hhistory⟩ := exists_writesLine_content url title hlines hrun
  obtain ⟨alternative, houtput, halternative⟩ := exists_output_run hcontent
    (show (w.start (.image url title)).code = none from hcode) hwrites.run
  refine ⟨alternative, ?_, halternative⟩
  have hedges : ∀ event ∈ Markdown.Tree.eventsOfList children, event ≠ .finish .image := by
    rintro event hmem rfl
    exact absurd (hcontent _ hmem) (by decide)
  obtain ⟨hplace, himage⟩ : w'.imageStart = some (Text.byteLength w.output) ∧
      w'.image = some (url, title) := by
    rcases hwrites.image with ⟨-, -, event, hmem, hevent⟩ | ⟨hplace, himage, -, -⟩
    · rw [isImageEdge_of_staysInImage (hcontent event hmem)] at hevent
      cases hevent
    · exact ⟨hplace, himage⟩
  rw [Writer.leftBehind_node, Tag.toEnd, imageLeft_of_open hhistory himage hplace houtput,
    leftBehind_eq_nil fun event hmem before => imageLeft_eq_nil (hedges event hmem)]
  rfl

/-! ### Pages -/

/-- **The image tags of a page**, for a well-nested stream in which headings and images hold lines.
The tags that are shown stand on the page, one behind the other, and these are all that are written
if and only if none is hidden, as something in a footnote definition can be. Whatever precedes and
follows an image: if it holds another image, only the tags of the images in it are written. If it
holds none, one tag is written, with its URL and its title; the alternative text can stand between
quotes if and only if nothing in the image writes tags, and then it is the text of the image,
escaped. -/
theorem images_renderEvents (style : PageStyle) {trees : List Markdown.Tree}
    (htrees : ∀ tree ∈ trees, StandsInText (fun _ => True) tree) :
    let events := Markdown.Tree.eventsOfList trees
    let labels := (referenceLabels events).eraseDups
    let shown := (course (imageLeft style) events).shown labels
    ∃ page, renderEvents style events = .ok page ∧
      HasPieces (fun image piece => piece = ImageTag.markup image) shown page.html ∧
      (shown.Perm (leftBehind (imageLeft style) [] events) ↔
        (course (imageLeft style) events).hidden labels = []) ∧
      ∀ before url title children after,
        events = before ++ ((Markdown.Tree.node (.image url title) children).events ++ after) →
        (∀ child ∈ children, StandsInLine (fun _ => True) child) →
        let content := Markdown.Tree.eventsOfList children
        let written := leftBehind (imageLeft style) before
          (Markdown.Tree.node (.image url title) children).events
        ((∃ event ∈ content, event.isImageEdge = true) →
          written = leftBehind (imageLeft style) (before ++ [.start (.image url title)]) content) ∧
        ((outline before).inCode = false → (∀ event ∈ content, staysInImage event = true) →
          ∃ alternative, written = [⟨url, title, alternative⟩] ∧
            IsAlternativeOf content alternative) := by
  intro events labels shown
  obtain ⟨w, hrun, hpieces⟩ := exists_page_reads_images (imageReading style) htrees
    (fun event _ => isQuiet_imageReading) fun _ _ _ => trivial
  have hedges : ∀ (before : List Event) (event : Event), event.isNoteEdge = true →
      imageLeft style before event = [] := by
    intro before event hedge
    rcases Event.eq_of_isNoteEdge hedge with ⟨label, rfl⟩ | rfl <;> rfl
  refine ⟨w.page style, by rw [renderEvents, hrun]; rfl, hpieces,
    Course.shown_perm_iff hedges (nodup_eraseDups _), ?_⟩
  intro before url title children after hsplit hlines content written
  have hwhole : Writer.run style {} events = .ok w := hrun
  rw [hsplit] at hwhole
  obtain ⟨w₁, hbefore, -⟩ := Writer.exists_run_of_append hwhole
  refine ⟨leftBehind_outerImage hlines hbefore, fun hcode hcontent =>
    leftBehind_image hlines hbefore ?_ hcontent⟩
  have hinCode := (KnowsOutline.of_run hbefore).inCode
  rw [hcode] at hinCode
  exact Option.isNone_iff_eq_none.1 (by simpa using hinCode)

/-- Images in a paragraph, in a heading and in a note: texts are escaped, and emphasis comes with
its tags. -/
theorem images_escapedAlternative :
    let content : List Markdown.Tree :=
      [.text "a \"b\"".toList, .leaf .softBreak, .leaf (.inlineMath "<c>".toList)]
    let trees : List Markdown.Tree :=
      [.node .paragraph [.node (.image "k.png".toList "K".toList) content],
        .node (.heading 2) [.node (.image "i.png".toList [])
          [.node .emphasis [.text "I".toList], .leaf (.footnoteReference "n".toList)]],
        .node (.footnote "n".toList) [.node .paragraph
          [.node (.image "n.png".toList []) [.text "N".toList]]]]
    let events := Markdown.Tree.eventsOfList trees
    let first : ImageTag := ⟨"k.png".toList, "K".toList, "a &quot;b&quot;\n&lt;c&gt;".toList⟩
    (∀ tree ∈ trees, StandsInText (fun _ => True) tree) ∧
      (∀ child ∈ content, StandsInLine (fun _ => True) child) ∧
      (∀ event ∈ Markdown.Tree.eventsOfList content, staysInImage event = true) ∧
      leftBehind (imageLeft {}) [.start .paragraph]
        (Markdown.Tree.node (.image "k.png".toList "K".toList) content).events = [first] ∧
      ∃ page, renderEvents {} events = .ok page ∧
        HasPieces (fun image piece => piece = ImageTag.markup image)
          [first, ⟨"i.png".toList, [], "<em>I</em><sup class=\"footnote-ref\">".toList ++
              "<a href=\"#fn1\" id=\"fnref1\">[1]</a></sup>".toList⟩,
            ⟨"n.png".toList, [], "N".toList⟩] page.html := by
  intro content trees events first
  have hleaf : ∀ event : Event, event.isEdge = false →
      StandsInLine (fun _ => True) (.leaf event) := fun _ => .leaf
  have himage : ∀ {url title : Text} {children : List Markdown.Tree},
      (∀ child ∈ children, StandsInLine (fun _ => True) child) →
      StandsInLine (fun _ => True) (.node (.image url title) children) :=
    fun h => .image (fun _ _ => trivial) h
  have hcontent : ∀ child ∈ content, StandsInLine (fun _ => True) child :=
    List.forall_mem_cons.2 ⟨hleaf _ rfl, List.forall_mem_cons.2 ⟨hleaf _ rfl,
      List.forall_mem_singleton.2 (hleaf _ rfl)⟩⟩
  have hemphasis : StandsInLine (fun _ => True) (.node .emphasis [.text "I".toList]) :=
    .node rfl (List.forall_mem_singleton.2 (hleaf _ rfl))
  have htrees : ∀ tree ∈ trees, StandsInText (fun _ => True) tree := by
    refine List.forall_mem_cons.2 ⟨.line (.node rfl ?_), List.forall_mem_cons.2 ⟨.heading ?_,
      List.forall_mem_singleton.2 (.footnote (List.forall_mem_singleton.2 (.line (.node rfl ?_))))⟩⟩
    · exact List.forall_mem_singleton.2 (himage hcontent)
    · exact List.forall_mem_singleton.2 (himage (List.forall_mem_cons.2 ⟨hemphasis,
        List.forall_mem_singleton.2 (hleaf _ rfl)⟩))
    · exact List.forall_mem_singleton.2 (himage (List.forall_mem_singleton.2 (hleaf _ rfl)))
  have hstays : ∀ event ∈ Markdown.Tree.eventsOfList content, staysInImage event = true := by decide
  have htexts : ∀ event ∈ Markdown.Tree.eventsOfList content,
      (writtenText? event).isSome = true := by decide
  have hescaped : escapeHtml ((Markdown.Tree.eventsOfList content).flatMap fun event =>
      (writtenText? event).getD []) = first.alternative := by decide +kernel
  have hshown : (course (imageLeft {}) events).shown (referenceLabels events).eraseDups =
      [first, ⟨"i.png".toList, [], "<em>I</em><sup class=\"footnote-ref\">".toList ++
          "<a href=\"#fn1\" id=\"fnref1\">[1]</a></sup>".toList⟩,
        ⟨"n.png".toList, [], "N".toList⟩] := by
    decide +kernel
  obtain ⟨page, hpage, hpieces, -, himages⟩ := images_renderEvents {} htrees
  obtain ⟨alternative, hwritten, halternative⟩ :=
    (himages [.start .paragraph] _ _ content _ rfl hcontent).2 rfl hstays
  obtain rfl := (halternative.eq_escapeHtml htexts).trans hescaped
  exact ⟨htrees, hcontent, hstays, hwritten, page, hpage, hshown ▸ hpieces⟩

/-- **Emphasis in an image** comes with its tags, and **an image in an image** takes the tag of the
outer one away. -/
theorem images_taggedAlternative :
    (renderEvents {} (Document.parse "![a *b*](u)\n".toList)).toOption.map (·.html) =
        some "<p><img src=\"u\" alt=\"a <em>b</em>\"></p>\n".toList ∧
      (renderEvents {} (Document.parse "![a ![b](c) d](e \"t\")\n".toList)).toOption.map
          (·.html) =
        some "<p>a <img src=\"c\" alt=\"b\"> d</p>\n".toList := by
  decide +kernel

end Lectern.Page
