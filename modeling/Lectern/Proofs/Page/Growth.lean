import Lectern.Proofs.Page.Mark
import Lectern.Proofs.Page.Passage
import Lectern.Proofs.Page.Slug
import Lectern.Proofs.Page.Writer

/-!
# Growth of the Writer

What the writer does over a part of a document, seen from around that part: it appends markup to
the output, and leaves alone what waits around the part. `Appends` names the markup, `Grows` says
that there is some and that it is well formed, and `Records` says where the references of the part
have gone: those in the text are marks of the markup, those of a footnote definition are marks of
its note, and all of them are counted.

Headings and images cut the markup off again and wrap it, a footnote definition puts it away, and
all of this is growth again, with the same marks.

## Main results

* `exists_surround`: the elements that only write markup before and after their content.
* `yields_inline`: the writer records every part of a line.
-/

namespace Lectern.Page

open Markdown Markup

namespace Writer

variable {style : PageStyle} {u v w w' : Writer} {before after : Text}

/-! ### Growth -/

/-- Whether the notes that the writer keeps are well formed. -/
def HasWellFormedNotes (w : Writer) : Prop :=
  ∀ note ∈ w.footnotes.definitions, WellFormed note.2

/-- Whether the writer `w'` is `w` after `markup`, seen from around it: an open heading may have
more plain text, and the ledgers more entries. -/
structure Appends (markup : Text) (w w' : Writer) : Prop where
  output : w'.output = w.output ++ markup
  heading : ∃ text, w'.heading = w.heading.map fun h => { h with text := h.text ++ text }
  outer : w'.outer = w.outer
  code : w'.code = w.code
  notes : HasWellFormedNotes w → HasWellFormedNotes w'

/-- The writer `w'` **grows** out of `w`. -/
structure Grows (w w' : Writer) : Prop where
  appends : ∃ markup, Appends markup w w' ∧ WellFormed markup
  inHead : w'.table.inHead = w.table.inHead

/-- Markup after markup. -/
theorem Appends.trans {s t : Text} (huv : Appends s u v) (hvw : Appends t v w) :
    Appends (s ++ t) u w where
  output := by rw [hvw.output, huv.output, List.append_assoc]
  heading := by
    obtain ⟨s, hs⟩ := huv.heading
    obtain ⟨t, ht⟩ := hvw.heading
    exact ⟨s ++ t, by rw [ht, hs]; cases u.heading <;> simp⟩
  outer := hvw.outer.trans huv.outer
  code := hvw.code.trans huv.code
  notes := hvw.notes ∘ huv.notes

/-- A writer without an open heading has none after more markup. -/
theorem Appends.heading_eq_none {s : Text} (h : Appends s w w') (hw : w.heading = none) :
    w'.heading = none := by
  obtain ⟨text, htext⟩ := h.heading
  rw [htext, hw]
  rfl

/-- Markup is appended by `push`. -/
theorem appends_push (markup : Text) : Appends markup w (w.push markup) where
  output := rfl
  heading := ⟨[], by cases hw : w.heading <;> simp [push, hw]⟩
  outer := rfl
  code := rfl
  notes := id

/-- Plain text of a heading is no markup. -/
theorem appends_pushHeadingText (s : Text) : Appends [] w (w.pushHeadingText s) where
  output := by simp [pushHeadingText]
  heading := ⟨s, rfl⟩
  outer := rfl
  code := rfl
  notes := id

/-- A writer grows out of itself. -/
theorem Grows.refl (w : Writer) : Grows w w where
  appends := ⟨[], by simpa [push] using appends_push (w := w) [], .nil⟩
  inHead := rfl

/-- Growth after growth. -/
theorem Grows.trans (huv : Grows u v) (hvw : Grows v w) : Grows u w where
  appends := by
    obtain ⟨s, hs, hwfs⟩ := huv.appends
    obtain ⟨t, ht, hwft⟩ := hvw.appends
    exact ⟨s ++ t, hs.trans ht, hwfs.append hwft⟩
  inHead := hvw.inHead.trans huv.inHead

/-! ### Records -/

/-- A note, with the marks of its body. -/
def readNote (note : Text × Text) : Text × List Anchor := (note.1, marks note.2)

/-- Whether the references of `passages`, behind `earlier` ones, are where they belong when a part
of a document has written `markup`: each token has left its marks, in the markup or in the note of
its footnote definition, and is counted. The latest note comes first. -/
structure Keeps (mark : FootnoteToken → List Anchor) (earlier : List Text)
    (passages : List Passage) (markup : Text) (ledger ledger' : FootnoteLedger) : Prop where
  references : ledger'.references = tally (earlier ++ labelsOf passages)
  marks_eq : marks markup = (flowTokens (told earlier passages)).flatMap mark
  notes : ledger'.definitions.map readNote =
    ((noteTokens (told earlier passages)).map fun (label, tokens) =>
      (label, tokens.flatMap mark)).reverse ++ ledger.definitions.map readNote

/-- Whether `markup` is well formed and **tells** of `passages`, whatever references come before. -/
structure Tells (mark : FootnoteToken → List Anchor) (passages : List Passage) (markup : Text)
    (ledger ledger' : FootnoteLedger) : Prop where
  wellFormed : WellFormed markup
  keeps : ∀ earlier, ledger.references = tally earlier →
    Keeps mark earlier passages markup ledger ledger'

/-- The writer `w'` **records** `passages` behind `w`. -/
structure Records (mark : FootnoteToken → List Anchor) (passages : List Passage)
    (w w' : Writer) : Prop where
  appends : ∃ markup, Appends markup w w' ∧ Tells mark passages markup w.footnotes w'.footnotes
  inHead : w'.table.inHead = w.table.inHead

variable {mark : FootnoteToken → List Anchor} {ps qs : List Passage} {s t : Text}
  {ledger ledger' ledger'' : FootnoteLedger}

/-- A record is growth. -/
theorem Records.grows (h : Records mark ps w w') : Grows w w' where
  appends := by
    obtain ⟨markup, happends, htells⟩ := h.appends
    exact ⟨markup, happends, htells.wellFormed⟩
  inHead := h.inHead

/-- Markup without marks tells of no passages. -/
theorem tells_nil (h : Reads [] s) : Tells mark [] s ledger ledger where
  wellFormed := h.wellFormed
  keeps earlier hearlier := ⟨by simpa [labelsOf] using hearlier, h.marks_eq, rfl⟩

/-- Passages after passages. -/
theorem Tells.trans (hs : Tells mark ps s ledger ledger') (ht : Tells mark qs t ledger' ledger'') :
    Tells mark (ps ++ qs) (s ++ t) ledger ledger'' where
  wellFormed := hs.wellFormed.append ht.wellFormed
  keeps earlier hearlier := by
    have hfirst := hs.keeps earlier hearlier
    have hsecond := ht.keeps _ hfirst.references
    refine ⟨?_, ?_, ?_⟩
    · rw [hsecond.references, labelsOf_append, List.append_assoc]
    · rw [marks_append hs.wellFormed.isClosed, hfirst.marks_eq, hsecond.marks_eq, told_append,
        flowTokens_append, List.flatMap_append]
    · rw [hsecond.notes, hfirst.notes, told_append, noteTokens_append]
      simp

/-- Markup tells of the same passages as other markup with its marks. -/
theorem Tells.of_reads (h : Tells mark ps s ledger ledger') (ht : Reads (marks s) t) :
    Tells mark ps t ledger ledger' where
  wellFormed := ht.wellFormed
  keeps earlier hearlier := by
    have hkeeps := h.keeps earlier hearlier
    exact { hkeeps with marks_eq := ht.marks_eq.trans hkeeps.marks_eq }

/-- A writer records nothing behind itself. -/
theorem Records.refl (w : Writer) : Records mark [] w w where
  appends := ⟨[], by simpa [push] using appends_push (w := w) [], tells_nil reads_nil⟩
  inHead := rfl

/-- Records after records. -/
theorem Records.trans (huv : Records mark ps u v) (hvw : Records mark qs v w) :
    Records mark (ps ++ qs) u w where
  appends := by
    obtain ⟨s, hs, htells⟩ := huv.appends
    obtain ⟨t, ht, htells'⟩ := hvw.appends
    exact ⟨s ++ t, hs.trans ht, htells.trans htells'⟩
  inHead := hvw.inHead.trans huv.inHead

/-- Markup without marks records no passages. -/
theorem records_push (h : Reads [] s) : Records mark [] w (w.push s) :=
  ⟨⟨s, appends_push s, tells_nil h⟩, rfl⟩

/-- Plain text of a heading records no passages. -/
theorem records_pushHeadingText (s : Text) : Records mark [] w (w.pushHeadingText s) :=
  ⟨⟨[], appends_pushHeadingText s, tells_nil reads_nil⟩, rfl⟩

/-- A code block that is not open stays so. -/
theorem Records.code_eq_none (hw : w.code = none) (h : Records mark ps w w') : w'.code = none := by
  obtain ⟨_, happends, -⟩ := h.appends
  rw [happends.code, hw]

/-! ### Elements -/

/-- Whether two pieces of markup make well-formed content well-formed markup, with the same
marks. -/
def Surround (before after : Text) : Prop :=
  ∀ found content, Reads found content → Reads found (before ++ content ++ after)

/-- **A record between two pieces of markup** that surround it. -/
theorem Records.surround (h : Records mark ps u v) (hbefore : Appends before w u)
    (hafter : Appends after v w') (hopen : u.footnotes = w.footnotes)
    (hclose : w'.footnotes = v.footnotes) (hsurround : Surround before after)
    (hhead : w'.table.inHead = w.table.inHead) : Records mark ps w w' where
  appends := by
    obtain ⟨markup, hmarkup, htells⟩ := h.appends
    refine ⟨before ++ markup ++ after, (hbefore.trans hmarkup).trans hafter, ?_⟩
    rw [hclose, ← hopen]
    exact htells.of_reads (hsurround _ _ ⟨htells.wellFormed, rfl⟩)
  inHead := hhead

/-- An element surrounds its content, with text at its start and behind it. -/
theorem surround_element (name lead trail : Text) (properties : List Property)
    (hname : IsName name ∧ name ∉ voidElements)
    (hproperties : AreSafe properties) (hmark : tagMarks properties = [])
    (hlead : IsPlainText lead) (htrail : IsPlainText trail)
    (hbefore : before = openTag name properties ++ lead)
    (hafter : after = closeTag name ++ trail) : Surround before after := by
  intro found content hcontent
  have hinner := (reads_of_isPlainText hlead).append hcontent
  have helement := hinner.enclose name properties hname hproperties
  simpa [hbefore, hafter, hmark] using helement.append (reads_of_isPlainText htrail)

/-- An element without properties surrounds its content. -/
theorem surround_named (name lead trail : String)
    (h : (IsName name.toList ∧ name.toList ∉ voidElements) ∧ IsPlainText lead.toList ∧
      IsPlainText trail.toList) :
    Surround (openTag name.toList [] ++ lead.toList) (closeTag name.toList ++ trail.toList) :=
  surround_element _ _ _ [] h.1 areSafe_nil rfl h.2.1 h.2.2 rfl rfl

/-- No markup at all surrounds its content. -/
theorem surround_nil : Surround [] [] := fun _ _ h => by simpa using h

/-- The properties that stand for a title. -/
def titleProperties (title : Text) : List Property :=
  if title.isEmpty then [] else [⟨"title".toList, some (escapeHtml title)⟩]

/-- The text of a title. -/
theorem flatMap_titleProperties (title : Text) :
    (titleProperties title).flatMap Property.text = titleProperty title := by
  unfold titleProperties titleProperty
  split <;> simp [Property.text]

/-- A title is safe. -/
theorem areSafe_titleProperties (title : Text) : AreSafe (titleProperties title) := by
  unfold titleProperties
  split
  · exact areSafe_nil
  · exact areSafe_nil.cons _ (by decide) (isValue_escapeHtml title)

/-- **The elements that only write markup** before and after their content. -/
theorem exists_surround {tag : Tag} (h : IsContainer tag) : ∃ before after,
    (∀ w : Writer, w.start tag = w.push before) ∧
    (∀ w : Writer, w.finish style tag.toEnd = .ok (w.push after)) ∧ Surround before after := by
  have hnothing : ∀ w : Writer, w = w.push [] := fun w => by simp [push]
  cases h with
  | span h =>
    cases h with
    | emphasis => exact ⟨_, _, fun _ => rfl, fun _ => rfl, surround_named "em" "" "" (by decide)⟩
    | strong => exact ⟨_, _, fun _ => rfl, fun _ => rfl, surround_named "strong" "" "" (by decide)⟩
    | strikethrough =>
      exact ⟨_, _, fun _ => rfl, fun _ => rfl, surround_named "s" "" "" (by decide)⟩
    | superscript =>
      exact ⟨_, _, fun _ => rfl, fun _ => rfl, surround_named "sup" "" "" (by decide)⟩
    | subscript => exact ⟨_, _, fun _ => rfl, fun _ => rfl, surround_named "sub" "" "" (by decide)⟩
    | link url title =>
      refine ⟨_, _, fun _ => rfl, fun _ => rfl, surround_element "a".toList [] []
        (⟨"href".toList, some (escapeHtml url)⟩ :: titleProperties title) (by decide) ?_ ?_
        (by decide) (by decide) ?_ rfl⟩
      · exact (areSafe_titleProperties title).cons _ (by decide) (isValue_escapeHtml url)
      · unfold titleProperties
        split <;> rfl
      · simp [openTag, flatMap_titleProperties, Property.text]
  | paragraph => exact ⟨_, _, fun _ => rfl, fun _ => rfl, surround_named "p" "" "\n" (by decide)⟩
  | blockQuote =>
    exact ⟨_, _, fun _ => rfl, fun _ => rfl, surround_named "blockquote" "\n" "\n" (by decide)⟩
  | htmlBlock => exact ⟨[], [], hnothing, fun w => congrArg Except.ok (hnothing w), surround_nil⟩
  | list start =>
    have hordered : ∀ n, Surround ("<ol start=\"".toList ++ Text.decimal n ++ "\">\n".toList)
        "</ol>\n".toList := fun n => by
      refine surround_element "ol".toList ['\n'] ['\n']
        [⟨"start".toList, some (Text.decimal n)⟩] (by decide) ?_ rfl (by decide) (by decide) ?_ rfl
      · exact areSafe_nil.cons _ (by decide) (isValue_decimal n)
      · simp [openTag, Property.text]
    rcases start with _ | _ | _ | n
    · exact ⟨_, _, fun _ => rfl, fun _ => rfl, surround_named "ul" "\n" "\n" (by decide)⟩
    · exact ⟨_, _, fun _ => rfl, fun _ => rfl, hordered 0⟩
    · exact ⟨_, _, fun _ => rfl, fun _ => rfl, surround_named "ol" "\n" "\n" (by decide)⟩
    · exact ⟨_, _, fun _ => rfl, fun _ => rfl, hordered (n + 2)⟩
  | item => exact ⟨_, _, fun _ => rfl, fun _ => rfl, surround_named "li" "" "\n" (by decide)⟩
  | definitionList =>
    exact ⟨_, _, fun _ => rfl, fun _ => rfl, surround_named "dl" "\n" "\n" (by decide)⟩
  | definitionTitle =>
    exact ⟨_, _, fun _ => rfl, fun _ => rfl, surround_named "dt" "" "\n" (by decide)⟩
  | definitionBody =>
    exact ⟨_, _, fun _ => rfl, fun _ => rfl, surround_named "dd" "" "\n" (by decide)⟩
  | metadata => exact ⟨[], [], hnothing, fun w => congrArg Except.ok (hnothing w), surround_nil⟩

/-! ### Lines -/

/-- A text records nothing where no code block is open. -/
theorem records_text (content : Text) (hcode : w.code = none) :
    Records mark [] w (w.text content) := by
  rw [text, hcode]
  exact (records_pushHeadingText content).trans (records_push (reads_escapeHtml content))

/-- The tag of an image. -/
def imageTag (url title alternative : Text) : Text :=
  "<img src=\"".toList ++ escapeHtml url ++ "\" alt=\"".toList ++ alternative ++ ['"'] ++
    titleProperty title ++ ['>']

/-- The tag of an image is well formed, and no mark. -/
theorem reads_imageTag (url title alternative : Text) :
    Reads [] (imageTag url title (escapeHtml alternative)) := by
  have h : Reads [] (openTag "img".toList (⟨"src".toList, some (escapeHtml url)⟩ ::
      ⟨"alt".toList, some (escapeHtml alternative)⟩ :: titleProperties title)) := by
    refine reads_void _ _ (by decide) ?_ ?_
    · have htitle := areSafe_titleProperties title
      exact (htitle.cons _ (by decide) (isValue_escapeHtml alternative)).cons _ (by decide)
        (isValue_escapeHtml url)
    · unfold titleProperties
      split <;> rfl
  unfold imageTag
  simpa [openTag, flatMap_titleProperties, Property.text] using h

/-- The end of an image whose start is a place of the output. -/
theorem finishImage_eq {written alternative url title : Text}
    (hplace : w.imageStart = some (Text.byteLength written)) (himage : w.image = some (url, title))
    (houtput : w.output = written ++ alternative) :
    w.finishImage = .ok { w with
      output := written ++ imageTag url title alternative
      imageStart := none
      image := none } := by
  have hcut : w.cutAt (Text.byteLength written) = .ok (written, alternative) := by
    rw [cutAt, houtput, Text.cutAtByte?_append]
  rw [finishImage, hplace, himage]
  simp only [hcut]
  rfl

/-- **An image** cuts the text since its start off again and makes an attribute of it. -/
theorem yields_image (url title : Text) (texts : List Text) (hcode : w.code = none) :
    Yields style w (Markdown.Tree.node (.image url title) (texts.map Markdown.Tree.text)).events
      (Records mark [] w) := by
  refine (yields_texts texts).node ?_
  rintro w₁ hw₁
  obtain ⟨houtput, hplace, himage⟩ : w₁.output = w.output ++ escapeHtml texts.flatten ∧
      w₁.imageStart = some (Text.byteLength w.output) ∧ w₁.image = some (url, title) := by
    simp [hw₁, start, text, hcode, push, pushHeadingText]
  have htells : Tells mark [] (imageTag url title (escapeHtml texts.flatten)) w.footnotes
      w₁.footnotes := by
    have hledger : w₁.footnotes = w.footnotes := by
      simp [hw₁, start, text, hcode, push, pushHeadingText]
    rw [hledger]
    exact tells_nil (reads_imageTag url title texts.flatten)
  refine ⟨_, finishImage_eq hplace himage houtput,
    ⟨_, ⟨rfl, ⟨texts.flatten, ?_⟩, ?_, ?_, ?_⟩, htells⟩, ?_⟩
  all_goals simp [hw₁, start, text, hcode, push, pushHeadingText, HasWellFormedNotes]

/-- An element that only writes markup around its content records what the content does. -/
theorem yields_container {tag : Tag} {children : List Markdown.Tree} (htag : IsContainer tag)
    (hchildren : ∀ before, Yields style (w.push before) (Markdown.Tree.eventsOfList children)
      (Records mark (passagesOf children) (w.push before))) :
    Yields style w (Markdown.Tree.node tag children).events
      (Records mark (passages (.node tag children)) w) := by
  obtain ⟨before, after, hstart, hfinish, hsurround⟩ := exists_surround htag
  have hrun := hchildren before
  rw [← hstart w] at hrun
  refine hrun.node fun w₁ hrecords => ⟨_, hfinish w₁, ?_⟩
  rw [hstart w] at hrecords
  rw [passages_container htag]
  exact hrecords.surround (appends_push before) (appends_push after) rfl rfl hsurround
    hrecords.inHead

/-- A run over trees that are each recorded where no code block is open. -/
theorem yields_recording {trees : List Markdown.Tree}
    (htrees : ∀ tree ∈ trees, ∀ w : Writer, w.code = none →
      Yields style w tree.events (Records mark (passages tree) w))
    (hcode : w.code = none) :
    Yields style w (Markdown.Tree.eventsOfList trees) (Records mark (passagesOf trees) w) := by
  rw [passagesOf_eq]
  exact yields_each passages Records.refl Records.trans Records.code_eq_none htrees hcode

section References

variable (hreference : ∀ token,
  Reads (mark token) (referenceMarkup token style.context style.naming))

include hreference

/-- **A reference** leaves its marks in the text, and is counted. -/
theorem records_reference (label : Text) :
    Records mark [⟨none, [label]⟩] w ({ w with
      footnotes := (w.footnotes.reference label).2 }.push
        (referenceMarkup (w.footnotes.reference label).1 style.context style.naming)) where
  appends := by
    have hread := hreference (w.footnotes.reference label).1
    refine ⟨_, ⟨rfl, ⟨[], by cases w.heading <;> simp [push]⟩, rfl, rfl, ?_⟩,
      hread.wellFormed, fun earlier hearlier => ?_⟩
    · intro hnotes note hnote
      rw [push, FootnoteLedger.definitions_reference] at hnote
      exact hnotes note hnote
    · have hnext := FootnoteLedger.reference_eq hearlier label
      rw [hnext] at hread ⊢
      refine ⟨rfl, ?_, rfl⟩
      simpa [told, flowTokens, numbered] using hread.marks_eq
  inHead := rfl

/-- **One event of a line** is recorded. -/
theorem yields_inlineEvent {event : Event} (h : IsInlineEvent event) (hcode : w.code = none) :
    Yields style w [event] (Records mark (passages (.leaf event)) w) := by
  cases h with
  | text content => exact yields_singleton rfl (records_text content hcode)
  | code content =>
    refine yields_singleton rfl ((records_pushHeadingText content).trans (records_push ?_))
    exact surround_named "code" "" "" (by decide) _ _ (reads_escapeHtml content)
  | inlineMath content => exact yields_singleton rfl (records_push (reads_escapeHtml content))
  | displayMath content => exact yields_singleton rfl (records_push (reads_escapeHtml content))
  | footnoteReference label => exact yields_singleton rfl (records_reference hreference label)
  | softBreak => exact yields_singleton rfl (records_push reads_newline)
  | hardBreak =>
    have hbreak := reads_void "br".toList [] (by decide) areSafe_nil rfl
    exact yields_singleton rfl (records_push (hbreak.append reads_newline))
  | taskMarker checked =>
    have hmarker : ∀ flags : List Text, (∀ flag ∈ flags, IsName flag) →
        tagMarks (⟨"type".toList, some "checkbox".toList⟩ :: flags.map (⟨·, none⟩)) = [] →
        Reads [] (openTag "input".toList (⟨"type".toList, some "checkbox".toList⟩ ::
          flags.map (⟨·, none⟩))) := by
      intro flags hflags hmark
      have hsafe : AreSafe (flags.map (⟨·, none⟩)) := by
        simpa [AreSafe, Property.IsSafe] using hflags
      exact reads_void _ _ (by decide) (hsafe.cons _ (by decide) (by decide)) hmark
    refine yields_singleton rfl (records_push ?_)
    cases checked with
    | false => exact hmarker ["disabled".toList] (by decide) rfl
    | true => exact hmarker ["disabled".toList, "checked".toList] (by decide) rfl

/-- **A part of a line** is recorded. -/
theorem yields_inline {tree : Markdown.Tree} (h : IsInline tree) (hcode : w.code = none) :
    Yields style w tree.events (Records mark (passages tree) w) := by
  induction h generalizing w with
  | leaf h => exact yields_inlineEvent hreference h hcode
  | span hspan _ ih =>
    exact yields_container (.span hspan) fun _ =>
      yields_recording (fun child hchild _ => ih child hchild) hcode
  | @image url title texts =>
    have himage : passages (.node (.image url title) (texts.map Markdown.Tree.text)) = [] :=
      passagesOf_texts texts
    rw [himage]
    exact yields_image _ _ _ hcode

end References

end Writer

end Lectern.Page
