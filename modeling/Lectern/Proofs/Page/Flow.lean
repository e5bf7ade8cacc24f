import Lectern.Proofs.Page.Growth

/-!
# Records of Documents

The writer records every part of a document: its markup is well formed, the references in the text
have left their marks there, and those of a footnote definition have left theirs in its note. The
proof is by induction on the part. Tables remember whether their head is open, headings wrap what
was written since their start, and a footnote definition starts with an empty output and ends with
the one that waited for it.

## Main results

* `yields_table`, `yields_heading`, `yields_footnote`: the elements that do more than write markup.
* `yields_part`: the writer records every part of a document.
-/

namespace Lectern.Page

open Markdown Markup

namespace Writer

variable {style : PageStyle} {w w' : Writer} {mark : FootnoteToken → List Anchor}
  {ps : List Passage}

/-! ### Tables -/

/-- Markup is appended whatever is known of the table. -/
theorem appends_table (table : TableState) (markup : Text) :
    Appends markup w ({ w with table }.push markup) where
  output := rfl
  heading := ⟨[], by cases w.heading <;> simp [push]⟩
  outer := rfl
  code := rfl
  notes := id

/-- The style of a cell is a property, or nothing. -/
theorem exists_cellStyle (table : TableState) : ∃ properties, AreSafe properties ∧
    tagMarks properties = [] ∧ table.cellStyle = properties.flatMap Property.text := by
  have hstyle : ∀ value : Text, IsValue value → AreSafe [⟨"style".toList, some value⟩] :=
    fun value => areSafe_nil.cons _ (by decide)
  unfold TableState.cellStyle
  split
  · exact ⟨_, hstyle "text-align: left".toList (by decide), rfl, rfl⟩
  · exact ⟨_, hstyle "text-align: center".toList (by decide), rfl, rfl⟩
  · exact ⟨_, hstyle "text-align: right".toList (by decide), rfl, rfl⟩
  · exact ⟨[], areSafe_nil, rfl, rfl⟩

/-- The tags of a cell surround its content. -/
theorem surround_cell (table : TableState) :
    Surround ('<' :: table.cellName ++ table.cellStyle ++ ['>'])
      ("</".toList ++ table.cellName ++ ['>']) := by
  obtain ⟨properties, hproperties, hmark, hstyle⟩ := exists_cellStyle table
  have hname : IsName table.cellName ∧ table.cellName ∉ voidElements := by
    unfold TableState.cellName
    split <;> decide
  refine surround_element _ [] [] properties hname hproperties hmark (by decide) (by decide) ?_ ?_
  · simp [openTag, hstyle]
  · simp [closeTag]

/-- The markup of a table has the marks of its head and of its rows. -/
theorem reads_table {found more : List Anchor} {head rows : Text} (hhead : Reads found head)
    (hrows : Reads more rows) :
    Reads (found ++ more) ("<table>".toList ++
      ("<thead><tr>".toList ++ head ++ "</tr></thead><tbody>".toList ++ rows) ++
      "</tbody></table>\n".toList) := by
  have hrow := surround_named "tr" "" "" (by decide) _ _ hhead
  have hthead := surround_named "thead" "" "" (by decide) _ _ hrow
  have htbody := surround_named "tbody" "" "" (by decide) _ _ hrows
  have htable := surround_named "table" "" "\n" (by decide) _ _ (hthead.append htbody)
  simpa [openTag, closeTag] using htable

section References

variable (hreference : ∀ token,
  Reads (mark token) (referenceMarkup token style.context style.naming))

include hreference

/-- The writer records parts of a line. -/
theorem yields_line {children : List Markdown.Tree} (hchildren : ∀ child ∈ children, IsInline child)
    (hcode : w.code = none) : Yields style w (Markdown.Tree.eventsOfList children)
      (Records mark (passagesOf children) w) :=
  yields_recording (fun child hchild _ => yields_inline hreference (hchildren child hchild)) hcode

/-- **A cell** is recorded. -/
theorem yields_cell {tree : Markdown.Tree} (h : IsCell tree) (hcode : w.code = none) :
    Yields style w tree.events (Records mark (passages tree) w) := by
  obtain ⟨hchildren⟩ := h
  refine (yields_line (w := w.start .tableCell) hreference hchildren hcode).node ?_
  intro w₁ hrecords
  refine ⟨_, rfl, hrecords.surround (appends_push _) (appends_table _ _) rfl rfl ?_
    hrecords.inHead⟩
  have hname : w₁.table.cellName = w.table.cellName := by
    rw [TableState.cellName, hrecords.inHead]
    rfl
  rw [hname]
  exact surround_cell w.table

/-- The cells of a row are recorded. -/
theorem yields_cells {cells : List Markdown.Tree} (h : ∀ cell ∈ cells, IsCell cell)
    (hcode : w.code = none) : Yields style w (Markdown.Tree.eventsOfList cells)
      (Records mark (passagesOf cells) w) :=
  yields_recording (fun cell hcell _ => yields_cell hreference (h cell hcell)) hcode

/-- **A row** is recorded. -/
theorem yields_row {tree : Markdown.Tree} (h : IsRow tree) (hcode : w.code = none) :
    Yields style w tree.events (Records mark (passages tree) w) := by
  obtain ⟨hcells⟩ := h
  refine (yields_cells (w := w.start .tableRow) hreference hcells hcode).node ?_
  intro w₁ hrecords
  exact ⟨_, rfl, hrecords.surround (appends_table _ _) (appends_push _) rfl rfl
    (surround_named "tr" "" "" (by decide)) hrecords.inHead⟩

/-- **A table** is recorded: its head is written between two more pieces of markup. -/
theorem yields_table {alignments : List Markdown.Alignment} {cells rows : List Markdown.Tree}
    (hcells : ∀ cell ∈ cells, IsCell cell) (hrows : ∀ row ∈ rows, IsRow row)
    (hcode : w.code = none) (hhead : w.table.inHead = false) :
    Yields style w (Markdown.Tree.node (.table alignments) (.node .tableHead cells :: rows)).events
      (Records mark (passagesOf cells ++ passagesOf rows) w) := by
  let inner := w.start (.table alignments)
  -- the writer behind the head of the table
  let mid : Writer → Prop := fun w₁ => ∃ markup,
    Appends ("<thead><tr>".toList ++ markup ++ "</tr></thead><tbody>".toList) inner w₁ ∧
      Tells mark (passagesOf cells) markup inner.footnotes w₁.footnotes ∧ w₁.table.inHead = false
  have hfirst : Yields style inner (Markdown.Tree.node .tableHead cells).events mid := by
    refine (yields_cells (w := inner.start .tableHead) hreference hcells hcode).node ?_
    intro w₁ hrecords
    obtain ⟨markup, happends, htells⟩ := hrecords.appends
    exact ⟨_, rfl, markup, ((appends_table _ _).trans happends).trans (appends_table _ _), htells,
      rfl⟩
  have hchildren : Yields style inner (Markdown.Tree.eventsOfList (.node .tableHead cells :: rows))
      (fun w₂ => ∃ w₁, mid w₁ ∧ Records mark (passagesOf rows) w₁ w₂) := by
    rw [Markdown.Tree.eventsOfList]
    refine hfirst.append fun w₁ hmid => ?_
    have hcode₁ : w₁.code = none := by
      obtain ⟨_, happends, -, -⟩ := hmid
      exact happends.code.trans hcode
    exact (yields_recording (fun row hrow _ => yields_row hreference (hrows row hrow)) hcode₁).imp
      fun w₂ hrecords => ⟨w₁, hmid, hrecords⟩
  refine hchildren.node fun w₂ hw₂ => ⟨_, rfl, ?_⟩
  obtain ⟨w₁, ⟨head, hfirst, htells, hinHead⟩, hrecords⟩ := hw₂
  obtain ⟨body, hsecond, htells'⟩ := hrecords.appends
  refine ⟨⟨_, ((appends_table _ _).trans (hfirst.trans hsecond)).trans (appends_push _), ?_⟩, ?_⟩
  · refine (htells.trans htells').of_reads ?_
    rw [marks_append htells.wellFormed.isClosed]
    exact reads_table ⟨htells.wellFormed, rfl⟩ ⟨htells'.wellFormed, rfl⟩
  · rw [hhead]
    exact hrecords.inHead.trans hinHead

end References

/-! ### Code blocks, headings and notes -/

/-- The class of code in a language is not that of a note or of a link. -/
theorem tagMarks_language (language : Text) :
    tagMarks [⟨"class".toList, some ("language-".toList ++ language)⟩] = [] := rfl

/-- The markup of a code block. -/
theorem reads_codeBlock (language : Option Text) (content : Text) :
    Reads [] (codeBlock language content) := by
  have hcode : ∀ properties, AreSafe properties → tagMarks properties = [] →
      Reads [] (openTag "pre".toList [] ++ (openTag "code".toList properties ++
        escapeHtml content ++ closeTag "code".toList) ++ closeTag "pre".toList ++ ['\n']) := by
    intro properties hproperties hmark
    have hinner := surround_element "code".toList [] [] properties (by decide) hproperties hmark
      (by decide) (by decide) rfl rfl _ _ (reads_escapeHtml content)
    simpa using surround_named "pre" "" "\n" (by decide) _ _ hinner
  unfold codeBlock
  cases language with
  | none => simpa [openTag, closeTag] using hcode [] areSafe_nil rfl
  | some language =>
    have hprefix : IsValue "language-".toList := by decide
    have hclass := hprefix.append (isValue_escapeHtml language)
    have h := hcode _ (areSafe_nil.cons "class".toList (by decide) hclass)
      (tagMarks_language _)
    simpa [openTag, closeTag, Property.text] using h

/-- **A code block** keeps its texts back and writes them at its end. -/
theorem yields_codeBlock {tag : Tag} (h : IsCodeBlock tag) (texts : List Text)
    (hcode : w.code = none) :
    Yields style w (Markdown.Tree.node tag (texts.map Markdown.Tree.text)).events
      (Records mark [] w) := by
  obtain ⟨language, hstart, hend⟩ : ∃ language,
      w.start tag = { w with code := some (language, []) } ∧ tag.toEnd = .codeBlock := by
    cases h with
    | fenced info => exact ⟨_, rfl, rfl⟩
    | indented => exact ⟨_, rfl, rfl⟩
  refine (yields_texts texts).node ?_
  rintro _ rfl
  refine ⟨w.push (codeBlock language texts.flatten), ?_, records_push (reads_codeBlock _ _)⟩
  rw [hstart, hend]
  simp only [text, finish, push, List.nil_append]
  rw [← hcode]

/-- The element of a heading. -/
def headingElement (level : Nat) (id content : Text) : Text :=
  "<h".toList ++ Text.decimal level ++ " id=\"".toList ++ id ++ "\">".toList ++
    Text.trim content ++ "</h".toList ++ Text.decimal level ++ ">\n".toList

/-- The name of the element of a heading. -/
theorem isName_headingName (level : Nat) : IsName ('h' :: Text.decimal level) := by
  refine ⟨by simp, List.all_eq_true.2 (List.forall_mem_cons.2 ⟨rfl, fun c hc => ?_⟩)⟩
  simp [Char.isAlphanum, Text.isDigit_of_mem_decimal hc]

/-- The element of a heading has an id and no more: its marks are those of its content. -/
theorem reads_headingElement {level : Nat} {id content : Text} {found : List Anchor}
    (hid : IsValue id) (hcontent : Reads found content) :
    Reads found (headingElement level id content) := by
  have hname := isName_headingName level
  have hvoid : 'h' :: Text.decimal level ∉ voidElements := by
    intro h
    -- the only void element with this letter is `hr`, and its second letter is no digit
    obtain ⟨c, digits, hdigits⟩ := List.exists_cons_of_ne_nil (Text.decimal_ne_nil level)
    have hc := Text.isDigit_of_mem_decimal (n := level) (c := c) (by simp [hdigits])
    simp [voidElements, hdigits] at h
    rw [h.1] at hc
    exact absurd hc (by decide)
  have hproperties := areSafe_nil.cons "id".toList (by decide) hid
  have helement := surround_element ('h' :: Text.decimal level) [] ['\n'] _ ⟨hname, hvoid⟩
    hproperties rfl (by decide) (by decide) rfl rfl _ _ hcontent.trim
  unfold headingElement
  simpa [openTag, closeTag, Property.text] using helement

/-- The end of a heading whose start is a place of the output. -/
theorem finishHeading_eq (style : PageStyle) {heading : OpenHeading} {written content : Text}
    (hheading : w.heading = some heading) (hstart : heading.start = Text.byteLength written)
    (houtput : w.output = written ++ content) :
    ∃ title toc, w.finishHeading style = .ok { w with
      output := written ++
        headingElement heading.level (w.slugs.next (Text.collapse heading.text)).1 content
      heading := none
      slugs := (w.slugs.next (Text.collapse heading.text)).2
      title := title
      toc := toc } := by
  have hcut : w.cutAt heading.start = .ok (written, content) := by
    rw [cutAt, houtput, hstart, Text.cutAtByte?_append]
  rw [finishHeading, hheading]
  simp only [hcut]
  -- the heading is either the title of the page or an entry of its table of contents
  by_cases htitle : (style.extractTitle && heading.level == 1 && w.title.isNone) = true
  · exact ⟨_, _, by simp only [htitle]; rfl⟩
  · exact ⟨_, _, by simp only [htitle]; rfl⟩

/-- **A heading** cuts off what was written since its start and wraps it. -/
theorem yields_heading {level : Nat} {children : List Markdown.Tree}
    (hchildren : Yields style (w.start (.heading level)) (Markdown.Tree.eventsOfList children)
      (Records mark ps (w.start (.heading level)))) (hheading : w.heading = none) :
    Yields style w (Markdown.Tree.node (.heading level) children).events (Records mark ps w) := by
  refine hchildren.node fun w₁ hrecords => ?_
  obtain ⟨content, happends, htells⟩ := hrecords.appends
  obtain ⟨text, hopen⟩ := happends.heading
  obtain ⟨title, toc, hfinish⟩ := finishHeading_eq style hopen rfl happends.output
  refine ⟨_, hfinish, ⟨_, ⟨rfl, ⟨[], by simp [hheading]⟩, ?_, ?_, ?_⟩, ?_⟩, hrecords.inHead⟩
  · exact happends.outer
  · exact happends.code
  · exact happends.notes
  · exact htells.of_reads (reads_headingElement (isValue_next _ _) ⟨htells.wellFormed, rfl⟩)

/-- The body of a footnote definition becomes a note, with all the marks that it has. -/
theorem tells_define {label body : Text} {ledger ledger' : FootnoteLedger}
    (h : Tells mark ps body ledger ledger') (hps : ∀ passage ∈ ps, passage.note = none) :
    Tells mark [⟨some label, labelsOf ps⟩] [] ledger
      (ledger'.define label (Text.trimEnd body)) where
  wellFormed := .nil
  keeps earlier hearlier := by
    have hkeeps := h.keeps earlier hearlier
    have hbody : Reads (marks body) (Text.trimEnd body) := Reads.trimEnd ⟨h.wellFormed, rfl⟩
    obtain ⟨hflow, hnotes⟩ := told_of_note_eq_none earlier hps
    have hmarks := hbody.marks_eq.trans hkeeps.marks_eq
    have hrest := hkeeps.notes
    rw [hflow] at hmarks
    rw [hnotes] at hrest
    refine ⟨?_, rfl, ?_⟩
    · exact hkeeps.references.trans (by simp [labelsOf])
    · rw [FootnoteLedger.define, List.map_cons, hrest, readNote, hmarks]
      rfl

/-- **A footnote definition** leaves the output alone: its body becomes a note. -/
theorem yields_footnote {label : Text} {children : List Markdown.Tree}
    (hchildren : Yields style (w.start (.footnote label)) (Markdown.Tree.eventsOfList children)
      (Records mark ps (w.start (.footnote label)))) (houter : w.outer = none)
    (hps : ∀ passage ∈ ps, passage.note = none) :
    Yields style w (Markdown.Tree.node (.footnote label) children).events
      (Records mark [⟨some label, labelsOf ps⟩] w) := by
  refine hchildren.node fun w₁ hrecords => ?_
  obtain ⟨body, happends, htells⟩ := hrecords.appends
  have hopen : w₁.outer = some (label, w.output) := happends.outer
  have hfinish : w₁.finish style .footnote = .ok { w₁ with
      output := w.output
      outer := none
      footnotes := w₁.footnotes.define label (Text.trimEnd w₁.output) } := by
    simp only [finish, hopen]
  have hbody : w₁.output = body := happends.output
  rw [hbody] at hfinish
  refine ⟨_, hfinish, ⟨[], ⟨by simp, happends.heading, houter.symm, happends.code, ?_⟩, ?_⟩,
    hrecords.inHead⟩
  · intro hnotes
    exact List.forall_mem_cons.2 ⟨htells.wellFormed.trimEnd, happends.notes hnotes⟩
  · exact tells_define htells hps

/-! ### Documents -/

/-- Whether a part of a document can start here: no code block, heading or table is open, and no
footnote definition unless the part is within one. -/
structure IsReady (inNote : Bool) (w : Writer) : Prop where
  code : w.code = none
  heading : w.heading = none
  inHead : w.table.inHead = false
  outer : inNote = false → w.outer = none

/-- Growth leaves a writer ready. -/
theorem IsReady.of_grows {inNote : Bool} (h : IsReady inNote w) (hgrows : Grows w w') :
    IsReady inNote w' := by
  obtain ⟨_, happends, -⟩ := hgrows.appends
  refine ⟨happends.code.trans h.code, happends.heading_eq_none h.heading,
    hgrows.inHead.trans h.inHead, fun hnote => happends.outer.trans (h.outer hnote)⟩

/-- A run over parts of a document that are each recorded. -/
theorem yields_parts {inNote : Bool} {trees : List Markdown.Tree}
    (htrees : ∀ tree ∈ trees, ∀ w : Writer, IsReady inNote w →
      Yields style w tree.events (Records mark (passages tree) w))
    (hready : IsReady inNote w) :
    Yields style w (Markdown.Tree.eventsOfList trees) (Records mark (passagesOf trees) w) := by
  rw [passagesOf_eq]
  exact yields_each passages Records.refl Records.trans
    (fun hready hrecords => hready.of_grows hrecords.grows) htrees hready

/-- **A part of a document** is recorded. -/
theorem yields_part {inNote : Bool} {tree : Markdown.Tree} (h : IsFlow inNote tree)
    (hreference : ∀ token,
      Reads (mark token) (referenceMarkup token style.context style.naming))
    (hready : IsReady inNote w) :
    Yields style w tree.events (Records mark (passages tree) w) := by
  induction h generalizing w with
  | inline h => exact yields_inline hreference h hready.code
  | rule =>
    have hrule := reads_void "hr".toList [] (by decide) areSafe_nil rfl
    exact yields_singleton rfl (records_push (hrule.append reads_newline))
  | container htag _ ih =>
    refine yields_container htag fun before => ?_
    have hinside : IsReady _ (w.push before) :=
      ⟨hready.code, hready.heading, hready.inHead, hready.outer⟩
    exact yields_parts (fun child hchild _ => ih child hchild) hinside
  | @heading _ level _ hchildren =>
    exact yields_heading (yields_line (w := w.start (.heading level)) hreference hchildren
      hready.code) hready.heading
  | codeBlock h =>
    rw [passages_codeBlock h]
    exact yields_codeBlock h _ hready.code
  | table hcells hrows => exact yields_table hreference hcells hrows hready.code hready.inHead
  | @footnote label children hchildren ih =>
    have hinside : IsReady true (w.start (.footnote label)) :=
      ⟨hready.code, hready.heading, hready.inHead, fun h => nomatch h⟩
    have hnotes := note_eq_none_of_children fun child hchild =>
      note_eq_none (hchildren child hchild)
    exact yields_footnote (yields_parts (fun child hchild _ => ih child hchild) hinside)
      (hready.outer rfl) hnotes

end Writer

end Lectern.Page
