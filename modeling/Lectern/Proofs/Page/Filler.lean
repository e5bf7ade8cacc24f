import Lectern.Proofs.Markdown.Layout
import Lectern.Proofs.Page.Flow

/-!
# Filler

What the writer appends to the output, event by event. Most events append filler: text and tags that
are no headings and no marks of footnotes, and whose values have neither quotes nor brackets. So the
headings, the footnotes and the raw markup of a page are found between pieces of filler, whatever
else the document holds.

## Main results

* `exists_adds_fills`: what one event appends.
* `exists_adds_reference`, `exists_adds_raw`: what references and raw markup append.
-/

namespace Lectern.Page

open Markdown Markup

/-- Whether a tag with this name is one of a heading. -/
def isHeadingName : Text → Bool
  | 'h' :: c :: _ => c.isDigit
  | _ => false

/-- **Filler**: text and tags, but no tags of headings and no marks. -/
inductive IsFiller : Text → Prop
  | nil : IsFiller []
  | text {c : Char} {rest : Text} : IsValueChar c → IsFiller rest → IsFiller (c :: rest)
  | openTag {name : Text} {properties : List Property} {rest : Text} :
      IsName name → isHeadingName name = false → AreSafe properties → tagMarks properties = [] →
      IsFiller rest → IsFiller (Markup.openTag name properties ++ rest)
  | closeTag {name : Text} {rest : Text} :
      IsName name → IsFiller rest → IsFiller (Markup.closeTag name ++ rest)

variable {s t : Text}

/-- Filler after filler. -/
theorem IsFiller.append (hs : IsFiller s) (ht : IsFiller t) : IsFiller (s ++ t) := by
  induction hs with
  | nil => exact ht
  | text hc _ ih => exact .text hc ih
  | openTag hname hheading hproperties hmark _ ih =>
    rw [List.append_assoc]
    exact .openTag hname hheading hproperties hmark ih
  | closeTag hname _ ih =>
    rw [List.append_assoc]
    exact .closeTag hname ih

/-- A value is filler. -/
theorem isFiller_of_isValue (h : IsValue s) : IsFiller s := by
  induction s with
  | nil => exact .nil
  | cons c s ih =>
    obtain ⟨hc, hs⟩ := List.forall_mem_cons.1 h
    exact .text hc (ih hs)

/-- An escaped text is filler. -/
theorem isFiller_escapeHtml (s : Text) : IsFiller (escapeHtml s) :=
  isFiller_of_isValue (isValue_escapeHtml s)

/-- A tag with text behind it. -/
theorem isFiller_open (name lead : Text) (properties : List Property)
    (hname : IsName name ∧ isHeadingName name = false ∧ IsValue lead)
    (hproperties : AreSafe properties) (hmark : tagMarks properties = []) :
    IsFiller (openTag name properties ++ lead) :=
  .openTag hname.1 hname.2.1 hproperties hmark (isFiller_of_isValue hname.2.2)

/-- A tag without properties, with text behind it. -/
theorem isFiller_named (name lead : String)
    (h : IsName name.toList ∧ isHeadingName name.toList = false ∧ IsValue lead.toList) :
    IsFiller (openTag name.toList [] ++ lead.toList) :=
  isFiller_open _ _ [] h areSafe_nil rfl

/-- A close tag with text behind it. -/
theorem isFiller_close (name trail : String) (h : IsName name.toList ∧ IsValue trail.toList) :
    IsFiller (closeTag name.toList ++ trail.toList) :=
  .closeTag h.1 (isFiller_of_isValue h.2)

/-- The tags of a table and of its head, one after the other. -/
theorem isFiller_tableHead : IsFiller "<thead><tr>".toList ∧
    IsFiller "</tr></thead><tbody>".toList ∧ IsFiller "</tbody></table>\n".toList :=
  ⟨(isFiller_named "thead" "" (by decide)).append (isFiller_named "tr" "" (by decide)),
    ((isFiller_close "tr" "" (by decide)).append (isFiller_close "thead" "" (by decide))).append
      (isFiller_named "tbody" "" (by decide)),
    (isFiller_close "tbody" "" (by decide)).append (isFiller_close "table" "\n" (by decide))⟩

namespace Writer

variable {style : PageStyle} {w w' : Writer} {event : Event}

/-- Whether the writer `w'` is `w` after `markup`, with perhaps more text of an open heading, and
nothing else that concerns headings, images and footnote definitions. -/
structure Adds (markup : Text) (w w' : Writer) : Prop where
  output : w'.output = w.output ++ markup
  heading : ∃ text, w'.heading = w.heading.map fun h => { h with text := h.text ++ text }
  imageStart : w'.imageStart = w.imageStart
  image : w'.image = w.image
  outer : w'.outer = w.outer
  definitions : w'.footnotes.definitions = w.footnotes.definitions

/-- Markup is added by `push`, whatever is known of tables and references. -/
theorem adds_push (markup : Text) (table : TableState) (code : Option (Option Text × Text))
    {footnotes : FootnoteLedger} (h : footnotes.definitions = w.footnotes.definitions) :
    Adds markup w ({ w with table, code, footnotes }.push markup) where
  output := rfl
  heading := ⟨[], by cases w.heading <;> simp [push]⟩
  imageStart := rfl
  image := rfl
  outer := rfl
  definitions := h

/-- Markup is added behind plain text of a heading. -/
theorem adds_pushHeadingText (s markup : Text) :
    Adds markup w ((w.pushHeadingText s).push markup) :=
  ⟨rfl, ⟨s, rfl⟩, rfl, rfl, rfl, rfl⟩

/-- The start of an element appends filler. -/
theorem exists_adds_start {tag : Tag} (h : (Event.start tag).fills = true) :
    ∃ markup, IsFiller markup ∧ Adds markup w (w.start tag) := by
  have hpush : ∀ {markup}, IsFiller markup → ∃ m, IsFiller m ∧ Adds m w (w.push markup) :=
    fun h => ⟨_, h, adds_push _ w.table w.code rfl⟩
  have hnothing : ∀ code, ∃ m, IsFiller m ∧ Adds m w { w with code } :=
    fun code => ⟨[], .nil, by simpa [push] using adds_push [] w.table code rfl⟩
  have htable : ∀ {markup} (table : TableState), IsFiller markup →
      ∃ m, IsFiller m ∧ Adds m w ({ w with table }.push markup) :=
    fun table h => ⟨_, h, adds_push _ table w.code rfl⟩
  have hordered : ∀ n, IsFiller ("<ol start=\"".toList ++ Text.decimal n ++ "\">\n".toList) :=
    fun n => by
      simpa [openTag, Property.text] using isFiller_open "ol".toList ['\n']
        [⟨"start".toList, some (Text.decimal n)⟩] (by decide)
        (areSafe_nil.cons _ (by decide) (isValue_decimal n)) rfl
  cases tag with
  | heading | image | footnote => cases h
  | paragraph => exact hpush (isFiller_named "p" "" (by decide))
  | blockQuote => exact hpush (isFiller_named "blockquote" "\n" (by decide))
  | fencedCode | indentedCode => exact hnothing _
  | htmlBlock | metadata => exact hnothing w.code
  | list start =>
    rcases start with _ | _ | _ | n
    · exact hpush (isFiller_named "ul" "\n" (by decide))
    · exact hpush (hordered 0)
    · exact hpush (isFiller_named "ol" "\n" (by decide))
    · exact hpush (hordered (n + 2))
  | item => exact hpush (isFiller_named "li" "" (by decide))
  | definitionList => exact hpush (isFiller_named "dl" "\n" (by decide))
  | definitionTitle => exact hpush (isFiller_named "dt" "" (by decide))
  | definitionBody => exact hpush (isFiller_named "dd" "" (by decide))
  | table => exact htable _ (isFiller_named "table" "" (by decide))
  | tableHead => exact htable _ isFiller_tableHead.1
  | tableRow => exact htable _ (isFiller_named "tr" "" (by decide))
  | tableCell =>
    obtain ⟨properties, hproperties, hmark, hstyle⟩ := exists_cellStyle w.table
    have hname : IsName w.table.cellName ∧ isHeadingName w.table.cellName = false ∧
        IsValue ([] : Text) := by
      unfold TableState.cellName
      split <;> decide
    have hcell := isFiller_open _ _ properties hname hproperties hmark
    exact hpush (by simpa [openTag, hstyle] using hcell)
  | emphasis => exact hpush (isFiller_named "em" "" (by decide))
  | strong => exact hpush (isFiller_named "strong" "" (by decide))
  | strikethrough => exact hpush (isFiller_named "s" "" (by decide))
  | superscript => exact hpush (isFiller_named "sup" "" (by decide))
  | subscript => exact hpush (isFiller_named "sub" "" (by decide))
  | link url title =>
    have hlink := isFiller_open "a".toList []
      (⟨"href".toList, some (escapeHtml url)⟩ :: titleProperties title) (by decide)
      ((areSafe_titleProperties title).cons _ (by decide) (isValue_escapeHtml url))
      (by unfold titleProperties; split <;> rfl)
    exact hpush (by simpa [openTag, flatMap_titleProperties, Property.text] using hlink)

/-- The markup of a code block is filler. -/
theorem isFiller_codeBlock (language : Option Text) (content : Text) :
    IsFiller (codeBlock language content) := by
  have hcode : ∀ properties, AreSafe properties → tagMarks properties = [] →
      IsFiller ((openTag "pre".toList [] ++ []) ++ ((openTag "code".toList properties ++ []) ++
        (escapeHtml content ++ ((closeTag "code".toList ++ []) ++
          (closeTag "pre".toList ++ ['\n']))))) := fun properties hproperties hmark =>
    (isFiller_named "pre" "" (by decide)).append
      ((isFiller_open _ [] properties (by decide) hproperties hmark).append
        ((isFiller_escapeHtml content).append
          ((isFiller_close "code" "" (by decide)).append (isFiller_close "pre" "\n" (by decide)))))
  unfold codeBlock
  cases language with
  | none => simpa [openTag, closeTag] using hcode [] areSafe_nil rfl
  | some language =>
    have hprefix : IsValue "language-".toList := by decide
    have hclass := hprefix.append (isValue_escapeHtml language)
    have h := hcode _ (areSafe_nil.cons "class".toList (by decide) hclass) (tagMarks_language _)
    simpa [openTag, closeTag, Property.text] using h

/-- The end of an element appends filler. -/
theorem exists_adds_finish {tag : TagEnd} (h : (Event.finish tag).fills = true) :
    ∃ markup w', w.finish style tag = .ok w' ∧ IsFiller markup ∧ Adds markup w w' := by
  have hpush : ∀ {markup}, IsFiller markup →
      ∃ m w', Except.ok (w.push markup) = (.ok w' : Except Fault Writer) ∧ IsFiller m ∧
        Adds m w w' :=
    fun h => ⟨_, _, rfl, h, adds_push _ w.table w.code rfl⟩
  have htable : ∀ {markup} (table : TableState), IsFiller markup →
      ∃ m w', Except.ok ({ w with table }.push markup) = (.ok w' : Except Fault Writer) ∧
        IsFiller m ∧ Adds m w w' :=
    fun table h => ⟨_, _, rfl, h, adds_push _ table w.code rfl⟩
  have hnothing : Adds [] w w := by simpa [push] using adds_push (w := w) [] w.table w.code rfl
  cases tag with
  | heading | image | footnote => cases h
  | paragraph => exact hpush (isFiller_close "p" "\n" (by decide))
  | blockQuote => exact hpush (isFiller_close "blockquote" "\n" (by decide))
  | codeBlock =>
    rcases hcode : w.code with _ | ⟨language, content⟩
    · exact ⟨[], w, by simp only [finish, hcode], .nil, hnothing⟩
    · exact ⟨_, _, by simp only [finish, hcode], isFiller_codeBlock language content,
        adds_push _ w.table none rfl⟩
  | htmlBlock | metadata => exact ⟨[], w, rfl, .nil, hnothing⟩
  | list ordered =>
    refine hpush ?_
    cases ordered
    · exact isFiller_close "ul" "\n" (by decide)
    · exact isFiller_close "ol" "\n" (by decide)
  | item => exact hpush (isFiller_close "li" "\n" (by decide))
  | definitionList => exact hpush (isFiller_close "dl" "\n" (by decide))
  | definitionTitle => exact hpush (isFiller_close "dt" "\n" (by decide))
  | definitionBody => exact hpush (isFiller_close "dd" "\n" (by decide))
  | table => exact hpush isFiller_tableHead.2.2
  | tableHead => exact htable _ isFiller_tableHead.2.1
  | tableRow => exact hpush (isFiller_close "tr" "" (by decide))
  | tableCell =>
    refine htable _ ?_
    have hname : IsName w.table.cellName := by
      unfold TableState.cellName
      split <;> decide
    simpa [closeTag] using IsFiller.closeTag hname .nil
  | emphasis => exact hpush (isFiller_close "em" "" (by decide))
  | strong => exact hpush (isFiller_close "strong" "" (by decide))
  | strikethrough => exact hpush (isFiller_close "s" "" (by decide))
  | superscript => exact hpush (isFiller_close "sup" "" (by decide))
  | subscript => exact hpush (isFiller_close "sub" "" (by decide))
  | link => exact hpush (isFiller_close "a" "" (by decide))

/-- **One event** appends filler, unless it belongs to a heading, an image or a footnote or is raw
markup. -/
theorem exists_adds_fills (style : PageStyle) (w : Writer) {event : Event}
    (h : event.fills = true) :
    ∃ markup w', step style w event = .ok w' ∧ IsFiller markup ∧ Adds markup w w' := by
  have hpush : ∀ {markup}, IsFiller markup →
      ∃ m w', Except.ok (w.push markup) = (.ok w' : Except Fault Writer) ∧ IsFiller m ∧
        Adds m w w' :=
    fun h => ⟨_, _, rfl, h, adds_push _ w.table w.code rfl⟩
  cases event with
  | start tag =>
    obtain ⟨markup, hmarkup, hadds⟩ := exists_adds_start (w := w) h
    exact ⟨markup, _, rfl, hmarkup, hadds⟩
  | finish tag => exact exists_adds_finish h
  | text content =>
    have htext : step style w (.text content) = .ok (w.text content) := rfl
    unfold text at htext
    split at htext
    · exact ⟨[], _, htext, .nil, by simpa [push] using adds_push [] w.table _ rfl⟩
    · exact ⟨_, _, htext, isFiller_escapeHtml content, adds_pushHeadingText content _⟩
  | code content =>
    refine ⟨_, _, rfl, ?_, adds_pushHeadingText content _⟩
    exact ((isFiller_named "code" "" (by decide)).append (isFiller_escapeHtml content)).append
      (isFiller_close "code" "" (by decide))
  | html | inlineHtml | footnoteReference => cases h
  | inlineMath content | displayMath content => exact hpush (isFiller_escapeHtml content)
  | softBreak => exact hpush (isFiller_of_isValue (by decide))
  | hardBreak => exact hpush (isFiller_named "br" "\n" (by decide))
  | rule => exact hpush (isFiller_named "hr" "\n" (by decide))
  | taskMarker checked =>
    have hmarker : ∀ flags : List Text, (∀ flag ∈ flags, IsName flag) →
        tagMarks (⟨"type".toList, some "checkbox".toList⟩ :: flags.map (⟨·, none⟩)) = [] →
        IsFiller (openTag "input".toList (⟨"type".toList, some "checkbox".toList⟩ ::
          flags.map (⟨·, none⟩)) ++ []) := by
      intro flags hflags hmark
      have hsafe : AreSafe (flags.map (⟨·, none⟩)) := by
        simpa [AreSafe, Property.IsSafe] using hflags
      exact isFiller_open _ [] _ (by decide) (hsafe.cons _ (by decide) (by decide)) hmark
    refine hpush ?_
    cases checked with
    | false => exact hmarker ["disabled".toList] (by decide) rfl
    | true => exact hmarker ["disabled".toList, "checked".toList] (by decide) rfl

/-- A reference appends its markup. -/
theorem exists_adds_reference (style : PageStyle) (w : Writer) (label : Text) :
    ∃ w', step style w (.footnoteReference label) = .ok w' ∧
      Adds (referenceMarkup (w.footnotes.reference label).1 style.context style.naming) w w' :=
  ⟨_, rfl, adds_push _ w.table w.code (FootnoteLedger.definitions_reference _ _)⟩

/-- Raw markup is appended as it is. -/
theorem exists_adds_raw (style : PageStyle) (w : Writer) {event : Event} (h : event.isRaw = true) :
    ∃ markup w', step style w event = .ok w' ∧ Adds markup w w' := by
  cases event with
  | html content => exact ⟨content, _, rfl, adds_push _ w.table w.code rfl⟩
  | inlineHtml content => exact ⟨content, _, rfl, adds_pushHeadingText _ _⟩
  | _ => cases h

end Writer

end Lectern.Page
