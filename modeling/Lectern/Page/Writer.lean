import Lectern.Markdown.Event
import Lectern.Markup.Escape
import Lectern.Page.Basic
import Lectern.Page.Footnote
import Lectern.Page.Slug

/-!
# The Page Writer

The writer turns the events of one document into HTML, one event at a time. Most events append a
piece of markup. Four kinds of element need more: the content of a heading is cut off again when
the heading ends, because its id is made of its text; the alternative text of an image likewise;
the text of a code block waits for the end of the block; and the body of a footnote definition is
written apart, for the footnote section at the end.

A heading and an image remember where their content starts as a number of bytes of the output. A
stream that is not well nested can lose that place: then the writer stops with `Fault`.

* `Writer.step` — the writer after one event.
* `renderEvents` — the page of a whole stream.
-/

namespace Lectern.Page

open Markdown Markup

/-- How pages are written. -/
structure PageStyle where
  context : PageContext := {}
  naming : FootnoteNaming := standardNaming
  anchor : FootnoteAnchor := stockAnchor
  /-- Whether the first heading of level one gives the page its title. -/
  extractTitle : Bool := false

/-- Why a stream cannot be written. -/
inductive Fault where
  /-- The place where a heading or an image began is no place of the output any more. -/
  | lostPlace
deriving Repr, DecidableEq

/-- A heading whose end has not come yet. -/
structure OpenHeading where
  level : Nat
  /-- The place in the output, in bytes, at which its content starts. -/
  start : Nat
  /-- Its plain text so far. -/
  text : Text
deriving Repr, DecidableEq

/-- What is known of the current table. -/
structure TableState where
  alignments : List Markdown.Alignment := []
  inHead : Bool := false
  /-- The column of the next cell. -/
  cell : Nat := 0
deriving Repr, DecidableEq

/-- The element name of a cell. -/
def TableState.cellName (table : TableState) : Text :=
  if table.inHead then "th".toList else "td".toList

/-- The style of the next cell, empty for a column without alignment. -/
def TableState.cellStyle (table : TableState) : Text :=
  match table.alignments[table.cell]? with
  | some .left => " style=\"text-align: left\"".toList
  | some .center => " style=\"text-align: center\"".toList
  | some .right => " style=\"text-align: right\"".toList
  | _ => []

/-- The state of the writer. -/
structure Writer where
  output : Text := []
  footnotes : FootnoteLedger := {}
  /-- The label of the open footnote definition, and the output that waits for its end. -/
  outer : Option (Text × Text) := none
  title : Option Text := none
  toc : List TocEntry := []
  slugs : SlugLedger := []
  heading : Option OpenHeading := none
  /-- The language and the text of the open code block. -/
  code : Option (Option Text × Text) := none
  /-- The place at which the alternative text of the open image starts. -/
  imageStart : Option Nat := none
  /-- The URL and the title of the open image. -/
  image : Option (Text × Text) := none
  table : TableState := {}
deriving Repr, DecidableEq

namespace Writer

/-- The writer after a piece of markup. -/
def push (w : Writer) (markup : Text) : Writer := { w with output := w.output ++ markup }

/-- The writer after a text that belongs to the plain text of an open heading. -/
def pushHeadingText (w : Writer) (s : Text) : Writer :=
  { w with heading := w.heading.map fun h => { h with text := h.text ++ s } }

/-- The output before a place, and what was written since. -/
def cutAt (w : Writer) (place : Nat) : Except Fault (Text × Text) :=
  match Text.cutAtByte? place w.output with
  | some parts => .ok parts
  | none => .error .lostPlace

/-- The value of the first `exp` property in a tag. -/
def expressionProperty? : Text → Option Text
  | [] => none
  | c :: rest =>
    let here := if Unicode.isBlank c then Text.after? "exp=\"".toList rest else none
    match here with
    | some value =>
      match value.dropWhile (· != '"') with
      | _ :: _ => some (value.takeWhile (· != '"'))
      | [] => expressionProperty? rest
    | none => expressionProperty? rest

/-- A property of an ordinary element, left out when its value is empty. -/
def titleProperty (title : Text) : Text :=
  if title.isEmpty then [] else " title=\"".toList ++ escapeHtml title ++ ['"']

/-- The markup of a finished code block. -/
def codeBlock (language : Option Text) (content : Text) : Text :=
  (match language with
    | some language => "<pre><code class=\"language-".toList ++ escapeHtml language ++ "\">".toList
    | none => "<pre><code>".toList) ++
  escapeHtml content ++ "</code></pre>\n".toList

/-- The writer after the start of an element. -/
def start (w : Writer) : Tag → Writer
  | .paragraph => w.push "<p>".toList
  | .heading level => { w with heading := some ⟨level, Text.byteLength w.output, []⟩ }
  | .blockQuote => w.push "<blockquote>\n".toList
  | .fencedCode info => { w with code := some ((Text.words info).head?, []) }
  | .indentedCode => { w with code := some (none, []) }
  | .htmlBlock => w
  | .list (some 1) => w.push "<ol>\n".toList
  | .list (some n) => w.push ("<ol start=\"".toList ++ Text.decimal n ++ "\">\n".toList)
  | .list none => w.push "<ul>\n".toList
  | .item => w.push "<li>".toList
  | .footnote label => { w with output := [], outer := some (label, w.output) }
  | .definitionList => w.push "<dl>\n".toList
  | .definitionTitle => w.push "<dt>".toList
  | .definitionBody => w.push "<dd>".toList
  | .table alignments => { w with table := { alignments } }.push "<table>".toList
  | .tableHead =>
    { w with table := { w.table with inHead := true } }.push "<thead><tr>".toList
  | .tableRow => { w with table := { w.table with cell := 0 } }.push "<tr>".toList
  | .tableCell => w.push ('<' :: w.table.cellName ++ w.table.cellStyle ++ ['>'])
  | .emphasis => w.push "<em>".toList
  | .strong => w.push "<strong>".toList
  | .strikethrough => w.push "<s>".toList
  | .superscript => w.push "<sup>".toList
  | .subscript => w.push "<sub>".toList
  | .link url title =>
    w.push ("<a href=\"".toList ++ escapeHtml url ++ ['"'] ++ titleProperty title ++ ['>'])
  | .image url title =>
    { w with imageStart := some (Text.byteLength w.output), image := some (url, title) }
  | .metadata => w

/-- The writer after the end of a heading: its content becomes an element with an id, and the
heading becomes the title of the page or an entry of the table of contents. -/
def finishHeading (style : PageStyle) (w : Writer) : Except Fault Writer :=
  match w.heading with
  | none => .ok w
  | some heading => do
    let (before, content) ← w.cutAt heading.start
    let text := Text.collapse heading.text
    let (id, slugs) := w.slugs.next text
    let level := Text.decimal heading.level
    let element := "<h".toList ++ level ++ " id=\"".toList ++ id ++ "\">".toList ++
      Text.trim content ++ "</h".toList ++ level ++ ">\n".toList
    let w := { w with output := before ++ element, heading := none, slugs }
    if style.extractTitle && heading.level == 1 && w.title.isNone then
      return { w with title := some text }
    else
      return { w with toc := w.toc ++ [⟨heading.level, text, id⟩] }

/-- The writer after the end of an image: what was written since its start is its alternative
text. -/
def finishImage (w : Writer) : Except Fault Writer := do
  let (before, alternative) ← match w.imageStart with
    | some place => w.cutAt place
    | none => .ok (w.output, [])
  let element := match w.image with
    | some (url, title) =>
      "<img src=\"".toList ++ escapeHtml url ++ "\" alt=\"".toList ++ alternative ++ ['"'] ++
        titleProperty title ++ ['>']
    | none => []
  return { w with output := before ++ element, imageStart := none, image := none }

/-- The writer after the end of an element. -/
def finish (style : PageStyle) (w : Writer) : TagEnd → Except Fault Writer
  | .paragraph => .ok (w.push "</p>\n".toList)
  | .heading _ => w.finishHeading style
  | .blockQuote => .ok (w.push "</blockquote>\n".toList)
  | .codeBlock => match w.code with
    | some (language, content) => .ok ({ w with code := none }.push (codeBlock language content))
    | none => .ok w
  | .htmlBlock => .ok w
  | .list ordered => .ok (w.push (if ordered then "</ol>\n".toList else "</ul>\n".toList))
  | .item => .ok (w.push "</li>\n".toList)
  | .footnote => match w.outer with
    | some (label, outer) => .ok { w with
        output := outer
        outer := none
        footnotes := w.footnotes.define label (Text.trimEnd w.output) }
    | none => .ok w
  | .definitionList => .ok (w.push "</dl>\n".toList)
  | .definitionTitle => .ok (w.push "</dt>\n".toList)
  | .definitionBody => .ok (w.push "</dd>\n".toList)
  | .table => .ok (w.push "</tbody></table>\n".toList)
  | .tableHead => .ok
    ({ w with table := { w.table with inHead := false } }.push "</tr></thead><tbody>".toList)
  | .tableRow => .ok (w.push "</tr>".toList)
  | .tableCell => .ok
    ({ w with table := { w.table with cell := w.table.cell + 1 } }.push
      ("</".toList ++ w.table.cellName ++ ['>']))
  | .emphasis => .ok (w.push "</em>".toList)
  | .strong => .ok (w.push "</strong>".toList)
  | .strikethrough => .ok (w.push "</s>".toList)
  | .superscript => .ok (w.push "</sup>".toList)
  | .subscript => .ok (w.push "</sub>".toList)
  | .link => .ok (w.push "</a>".toList)
  | .image => w.finishImage
  | .metadata => .ok w

/-- The writer after a text, which an open code block keeps to itself. -/
def text (w : Writer) (content : Text) : Writer :=
  match w.code with
  | some (language, code) => { w with code := some (language, code ++ content) }
  | none => (w.pushHeadingText content).push (escapeHtml content)

/-- The writer after **one event**. -/
def step (style : PageStyle) (w : Writer) : Event → Except Fault Writer
  | .start tag => .ok (w.start tag)
  | .finish tag => w.finish style tag
  | .text content => .ok (w.text content)
  | .code content => .ok ((w.pushHeadingText content).push
      ("<code>".toList ++ escapeHtml content ++ "</code>".toList))
  | .html content => .ok (w.push content)
  | .inlineHtml content =>
    let expression := ((expressionProperty? content).map unescapeAttribute).getD []
    .ok ((w.pushHeadingText expression).push content)
  | .inlineMath content => .ok (w.push (escapeHtml content))
  | .displayMath content => .ok (w.push (escapeHtml content))
  | .footnoteReference label =>
    let (token, footnotes) := w.footnotes.reference label
    .ok ({ w with footnotes }.push (referenceMarkup token style.context style.naming))
  | .softBreak => .ok (w.push ['\n'])
  | .hardBreak => .ok (w.push "<br>\n".toList)
  | .rule => .ok (w.push "<hr>\n".toList)
  | .taskMarker checked => .ok (w.push
      ("<input type=\"checkbox\" disabled".toList ++
        (if checked then " checked".toList else []) ++ ['>']))

/-- The writer after a stream of events. -/
def run (style : PageStyle) (w : Writer) (events : List Event) : Except Fault Writer :=
  events.foldlM (step style) w

/-- The page of a writer whose stream has ended: the footnote section follows an empty line. -/
def page (style : PageStyle) (w : Writer) : Page :=
  let notes := w.footnotes.renderSection style.context style.naming style.anchor
  { html := if notes.isEmpty then w.output else w.output ++ '\n' :: notes
    title := w.title
    toc := w.toc }

end Writer

/-- The **page** of a stream of events. -/
def renderEvents (style : PageStyle) (events : List Event) : Except Fault Page :=
  (Writer.run style {} events).map (Writer.page style)

end Lectern.Page
